import ConcreteSyntax.Grammar.Literal
import ConcreteSyntax.Proofs.Node.Quiet
import ConcreteSyntax.Proofs.Reading.Session

/-! # Taking a token

What `Parse.flush` and `Parse.take` do to a session, in closed form (`Session.flushed`,
`Session.taken`): the comments before the token go to the open draft, the faults of the token are
reported, and the scanner moves on. Both take a session onward, and taking a token leads to a later
one (`Session.taken_lt`). -/

namespace ConcreteSyntax

open Text (Place Blank byteLength)

/-! ### Closed forms -/

/-- Several diagnostics more. -/
def Report.addAll (r : Report) (ds : List Diagnostic) : Report := ⟨r.items ++ ds.toArray⟩

/-- The faults of a token have their places. -/
theorem Report.grows_addAll (r : Report) (faults : List Fault) {file source : String} :
    r.Grows (r.addAll (faults.map (·.diagnostic file source))) := by
  refine ⟨⟨faults.map (·.diagnostic file source), by simp [addAll, toList]⟩, fun d hd => ?_⟩
  have hd : d ∈ r.toList ∨ ∃ f ∈ faults, f.diagnostic file source = d := by
    simpa [addAll, toList] using hd
  rcases hd with hd | ⟨f, -, rfl⟩
  · exact .inl hd
  · exact .inr (by rw [f.range_diagnostic]; rfl)

namespace Session

/-- The comments before the current token, as children. -/
def comments (s : Session) : List Child := s.scanner.leading.map fun c => (none, Node.ofComment c)

theorem quiet_comments {text : List Char} {s : Session} (hs : s.Sound text) :
    ∀ c ∈ s.comments, c.2.Quiet := by
  intro c hc
  obtain ⟨t, ht, rfl⟩ := List.mem_map.1 hc
  obtain ⟨hl, hk⟩ := hs.leading.of_mem ht
  exact Node.quiet_ofComment hl hk

/-- The session after the comments before the current token were moved to the open draft, or
dropped. -/
def flushed (σ : Setting) (s : Session) : Session :=
  { s with
    scanner := { s.scanner with leading := [] }
    consumedEnd := ((s.scanner.leading.getLast?).map (·.range.stop)).getD s.consumedEnd
    draft := if σ.options.keepComments then s.draft.extend s.comments else s.draft }

/-- The session after the current token was taken. -/
def taken (σ : Setting) (next : Admitted) (s : Session) : Session :=
  { s.flushed σ with
    report := s.report.addAll (s.scanner.token.faults.map (·.diagnostic σ.file σ.source))
    scanner := s.scanner.scan Lexeme.contextual? next
    consumedEnd := s.scanner.token.range.stop }

end Session

namespace Parse

theorem extend_nil (d : Draft) : d.extend [] = d := by simp [Draft.extend]

theorem isAt_run (kind : Kind) (σ : Setting) (s : Session) :
    isAt kind σ s = some (s.isAt kind, s) := rfl

end Parse

namespace Session

/-- Where no comments are pending none are moved. -/
theorem flushed_of_leading {σ : Setting} {s : Session} (h : s.scanner.leading = []) :
    s.flushed σ = s := by
  obtain ⟨⟨start, here, token, leading⟩, report, braces, stop, declined, remarks, draft'⟩ := s
  obtain rfl : leading = [] := h
  simp [Session.flushed, Session.comments, Parse.extend_nil]

theorem kind_flushed (σ : Setting) (s : Session) : (s.flushed σ).draft.kind = s.draft.kind := by
  unfold Session.flushed
  dsimp only
  split <;> rfl

end Session

namespace Parse

theorem forM_push {comments : List Token} {σ : Setting} {s : Session} :
    comments.forM (fun c => push (.ofComment c)) σ s = some ((), { s with
      draft := s.draft.extend (comments.map fun c => (none, Node.ofComment c)) }) := by
  induction comments generalizing s with
  | nil => rw [List.map_nil, extend_nil]; rfl
  | cons c comments ih =>
    show (push (.ofComment c) >>= fun _ => comments.forM fun c => push (.ofComment c)) σ s = _
    refine bind_eq_some.2 ⟨(), _, rfl, ih.trans ?_⟩
    simp [Draft.extend, Draft.push, Draft.pushChild]

theorem flush_run (σ : Setting) (s : Session) : flush σ s = some ((), s.flushed σ) := by
  unfold flush
  refine bind_eq_some.2 ⟨s, s, rfl, ?_⟩
  cases h : s.scanner.leading.getLast? with
  | none =>
    rw [Session.flushed_of_leading (List.getLast?_eq_none_iff.1 h)]
    rfl
  | some last =>
    refine bind_eq_some.2 ⟨(), _, rfl, bind_eq_some.2 ⟨σ.options, _, rfl, ?_⟩⟩
    by_cases hk : σ.options.keepComments = true
    · rw [if_pos hk, forM_push]
      simp [Session.flushed, Session.comments, hk, h]
    · rw [if_neg hk]
      simp [Session.flushed, hk, h]
      rfl

theorem forM_add {ds : List Fault} {f : Fault → Diagnostic} {σ : Setting} {s : Session} :
    ds.forM (fun d => add (f d)) σ s =
      some ((), { s with report := s.report.addAll (ds.map f) }) := by
  induction ds generalizing s with
  | nil =>
    simp [Report.addAll]
    rfl
  | cons d ds ih =>
    show (add (f d) >>= fun _ => ds.forM fun d => add (f d)) σ s = _
    refine bind_eq_some.2 ⟨(), _, rfl, ih.trans ?_⟩
    simp [Report.addAll, Report.add]

/-- Taking the current token. -/
theorem take_run (as? : Option Kind) (next : Admitted) (σ : Setting) (s : Session) :
    take as? next σ s =
      if s.kind = .endOfFile then some (none, s)
      else some (some (.ofToken s.scanner.token as?), s.taken σ next) := by
  unfold take
  split
  · next h =>
    exact bind_eq_some.2 ⟨true, s, by rw [isAt_run, Session.isAt, h]; rfl, rfl⟩
  · next h =>
    refine bind_eq_some.2 ⟨false, s, ?_, ?_⟩
    · rw [isAt_run, Session.isAt, beq_eq_false_iff_ne.2 h]
    · refine bind_eq_some.2 ⟨(), _, flush_run σ s, bind_eq_some.2 ⟨σ, _, rfl,
        bind_eq_some.2 ⟨s.flushed σ, _, rfl, bind_eq_some.2 ⟨(), _, forM_add, rfl⟩⟩⟩⟩

/-- Taking the current token into the open draft. -/
theorem consumeWith_run (label : Option Field) (as? : Option Kind) (next : Admitted) (σ : Setting)
    (s : Session) :
    consumeWith label as? next σ s = some ((),
      if s.kind = .endOfFile then s
      else { s.taken σ next with
        draft := (s.taken σ next).draft.pushChild label (.ofToken s.scanner.token as?) }) := by
  unfold consumeWith
  split
  · next h => exact bind_eq_some.2 ⟨none, s, by rw [take_run, if_pos h], rfl⟩
  · next h => exact bind_eq_some.2 ⟨_, _, by rw [take_run, if_neg h], rfl⟩

theorem consume_run {σ : Setting} {s : Session} (h : s.kind ≠ .endOfFile) :
    consume σ s = some ((), (s.taken σ .usual).withDraft
      ((s.taken σ .usual).draft.pushChild none (.ofToken s.scanner.token none))) :=
  (consumeWith_run _ _ _ _ _).trans (by rw [if_neg h]; rfl)

/-- A token that is expected and comes is taken. -/
theorem expect_eq {kind : Kind} {σ : Setting} {s : Session} (h : s.isAt kind = true) :
    expect kind σ s = consume σ s := by
  rw [expect, bind_of_run (isAt_run kind σ s), if_pos h]

/-- Taking the current token as a leaf. -/
theorem leaf_run (as? : Option Kind) (σ : Setting) {s : Session} (h : s.kind ≠ .endOfFile) :
    leaf as? σ s = some (.ofToken s.scanner.token as?, s.taken σ .usual) :=
  bind_eq_some.2 ⟨_, _, (take_run as? .usual σ s).trans (if_neg h), rfl⟩

/-- The draft with a number: with its pieces, if it has some. -/
def withNumber (d : Draft) (number : Node) : Draft :=
  if number.isLeaf then d.push number
  else (d.addFlags { error := number.flags.error }).extend number.children

/-- Taking a number into the open draft. -/
theorem consumeNumber_run (next : Admitted) (σ : Setting) {s : Session}
    (h : s.kind ≠ .endOfFile) :
    consumeNumber next σ s = some ((), { s.taken σ next with
      draft := withNumber (s.taken σ next).draft (.ofToken s.scanner.token none) }) := by
  refine bind_eq_some.2 ⟨_, _, (take_run none next σ s).trans (if_neg h), ?_⟩
  show (if (Node.ofToken s.scanner.token none).isLeaf = true then _ else _ : Parse Unit) σ _ = _
  unfold withNumber
  split <;> rfl

/-- The draft of a literal whose pieces are known and whose suffix follows. -/
def literalDraft (literal : Node) : Draft :=
  ((Draft.ofKind literal.kind).addFlags { error := literal.flags.error }).extend literal.children

/-- Taking a literal between quotes that no suffix touches. -/
theorem quotedLiteral_bare {σ : Setting} {s : Session} (h : s.kind ≠ .endOfFile)
    (hk : (s.taken σ .afterLiteral).kind ≠ .literalSuffix) :
    quotedLiteral σ s = some (.ofToken s.scanner.token none, s.taken σ .afterLiteral) := by
  refine bind_eq_some.2 ⟨_, _, (take_run none .afterLiteral σ s).trans (if_neg h), ?_⟩
  refine bind_eq_some.2 ⟨false, _, ?_, rfl⟩
  rw [isAt_run, Session.isAt, beq_eq_false_iff_ne.2 hk]

/-- The session after a literal between quotes, its pieces in a draft of its own. -/
def unpacked (σ : Setting) (s : Session) : Session :=
  { s.taken σ .afterLiteral with draft := literalDraft (.ofToken s.scanner.token none) }

/-- Taking a literal between quotes and the suffix that touches it. -/
theorem quotedLiteral_suffixed {σ : Setting} {s : Session} (h : s.kind ≠ .endOfFile)
    (hk : (s.taken σ .afterLiteral).kind = .literalSuffix) :
    quotedLiteral σ s = some
      ((((unpacked σ s).taken σ .usual).draft.push (.ofToken (unpacked σ s).scanner.token none)).finish
          ((unpacked σ s).taken σ .usual).consumedEnd,
        { (unpacked σ s).taken σ .usual with draft := (s.taken σ .afterLiteral).draft }) := by
  have hend : (unpacked σ s).kind ≠ .endOfFile := by
    show (s.taken σ .afterLiteral).kind ≠ .endOfFile
    rw [hk]
    nofun
  have hconsume := (consumeWith_run none none .usual σ (unpacked σ s)).trans (by rw [if_neg hend])
  refine bind_eq_some.2 ⟨_, _, (take_run none .afterLiteral σ s).trans (if_neg h), ?_⟩
  refine bind_eq_some.2 ⟨true, _, by rw [isAt_run, Session.isAt, hk]; rfl, ?_⟩
  exact bind_eq_some.2 ⟨_, _, bind_eq_some.2 ⟨_, _, rfl, bind_eq_some.2 ⟨_, _, rfl,
    bind_eq_some.2 ⟨(), _, bind_eq_some.2 ⟨(), _, rfl, bind_eq_some.2 ⟨(), _, rfl, hconsume⟩⟩,
      rfl⟩⟩⟩, rfl⟩

end Parse

/-! ### Going on -/

/-- Behind the last comment before a token only white space is left. -/
theorem Leading.blank_last {text : List Char} {a b : Nat} {comments : List Token}
    (h : Leading text a comments b) :
    Blank text (((comments.getLast?).map (·.range.stop)).getD a) b := by
  induction comments generalizing a with
  | nil => exact h
  | cons c comments ih =>
    have hrest := ih h.2.2.2.2
    cases comments with
    | nil => exact hrest
    | cons d comments =>
      rw [List.getLast?_cons_cons]
      rw [List.getLast?_cons] at hrest ⊢
      exact hrest

namespace Session

theorem Sound.flushed {text : List Char} {s : Session} (σ : Setting) (h : s.Sound text) :
    (s.flushed σ).Sound text :=
  ⟨⟨h.scanner.1, h.scanner.2, h.scanner.3, h.scanner.4, h.scanner.5, h.scanner.6, h.scanner.7,
    h.scanner.8⟩, h.leading.blank_last⟩

theorem Sound.taken {text : List Char} {s : Session} (σ : Setting) {next : Admitted}
    (hn : next.ReadsLiterals) (h : s.Sound text) : (s.taken σ next).Sound text := by
  obtain ⟨hs, hl⟩ := Scanner.scan_sound hn h.scanner.here
  refine ⟨hs, ?_⟩
  show Leading text s.scanner.token.range.stop _ _
  rwa [h.stop_eq]

theorem Sound.onward_flushed {text : List Char} {s : Session} (σ : Setting) (h : s.Sound text) :
    s.Onward text (s.flushed σ) :=
  ⟨h.flushed σ, Nat.le_refl _, fun _ => .inl rfl, .refl _, id⟩

/-- A token that was taken lies behind the next one. -/
theorem Sound.taken_lt {text : List Char} {s : Session} (σ : Setting) {next : Admitted}
    (hn : next.ReadsLiterals) (h : s.Sound text) (hk : s.kind ≠ .endOfFile) :
    s.offset < (s.taken σ next).offset := by
  have hlt := h.scanner.lt hk
  have hle := (h.taken σ hn).consumedEnd_le
  have hstop : (s.taken σ next).consumedEnd = s.scanner.token.range.stop := rfl
  rw [hstop, h.stop_eq] at hle
  rw [h.offset_eq]
  omega

/-- The faults of a token that was taken are reported. -/
theorem taken_hasErrors {s : Session} (σ : Setting) (next : Admitted)
    (h : s.scanner.token.faults ≠ []) : (s.taken σ next).report.hasErrors = true := by
  obtain ⟨f, fs, hf⟩ := List.exists_cons_of_ne_nil h
  rw [Report.hasErrors_eq]
  simp [taken, Report.addAll, Report.toList, hf, Fault.isError_diagnostic]

theorem Sound.onward_taken {text : List Char} {s : Session} (σ : Setting) {next : Admitted}
    (hn : next.ReadsLiterals) (h : s.Sound text) (hk : s.kind ≠ .endOfFile) :
    s.Onward text (s.taken σ next) :=
  .of_lt (h.taken σ hn) (h.taken_lt σ hn hk) (Report.grows_addAll _ _) fun ho =>
    .inl (ho.elim (Report.grows_addAll _ _).hasErrors (taken_hasErrors σ next))

end Session

end ConcreteSyntax
