import ConcreteSyntax.Proofs.Lossless

/-! # The path of a call

Where only items may stand, the call of a macro is told from what fits nowhere by a look ahead: segments
joined with `::` up to a `!` and a group (`Scanner.isAtMacro`). The path of a value is read by a loop of
its own, with arguments and other words among its segments. Both walk over the same path
(`Scanner.CallsAt`, `Grammar.valuePath_call`). -/

namespace ConcreteSyntax

open Parse

variable {text : List Char} {σ : Setting} {s s' : Session} {g : Grammar}

/-! ### The look ahead -/

/-- The segments that stay what they are, though they may begin a path. -/
def Kind.isLoneWord : Kind → Bool
  | .selfKw | .superKw | .crateKw | .metavariable => true
  | _ => false

theorem Kind.startsAngle_of_startsSegment {k : Kind} (h : k.startsSegment = true) :
    k.startsAngle = false := by
  unfold startsSegment at h
  split at h
  all_goals first | rfl | exact absurd h Bool.false_ne_true

namespace Scanner

/-- The scanner at the next token. -/
def next (s : Scanner) : Scanner := s.scan Lexeme.contextual? .usual

/-- The scanner behind the `::` that a path may begin with. -/
def pastColons (s : Scanner) : Scanner := if s.kind == .colonColon then s.next else s

theorem pastColons_eq (h : s.scanner.kind = .colonColon) : s.scanner.pastColons = s.scanner.next :=
  if_pos (beq_iff_eq.2 h)

theorem pastColons_ne (h : s.scanner.kind ≠ .colonColon) : s.scanner.pastColons = s.scanner :=
  if_neg (by simpa using h)

/-- The segments that begin here, joined with `::`, reach up to `stop`, where the call of a macro
follows. -/
inductive CallsAt (stop : Nat) : Scanner → Prop
  | last {s : Scanner} (segment : s.kind.startsSegment = true) (stops : s.token.range.stop = stop)
      (bang : s.next.kind = .bang) (opener : s.next.next.kind.isOpen = true) : CallsAt stop s
  | more {s : Scanner} (segment : s.kind.startsSegment = true) (colons : s.next.kind = .colonColon)
      (rest : CallsAt stop s.next.next) : CallsAt stop s

theorem CallsAt.segment {stop : Nat} {s : Scanner} (h : s.CallsAt stop) :
    s.kind.startsSegment = true := by
  cases h with
  | last segment => exact segment
  | more segment => exact segment

/-- The comments before the first segment do not matter. -/
theorem CallsAt.unled {stop : Nat} {s : Scanner} (h : s.CallsAt stop) :
    CallsAt stop { s with leading := [] } := by
  cases h with
  | last segment stops bang opener => exact .last segment stops bang opener
  | more segment colons rest => exact .more segment colons rest

/-- One step of the look ahead. -/
theorem isAtMacro_succ (n : Nat) (s : Scanner) : s.isAtMacro (n + 1) =
    if s.pastColons.kind.startsSegment then
      match s.pastColons.next.kind with
      | .bang => s.pastColons.next.next.kind.isOpen
      | .colonColon => s.pastColons.next.isAtMacro n
      | _ => false
    else false :=
  rfl

/-- Where the look ahead succeeds it has walked over a path and found the call. -/
theorem callsAt_of_isAtMacro (n : Nat) : ∀ {s : Scanner}, s.isAtMacro n = true →
    ∃ stop, s.pastColons.CallsAt stop := by
  induction n with
  | zero => exact fun h => absurd h Bool.false_ne_true
  | succ n ih =>
    intro s h
    rw [isAtMacro_succ] at h
    split at h
    · next hsegment =>
      split at h
      · next hbang => exact ⟨_, .last hsegment rfl hbang h⟩
      · next hcolons =>
        obtain ⟨stop, hstop⟩ := ih h
        rw [pastColons, if_pos (beq_iff_eq.2 hcolons)] at hstop
        exact ⟨stop, .more hsegment hcolons hstop⟩
      · exact absurd h Bool.false_ne_true
    · exact absurd h Bool.false_ne_true

end Scanner

/-! ### Drafts over a stretch of the text -/

/-- The children of a draft stand in a row from `start` to `stop`. -/
def Draft.Spans (text : List Char) (start stop : Nat) (d : Draft) : Prop :=
  ∃ c more, d.children.toList = c :: more ∧ c.2.range.start = start ∧
    c.2.range.start ≤ c.2.range.stop ∧ Row text False c.2.range.stop more stop

namespace Draft.Spans

variable {d : Draft} {start stop : Nat}

theorem of_push (kind : Kind) (label : Option Field) {n : Node}
    (hn : n.range.start ≤ n.range.stop) :
    ((Draft.ofKind kind).pushChild label n).Spans text n.range.start n.range.stop :=
  ⟨(label, n), [], rfl, rfl, hn, rfl⟩

theorem extend (h : d.Spans text start stop) {more : List Child} {stop' : Nat}
    (hm : Row text False stop more stop') : (d.extend more).Spans text start stop' := by
  obtain ⟨c, rest, hd, hstart, hle, hrow⟩ := h
  exact ⟨c, rest ++ more, by simp [Draft.extend, hd], hstart, hle, hrow.join hm⟩

theorem push (h : d.Spans text start stop) {n : Node} (label : Option Field)
    (hle : stop ≤ n.range.start) (hn : n.range.start ≤ n.range.stop) :
    (d.pushChild label n).Spans text start n.range.stop := by
  obtain ⟨c, rest, hd, hstart, hc, hrow⟩ := h
  exact ⟨c, rest ++ [(label, n)], by simp [Draft.pushChild, hd], hstart, hc,
    hrow.join ⟨⟨hle, False.elim⟩, hn, rfl⟩⟩

theorem finish (h : d.Spans text start stop) (offset : Nat) :
    (d.finish offset).range = ⟨start, stop⟩ := by
  obtain ⟨c, rest, hd, rfl, hle, hrow⟩ := h
  simp [Draft.finish, Draft.finishOver, Draft.span, hd, hrow.hull_eq hle]

end Draft.Spans

theorem Session.Sound.ofToken_range (h : s.Sound text) (as? : Option Kind) :
    (Node.ofToken s.scanner.token as?).range = s.scanner.token.range ∧
      s.scanner.token.range.start ≤ s.scanner.token.range.stop := by
  have hle : s.scanner.token.range.start ≤ s.scanner.token.range.stop := by
    rw [h.scanner.range]
    exact h.scanner.le
  have htiled : (Node.ofToken s.scanner.token as?).Tiled text False ∧
      (Node.ofToken s.scanner.token as?).range = s.scanner.token.range :=
    Node.tiled_ofToken h.scanner.laid hle as?
  exact ⟨htiled.2, hle⟩

/-- The comments before a token go on where the draft stops, if they are kept. -/
theorem Session.Sound.flushed_spans (h : s.Sound text) {start stop : Nat}
    (hd : s.draft.Spans text start stop) (hle : stop ≤ s.consumedEnd) :
    ∃ stop' ≤ s.offset, (s.flushed σ).draft.Spans text start stop' := by
  have hrow : Row text False s.consumedEnd s.comments _ := h.leading.tiles.row
  have hconsumed := h.consumedEnd_le
  show ∃ stop' ≤ _, (if σ.options.keepComments then s.draft.extend s.comments else s.draft).Spans
    text start stop'
  split
  · have hstart : Row text False stop [] stop := rfl
    have hbefore : Gap text False stop s.consumedEnd := ⟨hle, False.elim⟩
    have hbehind : Gap text False (s.flushed σ).consumedEnd s.offset :=
      ⟨(h.flushed σ).consumedEnd_le, False.elim⟩
    obtain ⟨stop', hcomments, hgap⟩ := hstart.append hbefore hrow hbehind
    exact ⟨stop', hgap.le, hd.extend hcomments⟩
  · exact ⟨stop, hle.trans hconsumed, hd⟩

/-- A token that is taken into a draft that spans what stands before it. -/
theorem Session.Sound.taken_spans (h : s.Sound text) {start stop : Nat} {next : Admitted}
    (hd : s.draft.Spans text start stop) (hle : stop ≤ s.consumedEnd) (label : Option Field)
    (as? : Option Kind) :
    ((s.taken σ next).draft.pushChild label (.ofToken s.scanner.token as?)).Spans text start
      s.scanner.token.range.stop := by
  obtain ⟨hrange, hforward⟩ := h.ofToken_range as?
  obtain ⟨stop', hstop', hspans⟩ := h.flushed_spans (σ := σ) hd hle
  have hpush := hspans.push label (n := .ofToken s.scanner.token as?)
    (by rw [hrange]; exact hstop') (by rw [hrange]; exact hforward)
  rwa [hrange] at hpush

/-! ### The path of a call -/

/-- What stands before the next segment of a path that began at `start`, if anything does. -/
def ScopeAt (text : List Char) (start : Nat) (s : Session) : Option Draft → Prop
  | none => s.offset = start ∧ s.scanner.leading = []
  | some d => d.kind = .scopedIdentifier ∧ ∃ stop ≤ s.consumedEnd, d.Spans text start stop

theorem ScopeAt.le {start : Nat} {scope : Option Draft} (h : ScopeAt text start s scope)
    (hs : s.Sound text) : start ≤ s.offset := by
  cases scope with
  | none => exact Nat.le_of_eq h.1.symm
  | some d =>
    obtain ⟨-, stop, hle, c, more, -, rfl, hc, hrow⟩ := h
    exact (hc.trans hrow.le).trans (hle.trans hs.consumedEnd_le)

/-- What a segment is read to, after what stands before it. -/
structure ReadsSegment (text : List Char) (start : Nat) (scope : Option Draft) (s : Session)
    (n : Node) (t : Session) : Prop where
  range : n.range = ⟨start, s.scanner.token.range.stop⟩
  kind : n.kind = .scopedIdentifier ∨ scope = none ∧ n.kind.startsSegment = true ∧
    (s.kind.isLoneWord = false → n.kind = .identifier)
  scanner : t.scanner = s.scanner.next
  draft : t.draft = s.draft
  consumedEnd : t.consumedEnd = s.scanner.token.range.stop
  sound : t.Sound text

theorem Parse.segment_run (h : s.kind.startsSegment = true) :
    ∃ as?, segment .identifier σ s = some (.ofToken s.scanner.token as?, s.taken σ .usual) ∧
      (Node.ofToken s.scanner.token as?).kind.startsSegment = true ∧
      (s.kind.isLoneWord = false → (Node.ofToken s.scanner.token as?).kind = .identifier) := by
  have hend : s.kind ≠ .endOfFile := fun he => by simp [he, Kind.startsSegment] at h
  have hleaf (as? : Option Kind) : (Node.ofToken s.scanner.token as?).kind = as?.getD s.kind := by
    rw [Node.ofToken_segment as? h]
    rfl
  have hrun (as? : Option Kind) := leaf_run as? σ hend
  cases hk : s.kind
  case identifier | selfTypeKw =>
    refine ⟨some .identifier, bind_eq_some.2 ⟨s.kind, s, rfl, ?_⟩, ?_, fun _ => hleaf _⟩
    · rw [hk]
      exact hrun _
    · rw [hleaf]
      rfl
  case selfKw | superKw | crateKw | metavariable =>
    refine ⟨none, bind_eq_some.2 ⟨s.kind, s, rfl, ?_⟩, ?_, fun hw => absurd hw (by decide)⟩
    · rw [hk]
      exact hrun _
    · rw [hleaf, hk]
      rfl
  all_goals exact absurd (hk ▸ h) (by decide)

theorem Parse.segmentIn_run (hs : s.Sound text) (h : s.kind.startsSegment = true) {start : Nat}
    {scope : Option Draft} (hscope : ScopeAt text start s scope) :
    ∃ n t, segmentIn scope .identifier σ s = some (n, t) ∧ ReadsSegment text start scope s n t := by
  cases scope with
  | none =>
    obtain ⟨hstart, hleading⟩ := hscope
    obtain ⟨as?, hrun, hkind, hname⟩ := segment_run (σ := σ) h
    refine ⟨_, _, hrun, ?_, .inr ⟨rfl, hkind, hname⟩, rfl, ?_, rfl, hs.taken σ readsLiterals_usual⟩
    · rw [(hs.ofToken_range as?).1, ← hstart]
      rfl
    · show (s.flushed σ).draft = s.draft
      rw [Session.flushed_of_leading hleading]
  | some d =>
    obtain ⟨hkind, stop, hle, hspans⟩ := hscope
    have hs' : (s.withDraft d).Sound text := hs.withDraft d
    obtain ⟨as?, hrun, -, -⟩ := segment_run (σ := σ) (s := s.withDraft d) h
    refine ⟨_, _, resume_run (bind_eq_some.2 ⟨_, _, hrun, rfl⟩), ?_, .inl ?_, rfl, rfl, rfl,
      (hs'.taken σ readsLiterals_usual).withDraft _ |>.withDraft _⟩
    · exact (hs'.taken_spans hspans hle (some .name) as?).finish _
    · exact (Session.kind_flushed σ (s.withDraft d)).trans hkind

/-- A `::` behind a path opens a draft over both. -/
theorem Parse.scopeAfter_run {start : Nat} {path : Node} (hs : s.Sound text)
    (hcolons : s.kind = .colonColon) (hstart : path.range.start = start)
    (hforward : path.range.start ≤ path.range.stop) (hpath : path.range.stop ≤ s.consumedEnd) :
    ∃ d t, scopeAfter path σ s = some (d, t) ∧ ScopeAt text start t (some d) ∧
      t.scanner = s.scanner.next ∧ t.draft = s.draft ∧ t.Sound text := by
  let u := s.withDraft ((Draft.ofKind .scopedIdentifier).pushField .path path)
  have hu : u.Sound text := hs.withDraft _
  have hend : u.kind ≠ .endOfFile := by
    show s.kind ≠ _
    rw [hcolons]
    decide
  have hexpect := (expect_eq (σ := σ) (s := u) (beq_iff_eq.2 hcolons)).trans (consume_run hend)
  have hspans : ((u.taken σ .usual).draft.pushChild none (.ofToken u.scanner.token none)).Spans text
      path.range.start u.scanner.token.range.stop :=
    hu.taken_spans (.of_push .scopedIdentifier (some .path) hforward) hpath none none
  refine ⟨_, _, collect_eq_some.2 ⟨_, bind_eq_some.2 ⟨(), u, rfl, hexpect⟩, rfl, rfl⟩, ⟨?_, ?_⟩, rfl,
    rfl, (hu.taken σ readsLiterals_usual).withDraft _ |>.withDraft _⟩
  · exact Session.kind_flushed σ u
  · exact ⟨_, Nat.le_refl _, hstart ▸ hspans⟩

/-- What the path of a call is read to: all of it, up to the `!`. -/
structure ReadsCallee (text : List Char) (range : Range) (s : Session) (path : Node) (t : Session) :
    Prop where
  range : path.range = range
  kind : path.kind = .identifier ∨ path.kind = .scopedIdentifier
  call : t.isAtCall = true
  draft : t.draft = s.draft
  sound : t.Sound text

/-- No arguments follow where the path of a call goes on or ends. -/
theorem Grammar.withArguments_none {n : Node}
    (h : s.kind = .bang ∨ (s.ahead 1).startsSegment = true) :
    g.withArguments n σ s = some (n, s) := by
  have hnone : (s.isAt .colonColon && s.nextIsAngle) = false := by
    rcases h with h | h
    · rw [Session.isAt, h]
      rfl
    · rw [Session.nextIsAngle, Kind.startsAngle_of_startsSegment h, Bool.and_false]
  refine bind_eq_some.2 ⟨s, s, rfl, ?_⟩
  rw [hnone]
  rfl

section Turns

variable {start stop : Nat} {scope : Option Draft} {n : Node} {t : Session}

/-- The last segment, before the `!`. -/
theorem Grammar.valuePathTurn_last (hrun : segmentIn scope .identifier σ s = some (n, t))
    (hn : ReadsSegment text start scope s n t) (hbang : s.scanner.next.kind = .bang) :
    g.valuePathTurn scope σ s = some (.done n, t) := by
  have hkind : t.kind = .bang := (congrArg Scanner.kind hn.scanner).trans hbang
  refine bind_eq_some.2 ⟨n, t, hrun, bind_eq_some.2 ⟨n, t, withArguments_none (.inl hkind),
    bind_eq_some.2 ⟨t, t, rfl, ?_⟩⟩⟩
  rw [Session.isAt, hkind]
  rfl

/-- A segment before another one. -/
theorem Grammar.valuePathTurn_more (hs : s.Sound text) (hscope : ScopeAt text start s scope)
    (hrun : segmentIn scope .identifier σ s = some (n, t)) (hn : ReadsSegment text start scope s n t)
    (hcolons : s.scanner.next.kind = .colonColon)
    (hsegment : s.scanner.next.next.kind.startsSegment = true) :
    ∃ d u, g.valuePathTurn scope σ s = some (.again (some d), u) ∧ ScopeAt text start u (some d) ∧
      u.scanner = s.scanner.next.next ∧ u.draft = s.draft ∧ u.Sound text := by
  have hkind : t.kind = .colonColon := (congrArg Scanner.kind hn.scanner).trans hcolons
  have hahead : (t.ahead 1).startsSegment = true := by
    show t.scanner.next.kind.startsSegment = true
    rw [hn.scanner]
    exact hsegment
  -- A path with arguments would be read again as one of a type; the look ahead meets none.
  have hplain : n.kind ≠ .genericFunction := by
    rcases hn.kind with h | ⟨-, h, -⟩
    · rw [h]
      decide
    · exact fun hg => by simp [hg, Kind.startsSegment] at h
  have hle : n.range.start ≤ n.range.stop := by
    rw [hn.range]
    exact (hscope.le hs).trans (hs.ofToken_range none).2
  have hstart : n.range.start = start := by rw [hn.range]
  have hstop : n.range.stop ≤ t.consumedEnd := by rw [hn.range, hn.consumedEnd]
  obtain ⟨d, u, hafter, hd, hscanner, hdraft, hu⟩ :=
    scopeAfter_run (σ := σ) hn.sound hkind hstart hle hstop
  refine ⟨d, u, ?_, hd, by rw [hscanner, hn.scanner], hdraft.trans hn.draft, hu⟩
  refine bind_eq_some.2 ⟨n, t, hrun, bind_eq_some.2 ⟨n, t, withArguments_none (.inr hahead),
    bind_eq_some.2 ⟨t, t, rfl, ?_⟩⟩⟩
  have hagain : (t.isAt .colonColon && t.nextIsSegment) = true := by
    rw [Session.isAt, hkind, Session.nextIsSegment, hahead]
    rfl
  rw [hagain]
  refine bind_eq_some.2 ⟨d, u, ?_, rfl⟩
  rw [if_neg (by simpa using hplain)]
  exact hafter

end Turns

/-- The loop over the segments of a path walks where the look ahead did, by induction on its
turns. -/
theorem Grammar.iterate_valuePathTurn {start stop : Nat} (k : Nat) : ∀ {scope : Option Draft}
    {s s' : Session} {path : Node}, s.Sound text → ScopeAt text start s scope →
      s.scanner.CallsAt stop → (scope = none → s.kind.isLoneWord = true → s.ahead 1 ≠ .bang) →
      iterate g.valuePathTurn k scope σ s = some (path, s') →
      ReadsCallee text ⟨start, stop⟩ s path s' := by
  induction k with
  | zero =>
    intro scope s s' path _ _ _ _ hrun
    cases hrun
  | succ k ih =>
    intro scope s s' path hs hscope hcalls hlone hrun
    obtain ⟨n, t, hsegment, hn⟩ := segmentIn_run (σ := σ) hs hcalls.segment hscope
    cases hcalls with
    | last segment stops bang opener =>
      have hturn := valuePathTurn_last (g := g) hsegment hn bang
      rcases iterate_succ hrun with h | ⟨_, _, h, -⟩
      · obtain ⟨hstep, rfl⟩ := Prod.mk.inj (Option.some.inj (hturn.symm.trans h))
        obtain rfl := Step.done.inj hstep
        refine ⟨stops ▸ hn.range, ?_, ?_, hn.draft, hn.sound⟩
        · refine hn.kind.symm.imp_left fun hkind => hkind.2.2 (Bool.eq_false_iff.2 fun hword => ?_)
          exact hlone hkind.1 hword bang
        · have hkind : t.kind = .bang := (congrArg Scanner.kind hn.scanner).trans bang
          have hopen : (t.ahead 1).isOpen = true := by
            show t.scanner.next.kind.isOpen = true
            rw [hn.scanner]
            exact opener
          rw [Session.isAtCall, Session.isAt, hkind, hopen]
          rfl
      · cases hturn.symm.trans h
    | more segment colons rest =>
      obtain ⟨d, u, hturn, hd, hscanner, hdraft, hu⟩ :=
        valuePathTurn_more (g := g) hs hscope hsegment hn colons rest.segment
      rcases iterate_succ hrun with h | ⟨_, _, h, hrest⟩
      · cases hturn.symm.trans h
      · obtain ⟨hstep, rfl⟩ := Prod.mk.inj (Option.some.inj (hturn.symm.trans h))
        obtain rfl := Step.again.inj hstep
        have hread := ih hu hd (hscanner ▸ rest) (absurd · (Option.some_ne_none d)) hrest
        exact ⟨hread.range, hread.kind, hread.call, hread.draft.trans hdraft, hread.sound⟩

/-- The `::` that a path begins with opens a draft over it. -/
theorem Parse.globalScope_run (hs : s.Sound text) (hcolons : s.kind = .colonColon)
    (hleading : s.scanner.leading = []) :
    ∃ d t, globalScope σ s = some (d, t) ∧ ScopeAt text s.offset t (some d) ∧
      t.scanner = s.scanner.next ∧ t.draft = s.draft ∧ t.Sound text := by
  let u := s.withDraft (.ofKind .scopedIdentifier)
  have hu : u.Sound text := hs.withDraft _
  have hend : u.kind ≠ .endOfFile := by
    show s.kind ≠ _
    rw [hcolons]
    decide
  have hflushed : u.flushed σ = u := Session.flushed_of_leading hleading
  have hdraft : (u.taken σ .usual).draft = .ofKind .scopedIdentifier := by
    show (u.flushed σ).draft = _
    rw [hflushed]
    rfl
  have hconsume : consume σ u = some ((), (u.taken σ .usual).withDraft
      ((Draft.ofKind .scopedIdentifier).pushChild none (.ofToken u.scanner.token none))) := by
    rw [consume_run hend, hdraft]
  obtain ⟨hrange, hle⟩ := hu.ofToken_range none
  have hspans : ((Draft.ofKind .scopedIdentifier).pushChild none
      (.ofToken u.scanner.token none)).Spans text s.offset u.scanner.token.range.stop := by
    have hforward : (Node.ofToken u.scanner.token none).range.start ≤
        (Node.ofToken u.scanner.token none).range.stop := hrange ▸ hle
    have hone : ((Draft.ofKind .scopedIdentifier).pushChild none
        (.ofToken u.scanner.token none)).Spans text (Node.ofToken u.scanner.token none).range.start
        (Node.ofToken u.scanner.token none).range.stop := .of_push .scopedIdentifier none hforward
    rwa [hrange] at hone
  exact ⟨_, _, collect_eq_some.2 ⟨_, hconsume, rfl, rfl⟩, ⟨rfl, _, Nat.le_refl _, hspans⟩, rfl, rfl,
    ((hu.taken σ readsLiterals_usual).withDraft _).withDraft _⟩

/-- The path of a value is the path that the look ahead walked over. -/
theorem Grammar.valuePath_call {stop : Nat} {path : Node} (hs : s.Sound text)
    (hcalls : s.scanner.pastColons.CallsAt stop)
    (hlone : s.kind.isLoneWord = true → s.ahead 1 ≠ .bang)
    (hrun : g.valuePath σ s = some (path, s')) :
    ReadsCallee text ⟨s.offset, stop⟩ (s.flushed σ) path s' := by
  rw [valuePath, bind_of_run (flush_run σ s)] at hrun
  have hu := hs.flushed σ
  by_cases hcolons : s.kind = .colonColon
  · obtain ⟨d, v, hglobal, hd, hscanner, hdraft, hv⟩ := globalScope_run (σ := σ) hu hcolons rfl
    have hsome : g.pathScope σ (s.flushed σ) = some (some d, v) := by
      refine bind_eq_some.2 ⟨s.kind, s.flushed σ, rfl, ?_⟩
      rw [hcolons]
      exact bind_eq_some.2 ⟨d, v, hglobal, rfl⟩
    rw [bind_of_run hsome] at hrun
    rw [Scanner.pastColons_eq hcolons] at hcalls
    have hloop : iterate g.valuePathTurn σ.turns (some d) σ v = some (path, s') := hrun
    have hread := iterate_valuePathTurn _ hv hd (hscanner ▸ hcalls)
      (absurd · (Option.some_ne_none d)) hloop
    exact ⟨hread.range, hread.kind, hread.call, hread.draft.trans hdraft, hread.sound⟩
  · rw [Scanner.pastColons_ne hcolons] at hcalls
    have hangle : s.kind.startsAngle = false := Kind.startsAngle_of_startsSegment hcalls.segment
    have hnone : g.pathScope σ (s.flushed σ) = some (none, s.flushed σ) := by
      refine bind_eq_some.2 ⟨s.kind, s.flushed σ, rfl, ?_⟩
      rw [hangle, beq_eq_false_iff_ne.2 hcolons]
      rfl
    rw [bind_of_run hnone] at hrun
    have hloop : iterate g.valuePathTurn σ.turns none σ (s.flushed σ) = some (path, s') := hrun
    have hstart : ScopeAt text s.offset (s.flushed σ) none := ⟨rfl, rfl⟩
    exact iterate_valuePathTurn _ hu hstart hcalls.unled (fun _ => hlone) hloop

end ConcreteSyntax
