import ConcreteSyntax.Grammar.Reading
import ConcreteSyntax.Proofs.Excerpt.LastItem
import ConcreteSyntax.Proofs.Reading.Run

/-! # The members of a text

A text is read one member after another (`Parse.Row`). The members of a text that others follow are
read in the whole as in the text, up to behind its last one (`Parse.Row.landed`), and the members of
a text at the end of the whole as if nothing stood before it (`Parse.Row.continued`). -/

namespace ConcreteSyntax

open Parse
open Text (byteLength)
open Lexeme (contextual?)

/-- A session with comments before its token that are moved to the draft first. -/
def Session.past (σ : Setting) (scanner : Scanner) (comments : List Token) (s : Session) : Session :=
  { ({ s with scanner := { scanner with leading := comments } } : Session).flushed σ with scanner }

theorem Session.flushed_past {σ : Setting} {s : Session} {scanner : Scanner} {comments : List Token}
    (h : s.scanner = { scanner with leading := comments ++ scanner.leading }) :
    (s.past σ scanner comments).flushed σ = s.flushed σ := by
  obtain ⟨_, report, openBraces, consumedEnd, declined, remarks, draft⟩ := s
  obtain rfl := h
  unfold past flushed Session.comments
  dsimp only
  congr 1
  · rw [List.getLast?_append]
    cases scanner.leading.getLast? <;> rfl
  · split
    · simp [Draft.extend]
    · rfl

namespace Parse

/-! ### Turns -/

/-- The turns of a program that answers whether another one follows. -/
inductive Row (turn : Parse Bool) (σ : Setting) : Session → Session → Prop
  | last {s t : Session} : turn σ s = some (false, t) → Row turn σ s t
  | more {s t u : Session} : turn σ s = some (true, u) → Row turn σ u t → Row turn σ s t

variable {turn : Parse Bool} {σ σ' : Setting} {s s' t t' : Session}

theorem Row.unique (h : Row turn σ s t) (h' : Row turn σ s t') : t = t' := by
  induction h with
  | last hturn =>
    cases h' with
    | last hturn' => exact (Prod.mk.inj (Option.some.inj (hturn.symm.trans hturn'))).2
    | more hturn' => cases hturn.symm.trans hturn'
  | more hturn _ ih =>
    cases h' with
    | last hturn' => cases hturn.symm.trans hturn'
    | more hturn' hrest =>
      obtain rfl := (Prod.mk.inj (Option.some.inj (hturn.symm.trans hturn'))).2
      exact ih hrest

theorem Row.behind {u : Session} (hturn : turn σ s = some (true, u)) (h : Row turn σ s t) :
    Row turn σ u t := by
  cases h with
  | last hturn' => exact nomatch (Prod.mk.inj (Option.some.inj (hturn.symm.trans hturn'))).1
  | more hturn' hrest =>
    obtain rfl := (Prod.mk.inj (Option.some.inj (hturn.symm.trans hturn'))).2
    exact hrest

/-- Only the first turn sees the session at which a row begins. -/
theorem Row.congr (hturn : turn σ s' = turn σ s) (h : Row turn σ s t) : Row turn σ s' t := by
  cases h with
  | last h => exact .last (hturn.trans h)
  | more h hrest => exact .more (hturn.trans h) hrest

theorem row_of_repeatWhile {r : Unit} (h : repeatWhile turn σ s = some (r, t)) : Row turn σ s t := by
  have hiterate (n : Nat) : ∀ s, iterate (fun () => do return if ← turn then .again () else .done ())
      n () σ s = some (r, t) → Row turn σ s t := by
    induction n with
    | zero => exact fun _ h => nomatch h
    | succ n ih =>
      intro s h
      rcases iterate_succ h with h | ⟨_, u, h, hrest⟩
      · obtain ⟨b, u, hturn, h⟩ := bind_eq_some.1 h
        obtain ⟨hb, rfl⟩ := pure_eq_some.1 h
        cases b with
        | false => exact .last hturn
        | true => exact nomatch hb
      · obtain ⟨b, v, hturn, h⟩ := bind_eq_some.1 h
        obtain ⟨hb, rfl⟩ := pure_eq_some.1 h
        cases b with
        | false => exact nomatch hb
        | true => exact .more hturn (ih _ hrest)
  exact hiterate σ.turns s h

/-! ### Members of a text -/

/-- The row of the members of a text. -/
abbrev Members (g : Grammar) : Setting → Session → Session → Prop :=
  Row (g.rowTurn { inBraces := false, itemsOnly := false })

variable {g g' : Grammar} {E : Excerpt} {pre : List Child}

/-- At the end of the text only the comments are left. -/
theorem rowTurn_atEnd (h : s.kind = .endOfFile) :
    g.rowTurn { inBraces := false, itemsOnly := false } σ s = some (false, s.flushed σ) := by
  refine bind_eq_some.2 ⟨(), _, flush_run σ s, bind_eq_some.2 ⟨.endOfFile, _, ?_, rfl⟩⟩
  exact congrArg (fun c => some (c, s.flushed σ)) h

theorem Row.of_atEnd (hend : s.kind = .endOfFile) (h : Members g σ s t) : t = s.flushed σ := by
  exact h.unique (.last (rowTurn_atEnd hend))

/-- Comments are no members. -/
theorem endsSealed_of_flushed {text : List Char} (hs : s.Sound text)
    (h : (s.flushed σ).draft.EndsSealed E) : s.draft.EndsSealed E := by
  have hcomment {a b : Nat} {comments : List Token} (h : Leading text a comments b) :
      ∀ c ∈ comments, (Node.ofComment c).kind.isComment = true := by
    induction comments generalizing a with
    | nil => exact List.forall_mem_nil _
    | cons c comments ih =>
      refine List.forall_mem_cons.2 ⟨?_, ih h.2.2.2.2⟩
      unfold Node.ofComment
      dsimp only
      split
      exacts [h.2.2.2.1, h.2.2.2.1]
  unfold Session.flushed at h
  dsimp only at h
  split at h
  · unfold Draft.EndsSealed at h ⊢
    rwa [Draft.extend, Array.toList_append, Node.lastMember?_append] at h
    intro c hc
    obtain ⟨t, ht, rfl⟩ := List.mem_map.1 hc
    exact hcomment hs.leading t ht
  · exact h

/-- **The members of a text that others follow**: if nothing is reported and the last one is sealed,
the session over the whole keeps step up to behind it. -/
theorem Row.landed (pre : List Child) (hleads : g.Leads E.text) (hg : g.Closes true E g') (hσ : σ.Within E σ')
    (h : Members g σ s t) (hs : s.Sound E.text) (hopen : s.kind ≠ .endOfFile)
    (hreport : t.report.toList = []) (hsealed : t.draft.EndsSealed E) :
    s.Fair E ∧ ∀ {s'}, s.Alike E pre s' → ∃ u u' before, Session.kind u = .endOfFile ∧
      t = u.flushed σ ∧ u.Landed E pre before u' ∧
      ∀ {t'}, Members g' σ' s' t' → Members g' σ' u' t' := by
  induction h with
  | last h => exact absurd (Grammar.rowTurn_last h).1 hopen
  | @more s t u hturn hrest ih =>
    have hread : Orderly E.text g 0 true ⟨.empty, none, false, false, .proper⟩
        (g.rowTurn { inBraces := false, itemsOnly := false }) fun b => ⟨.empty, none, b, false, .proper⟩ :=
      .rowTurn
    have hu : u.Sound E.text := (hread.arrives hleads hs ⟨nofun, nofun⟩ hturn).onward.sound
    by_cases hend : u.kind = .endOfFile
    · obtain rfl := hrest.of_atEnd hend
      have hfaults : u.scanner.token.faults = [] := hu.scanner.laid.faultless (by
        rw [show u.scanner.token.kind = .endOfFile from hend]; rfl)
      have hsealed : u.EndsSealed E := ⟨⟨hreport, hfaults, hend⟩, endsSealed_of_flushed hu hsealed⟩
      obtain ⟨hs, hgo⟩ := (Follows.rowTurn_last (a := none) hg).follow hσ nofun hturn ⟨rfl, hsealed⟩
      refine ⟨hs, fun halike => ?_⟩
      obtain ⟨u', hturn', hu⟩ := hgo halike
      exact ⟨u, u', _, hend, rfl, hu _ le_rfl, fun h => h.behind hturn'⟩
    · obtain ⟨hu, hgo⟩ := ih hu hend hreport hsealed
      obtain ⟨hs, hstep⟩ := (Follows.rowTurn (a := none) hg.tracks).follow hσ nofun hturn hu
      refine ⟨hs, fun halike => ?_⟩
      obtain ⟨u', hturn', hu'⟩ := hstep halike
      obtain ⟨v, v', before, hv, ht, hlanded, hrow⟩ := hgo (hu' _ le_rfl).2
      exact ⟨v, v', before, hv, ht, hlanded, fun h => hrow (h.behind hturn')⟩

/-! ### What follows other members -/

/-- The first token behind a text that ends is the first one of what follows on the next line. -/
theorem facing_across {E₂ : Excerpt} {place : Cursor} {text : String} (htail : E.tail = '\n' :: E₂.text)
    (hfront : E₂.front = E.front ++ (E.text ++ ['\n'])) (hlast : E₂.tail = [])
    (htext : text.toList = E₂.text) (hplace : place.In E.text)
    (hend : (Scanner.facing .usual place).kind = .endOfFile) :
    ∃ scanner, (Session.start text).scanner.Placed E₂ scanner ∧ Scanner.facing .usual (E.move place) =
      { scanner with
        leading := (Scanner.facing .usual place).leading.map (Token.shift E.shift) ++ scanner.leading } := by
  have hfacing : (Session.start text).scanner = .facing .usual { offset := 0, rest := E₂.text } := by
    rw [← htext]
    exact Scanner.scan_eq .usual (.ofText text)
  let here (place : Cursor) : Scanner :=
    { start := place, here := place, token := Scanner.noToken place.offset }
  have hkind : ((here place).scan contextual? .usual).kind = .endOfFile := hend
  obtain ⟨scanner, hplaced, hacross⟩ := @Scanner.scan_across _ _ (here (E.move place)) _ htail hfront
    hlast hplace rfl hkind
  exact ⟨scanner, hfacing ▸ hplaced, hacross⟩

/-- Behind the members of a text, the session over the whole goes on as one at the first token of what
follows, with the comments at the end of the text moved to the draft. -/
theorem Row.across {E₂ : Excerpt} {before : Nat} {u u' : Session} {text : String}
    (htail : E.tail = '\n' :: E₂.text) (hfront : E₂.front = E.front ++ (E.text ++ ['\n']))
    (hlast : E₂.tail = []) (htext : text.toList = E₂.text)
    (hreported : E₂.reported = E.reported ++ u.report.toList.map (Diagnostic.shift E.shift))
    (hσ : σ.Within E σ') (hend : u.kind = .endOfFile) (h : u.Landed E pre before u')
    (hpre : pre ++ (u.flushed σ).draft.children.toList.map (Child.shift E.shift) ≠ []) :
    ∃ v', (Session.start text).Alike E₂
        (pre ++ (u.flushed σ).draft.children.toList.map (Child.shift E.shift)) (v'.endedAt E₂.shift) ∧
      ∀ {g' t'}, Members g' σ' u' t' → Members g' σ' v' t' := by
  obtain ⟨place, hplace, -, hscanner, hscanner'⟩ := h.behind
  have hstart : (Session.start text).Sound E₂.text := htext ▸ Session.sound_start text
  have hkind : (Scanner.facing .usual place).kind = .endOfFile := hscanner ▸ hend
  obtain ⟨scanner, hplaced, hacross⟩ := facing_across htail hfront hlast htext hplace hkind
  have hleading : u'.scanner =
      { scanner with leading := u.scanner.leading.map (Token.shift E.shift) ++ scanner.leading } := by
    rw [hscanner', hscanner]
    exact hacross
  have hdraft : (u'.past σ' scanner (u.scanner.leading.map (Token.shift E.shift))).draft.children.toList =
      pre ++ (u.flushed σ).draft.children.toList.map (Child.shift E.shift) := by
    have hcomments : (u.scanner.leading.map (Token.shift E.shift)).map (fun c => (none, Node.ofComment c)) =
        u.comments.map (Child.shift E.shift) := by
      simp only [Session.comments, List.map_map]
      refine List.map_congr_left fun c _ => ?_
      simp [Child.shift, Node.ofComment_shift]
    unfold Session.past Session.flushed
    simp only [Session.comments, hσ.options, hcomments]
    split
    · exact (h.draft.extend u.comments).children
    · exact h.draft.children
  refine ⟨u'.past σ' scanner (u.scanner.leading.map (Token.shift E.shift)), ?_, fun hrow => hrow.congr ?_⟩
  · refine ⟨⟨?_, List.forall_mem_nil _, ?_, .inl hlast, (Nat.zero_add _).symm,
      fun offset ambiguity => ⟨fun hmem => ?_, fun hmem => absurd hmem List.not_mem_nil⟩,
      List.forall_mem_nil _,
      ⟨hdraft.trans (List.append_nil _).symm, fun hnil => absurd hnil hpre⟩, hstart⟩, hplaced, ?_⟩
    · exact (h.report.trans hreported.symm).trans (List.append_nil _).symm
    · exact h.openBraces.trans (h.mended.resolve_left (htail ▸ List.cons_ne_nil _ _))
    · have hbreak : E₂.shift = byteLength E.text + 1 + E.shift := by
        simp only [Excerpt.shift, hfront, Text.byteLength_append, Text.byteLength_cons, Text.byteLength_nil]
        rw [Nat.add_comm]
        rfl
      rw [hbreak, ← Nat.add_assoc] at hmem
      have hle : offset + (byteLength E.text + 1) ≤ byteLength E.text := h.bound _ ((h.declined _ _).1 hmem)
      omega
    · exact Scanner.name_of_quote readsLiterals_usual rfl rfl ⟨rfl, Text.Place.start _⟩
  · refine congrArg (Option.bind · _) ?_
    rw [flush_run, flush_run, Session.flushed_past hleading]

/-- **The members at the end of the whole** are read as those of the text, wherever the token before
them ended. -/
theorem Row.continued (htail : E.tail = []) (hg : g.Tracks E g') (hfirst : g'.TakesFirst)
    (hσ : σ.Within E σ') {offset : Nat} (halike : s.Alike E pre (s'.endedAt offset)) {r : Unit}
    (h : g.statements { inBraces := false, itemsOnly := false } σ s = some (r, t))
    (hrow : Members g' σ' s' t') :
    (∀ d ∈ t.report.toList, d.range.isSome = true) ∧
      t'.report.toList = E.reported ++ t.report.toList.map (Diagnostic.shift E.shift) ∧
      t'.draft.children.toList = pre ++ t.draft.children.toList.map (Child.shift E.shift) := by
  by_cases hend : s.kind = .endOfFile
  · have ht : t = s.flushed σ := (row_of_repeatWhile h).of_atEnd hend
    have ht' : t' = s'.flushed σ' := hrow.of_atEnd (halike.kind.trans hend)
    rw [ht, ht']
    exact ⟨halike.located, halike.report, (halike.flushed hσ).draft.children⟩
  · have hend' : s'.kind ≠ .endOfFile := fun he => hend (halike.kind.symm.trans he)
    obtain ⟨-, hgo⟩ := (Follows.statements (a := none) hg).follow hσ nofun h (.inl htail)
    obtain ⟨u', hrun, hu⟩ := hgo halike
    have htakes : Takes σ' s' (g'.statements { inBraces := false, itemsOnly := false }) :=
      .repeatWhile (.rowTurn hfirst rfl rfl hend')
    rw [htakes offset] at hrun
    obtain rfl := hrow.unique (row_of_repeatWhile hrun)
    have halike := (hu _ le_rfl).2
    exact ⟨halike.located, halike.report, halike.draft.children⟩

end Parse

/-! ### Whole texts -/

/-- Whether a block at the end of a text goes on is told by the first token of what follows. -/
theorem Excerpt.endsBlocks {E E₂ : Excerpt} {text : String}
    (htail : E.tail = '\n' :: E₂.text) (hfront : E₂.front = E.front ++ (E.text ++ ['\n']))
    (hlast : E₂.tail = []) (htext : text.toList = E₂.text)
    (h : (Session.start text).kind.continuesBlock = false) : E.EndsBlocks := by
  intro place hplace hend
  obtain ⟨scanner, hplaced, hacross⟩ := Parse.facing_across htail hfront hlast htext hplace hend
  rw [hacross]
  show scanner.kind.continuesBlock = false
  rw [hplaced.kind]
  exact h

theorem Grammar.sourceFile_eq_some {g : Grammar} {σ : Setting} {s t : Session} {r : Unit}
    (h : g.sourceFile σ s = some (r, t)) : ∃ u, consumeIf .shebang σ s = some ((), u) ∧
      g.statements { inBraces := false, itemsOnly := false } σ u = some ((), t) := by
  obtain ⟨_, u, hshebang, h⟩ := bind_eq_some.1 h
  obtain ⟨_, v, hrow, h⟩ := bind_eq_some.1 h
  obtain ⟨-, rfl⟩ := Prod.mk.inj (Option.some.inj ((flush_run σ v).symm.trans h))
  -- the comments at the end are in the draft already
  obtain ⟨w, hlast⟩ := repeatWhile_last hrow
  obtain ⟨-, rfl⟩ := Grammar.rowTurn_last hlast
  have hsame : (w.flushed σ).flushed σ = w.flushed σ := by
    unfold Session.flushed Session.comments
    dsimp only
    congr 1
    split
    · exact extend_nil _
    · rfl
  rw [hsame]
  exact ⟨u, hshebang, hrow⟩

/-- Where no line names an interpreter, none is read. -/
theorem Scanner.scan_ne_shebang {text : List Char} {s : Scanner} (hhere : s.here.In text)
    (h : shebang? s.here = none) : (s.scan contextual? .usual).kind ≠ .shebang := by
  have hsound := Trivia.skip_sound contextual? Lexeme.contextual_fits .usual false #[] hhere.2
  generalize ht : Trivia.skip contextual? .usual s.here.offset false #[] s.here.rest = t at hsound
  rw [scan_eq_scanPastTrivia hhere h, scanPastTrivia_eq (s := { s with leading := [] }) hhere ht,
    kind_markLineBreak]
  show (t.endless.getD (Lexeme.next contextual? Admitted.usual.withoutSuffix t.cursor.rest)).kind ≠ _
  cases hendless : t.endless with
  | some l =>
    -- a comment that does not end has a fault
    intro hk
    refine absurd ((hsound.endless l hendless).1.faultless ?_).1 (Trivia.endless_fault (ht ▸ hendless))
    rw [show l.kind = .shebang from hk]
    rfl
  | none =>
    have hconstant : Kind.shebang ∉ Lexeme.constantKinds := by decide +kernel
    intro hk
    rcases Lexeme.next_kind Admitted.usual.withoutSuffix t.cursor.rest with hmem | hmem
    · exact hconstant (hk ▸ hmem)
    · exact absurd (hk ▸ hmem) (by decide)

/-- The members of a text that names no interpreter are all there is. -/
theorem Setting.run_members {σ : Setting} {s : Session} (hrun : σ.run? = some s)
    (hplain : Scanner.shebang? { offset := 0, rest := σ.source.toList } = none) :
    (Grammar.upTo σ.nesting).statements { inBraces := false, itemsOnly := false } σ (.start σ.source) =
      some ((), s) := by
  obtain ⟨u, hshebang, hrow⟩ := Grammar.sourceFile_eq_some (Setting.run_eq_some hrun)
  have hskip : consumeIf .shebang σ (.start σ.source) = some ((), .start σ.source) := by
    refine bind_eq_some.2 ⟨false, _, ?_, rfl⟩
    rw [isAt_run, Session.isAt, beq_eq_false_iff_ne.2]
    exact Scanner.scan_ne_shebang (s := .ofText σ.source) ⟨rfl, Text.Place.start _⟩ hplain
  obtain rfl := (Prod.mk.inj (Option.some.inj (hskip.symm.trans hshebang))).2
  exact hrow

theorem Setting.Within.nesting_le {E : Excerpt} {σ σ' : Setting} (h : σ.Within E σ') :
    σ.nesting ≤ σ'.nesting := by
  have hturns := h.turns_le
  unfold Setting.turns at hturns
  unfold Setting.nesting
  omega

/-! ### Sorted diagnostics -/

theorem Diagnostic.sortKey_shift {k : Nat} {d : Diagnostic} (h : d.range.isSome = true) :
    (d.shift k).sortKey = d.sortKey + k := by
  obtain ⟨r, hr⟩ := Option.isSome_iff_exists.1 h
  simp [sortKey, shift, hr, Range.shift]

/-- Diagnostics are sorted apart from those of a place before them. -/
theorem Report.sortByPosition_behind {k : Nat} {front : List Diagnostic} {r r' : Report}
    (hreport : r'.toList = front ++ r.toList.map (Diagnostic.shift k))
    (hlocated : ∀ d ∈ r.toList, d.range.isSome = true) (hfront : ∀ d ∈ front, d.sortKey ≤ k) :
    r'.sortByPosition.toList = front.mergeSort (fun d e => d.sortKey ≤ e.sortKey) ++
      r.sortByPosition.toList.map (Diagnostic.shift k) := by
  have hkey (d : Diagnostic) (hd : d ∈ r.toList) : (d.shift k).sortKey = d.sortKey + k :=
    Diagnostic.sortKey_shift (hlocated d hd)
  have hmap : (r.sortByPosition.toList).map (Diagnostic.shift k) =
      (r.toList.map (Diagnostic.shift k)).mergeSort fun d e => d.sortKey ≤ e.sortKey := by
    refine List.map_mergeSort fun d hd e he => ?_
    rw [hkey d hd, hkey e he]
    simp
  have hsort : r'.sortByPosition.toList = r'.toList.mergeSort fun d e => d.sortKey ≤ e.sortKey := rfl
  rw [hmap, hsort, hreport]
  refine Diagnostic.mergeSort_append fun d hd e he => ?_
  obtain ⟨f, hf, rfl⟩ := List.mem_map.1 he
  rw [hkey f hf]
  exact Nat.le_trans (hfront d hd) (Nat.le_add_left _ _)

/-- **What is read at the end of the whole** is the tree of the text, some bytes later. -/
theorem Tree.of_continued {E : Excerpt} {pre : List Child} {σ σ' : Setting} {s s' v' : Session}
    (htail : E.tail = []) (hσ : σ.Within E σ')
    (hplain : Scanner.shebang? { offset := 0, rest := σ.source.toList } = none)
    (hrun : σ.run? = some s) (halike : (Session.start σ.source).Alike E pre (v'.endedAt E.shift))
    (hrow : Members (Grammar.upTo σ'.nesting) σ' v' s')
    (hfront : ∀ d ∈ E.reported, d.sortKey ≤ E.shift) :
    (s'.tree σ').root.children = pre ++ (s.tree σ).root.children.map (Child.shift E.shift) ∧
      (s'.tree σ').diagnostics = E.reported.mergeSort (fun d e => d.sortKey ≤ e.sortKey) ++
        (s.tree σ).diagnostics.map (Diagnostic.shift E.shift) := by
  obtain ⟨hlocated, hreport, hchildren⟩ := Row.continued htail (Grammar.upTo_tracks hσ.nesting_le)
    (Grammar.takesFirst_upTo _) hσ halike (Setting.run_members hrun hplain) hrow
  exact ⟨hchildren, Report.sortByPosition_behind hreport hlocated hfront⟩

end ConcreteSyntax
