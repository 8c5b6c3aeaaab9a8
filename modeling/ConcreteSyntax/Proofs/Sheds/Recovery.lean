import ConcreteSyntax.Proofs.Sheds.Intake

/-! # Recovery and lists without comments

What recovery skips and where a list goes on is the same with comments and without. The draft of what
a list has skipped is looked at: it holds nothing in both sessions before the first token is skipped,
and a token in both after it. -/

namespace ConcreteSyntax.Parse

variable {α α' β β' : Type} {P : Scanner → Prop} {T : Draft.Trait} {R : α → α' → Prop}

theorem Step.Rel.refl {ρ : Type} (step : Step α ρ) : Step.Rel Eq Eq step step := by
  cases step with
  | again => exact .again rfl
  | done => exact .done rfl

/-- A draft that takes a token holds more than comments. -/
theorem ShedsAt.consume {σ : Setting} {s : Session} {w : Twin} {K : Unit → Parse α}
    {K' : Unit → Parse α'} (hσ : σ.options.keepComments = true) (hs : s.Sheds .usual w)
    (hk : s.kind ≠ .endOfFile) (hK : Sheds Anywhere .filled R (K ()) (K' ())) :
    ShedsAt .filled R σ s w (Parse.consume >>= K) (Parse.consume >>= K') := by
  have htoken := Node.bares_ofToken s.scanner.token none
  have ht := hs.taken hσ .usual
  have hk' : (s.twin w).kind ≠ .endOfFile := hk
  exact .step (consume_run hk) (consume_run hk') (hK.follow hσ (ht.withDraft
    (ht.draft.pushChild htoken.sheds htoken.plain none)
    (Draft.Trait.filled_pushChild ht.trait htoken.plain none)) trivial)

namespace Sheds

/-! ### Groups and nesting -/

theorem skipNext {nesting : Nat} :
    Sheds P T (Step.Rel Eq Eq) (Parse.skipNext nesting) (Parse.skipNext nesting) :=
  .kind fun _ => .choose (.give (.done rfl)) (.bind .consume fun _ => .give (.refl _))

theorem skipGroup : Sheds P T Node.Bares Parse.skipGroup Parse.skipGroup :=
  .node rfl <| .kind fun _ => .choose (.pure _) (.loop (R := Eq) (fun _ _ h => h ▸ .skipNext) rfl)

theorem skipNested : Sheds P T Node.Bares Parse.skipNested Parse.skipNested :=
  .bind .reportLimit fun _ => .skipGroup

/-- One level deeper, or what is skipped instead. -/
theorem guardedBy {R : Node → Node → Prop} {body body' : Parse Node} (h : Sheds P T R body body')
    (hskip : Sheds P T R Parse.skipNested Parse.skipNested) :
    Sheds P T R (Parse.guarded body) (Parse.guarded body') := by
  refine ⟨fun {σ s w} hσ hs hP => ⟨fun hrun => ?_⟩⟩
  rw [guarded_eq] at hrun
  rw [guarded_eq]
  show ∃ r' w', (if σ.depth < σ.options.maxDepth then _ else _) = _ ∧ _
  split at hrun
  · next hdepth =>
    rw [if_pos hdepth]
    exact (h.follow (σ := { σ with depth := σ.depth + 1 }) hσ hs hP).run hrun
  · next hdepth =>
    rw [if_neg hdepth]
    exact (hskip.follow hσ hs hP).run hrun

theorem guarded {body body' : Parse Node} (h : Sheds P T Node.Bares body body') :
    Sheds P T Node.Bares (Parse.guarded body) (Parse.guarded body') :=
  .guardedBy h .skipNested

/-! ### Braces that were skipped -/

theorem countBrace {c : Kind} : Sheds P T Eq (Parse.countBrace c) (Parse.countBrace c) :=
  .choose (.tell (f := fun _ s => { s with openBraces := s.openBraces + 1 }) (fun _ _ _ => rfl)
    (fun _ _ => rfl) (fun _ _ => rfl) fun _ _ => rfl) (.pure _)

theorem absorbBrace : Sheds P T Eq Parse.absorbBrace Parse.absorbBrace :=
  .look (fun _ _ => rfl) fun _ _ => .choose
    (.bind (.tell (f := fun _ s => { s with openBraces := s.openBraces - 1 }) (fun _ _ _ => rfl)
      (fun _ _ => rfl) (fun _ _ => rfl) fun _ _ => rfl) fun _ =>
      .bind .note fun _ => .bind .consume fun _ => .pure _)
    (.pure _)

/-! ### Up to a terminator -/

theorem skipUntil {terminator : Kind} :
    Sheds P T Eq (Parse.skipUntil terminator) (Parse.skipUntil terminator) :=
  .kind fun _ => .choose (.pure _) (.bind .countBrace fun _ => .bind .consume fun _ => .pure _)

theorem recoverUntil {terminator : Kind} :
    Sheds P T Eq (Parse.recoverUntil terminator) (Parse.recoverUntil terminator) :=
  .bind .offset fun _ => .bind .note fun _ => .bind .reportUnexpected fun _ => .bind .flush fun _ =>
    .child (.node rfl (.repeatWhile .skipUntil))

/-! ### Delimiters -/

theorem reportUnclosed {opener closer : Kind} {range : Range} :
    Sheds P T Eq (Parse.reportUnclosed opener closer range)
      (Parse.reportUnclosed opener closer range) :=
  .isAt .reportAt .reportHere

theorem close {opener : Kind} {range : Range} :
    Sheds P T Eq (Parse.close opener range) (Parse.close opener range) :=
  .isAt .consume (.bind .reportUnclosed fun _ => .pushMissing)

theorem missingGroup {opener closer : Kind} :
    Sheds P T Eq (Parse.missingGroup opener closer) (Parse.missingGroup opener closer) :=
  .bind .reportHere fun _ => .bind .pushMissing fun _ => .pushMissing

/-! ### Lists -/

section Lists

variable {form : ListForm} {element element' : Parse Unit}

/-- Skipping goes on in a draft that is not empty. -/
theorem skipInList : Sheds P .filled Eq (Parse.skipInList form) (Parse.skipInList form) := by
  refine ⟨fun {σ s w} hσ hs hP => .step rfl rfl ?_⟩
  obtain ⟨hd, he⟩ := hs.draft.isEmpty_of_filled hs.trait
  show ShedsAt .filled Eq σ s w
    (if (s.isAt form.closer || form.breaksAt s.kind) = true then return false
      else if (!s.draft.isEmpty && form.starts s.kind) = true then return false
      else do
        Parse.countBrace s.kind
        Parse.consume
        return true)
    (if (s.isAt form.closer || form.breaksAt s.kind) = true then return false
      else if (!w.draft.isEmpty && form.starts s.kind) = true then return false
      else do
        Parse.countBrace s.kind
        Parse.consume
        return true)
  rw [hd, he]
  exact Sheds.follow (.choose (.pure _) (.choose (.pure _)
    (.bind .countBrace fun _ => .bind .consume fun _ => .pure _))) hσ hs hP

/-- The first token that is skipped, in a draft that holds nothing yet. -/
theorem skipInList_first {σ : Setting} {s : Session} {w : Twin}
    (hσ : σ.options.keepComments = true) (hs : s.Sheds .usual w) (hd : s.draft.isEmpty = true)
    (he : w.draft.isEmpty = true) (hgo : (s.isAt form.closer || form.breaksAt s.kind) = false) :
    ShedsAt .filled Eq σ s w (Parse.skipInList form) (Parse.skipInList form) := by
  have hend : s.kind ≠ .endOfFile := by
    intro hk
    simp [ListForm.breaksAt, hk] at hgo
  refine .step rfl rfl ?_
  show ShedsAt .filled Eq σ s w
    (if (s.isAt form.closer || form.breaksAt s.kind) = true then return false
      else if (!s.draft.isEmpty && form.starts s.kind) = true then return false
      else do
        Parse.countBrace s.kind
        Parse.consume
        return true)
    (if (s.isAt form.closer || form.breaksAt s.kind) = true then return false
      else if (!w.draft.isEmpty && form.starts s.kind) = true then return false
      else do
        Parse.countBrace s.kind
        Parse.consume
        return true)
  simp only [hgo, hd, he, Bool.not_true, Bool.false_and, Bool.false_eq_true, if_false]
  have hconsume (s : Session) (hs : s.Sheds .usual w) (hend : s.kind ≠ .endOfFile) :
      ShedsAt .filled Eq σ s w (do Parse.consume; return true) (do Parse.consume; return true) :=
    .consume hσ hs hend (.pure _)
  by_cases hb : (s.kind == .openBrace) = true
  · have hcount {σ : Setting} {s' : Session} : Parse.countBrace s.kind σ s' =
        some ((), { s' with openBraces := s'.openBraces + 1 }) := by
      unfold Parse.countBrace
      rw [if_pos hb]
      rfl
    exact .step hcount hcount (hconsume { s with openBraces := s.openBraces + 1 }
      ⟨hs.report, hs.draft, hs.trait, hs.comments⟩ hend)
  · have hcount {σ : Setting} {s' : Session} : Parse.countBrace s.kind σ s' = some ((), s') := by
      unfold Parse.countBrace
      rw [if_neg hb]
      rfl
    exact .step hcount hcount (hconsume s hs hend)

/-- What is skipped in a list: nothing in both sessions, or more than comments. -/
theorem skipped : Sheds P T (fun d d' => d.Bares d' ∧ d'.isEmpty = d.isEmpty)
    (Parse.collect (.ofKind .error) (Parse.repeatWhile (Parse.skipInList form)))
    (Parse.collect (.ofKind .error) (Parse.repeatWhile (Parse.skipInList form))) := by
  refine ⟨fun {σ s w} hσ hs hP => ⟨fun hrun => ?_⟩⟩
  obtain ⟨t, hbody, rfl, rfl⟩ := collect_eq_some.1 hrun
  have hnew : (s.withDraft (.ofKind .error)).Sheds .usual (w.withDraft (.ofKind .error)) :=
    hs.withDraft (.ofKind .error) (show Kind.error ≠ .macroInvocation by decide)
  cases hgo : s.isAt form.closer || form.breaksAt s.kind with
  | true =>
    -- nothing is skipped
    have hstop {σ : Setting} {u : Session} (hu : u.scanner = s.scanner) :
        Parse.repeatWhile (Parse.skipInList form) σ u = some ((), u) := by
      have hturn : Parse.skipInList form σ u = some (false, u) := by
        have hgo : (u.isAt form.closer || form.breaksAt u.kind) = true := by
          rw [Session.isAt, Session.kind, hu]
          exact hgo
        show (if (u.isAt form.closer || form.breaksAt u.kind) = true then _ else _ : Parse Bool) σ _ = _
        rw [if_pos hgo]
        rfl
      exact bind_eq_some.2 ⟨σ, _, rfl, bind_eq_some.2 ⟨_, _, rfl, bind_eq_some.2 ⟨.done (), _,
        bind_eq_some.2 ⟨false, _, hturn, rfl⟩, rfl⟩⟩⟩
    have hrest := (hstop (u := s.withDraft (.ofKind .error)) rfl).symm.trans hbody
    obtain ⟨-, rfl⟩ := Prod.mk.inj (Option.some.inj hrest)
    exact ⟨_, w, collect_eq_some.2 ⟨_, hstop rfl, rfl, rfl⟩, ⟨Draft.bares_ofKind rfl, rfl⟩, hs⟩
  | false =>
    have hloop : ShedsAt .filled Eq σ (s.withDraft (.ofKind .error)) (w.withDraft (.ofKind .error))
        (Parse.repeatWhile (Parse.skipInList form)) (Parse.repeatWhile (Parse.skipInList form)) :=
      repeatWhile_first hσ (skipInList_first hσ hnew rfl rfl hgo) .skipInList
    obtain ⟨_, w', hbody', -, ht⟩ := hloop.run hbody
    obtain ⟨hd, he⟩ := ht.draft.isEmpty_of_filled ht.trait
    exact ⟨w'.draft, w'.withDraft w.draft, collect_eq_some.2 ⟨_, hbody', rfl, rfl⟩,
      ⟨⟨ht.draft, ht.trait.1⟩, he.trans hd.symm⟩, ht.withDraft hs.draft hs.trait⟩

theorem placeSkipped {d d' : Draft} (hd : d.Bares d') (hempty : d'.isEmpty = d.isEmpty) :
    Sheds P T Eq (Parse.placeSkipped form d) (Parse.placeSkipped form d') := by
  unfold Parse.placeSkipped
  rw [hempty]
  refine .choose (.pure _) (.kind fun _ => .choose ?_ ?_)
  · exact .draw (.finish hd) fun _ _ h => .bind (.push h) fun _ => .pure _
  · exact .bind (change (fun _ _ h _ => h.extend hd.sheds.extras hd.sheds.children)
      fun _ ht => T.extend _ ht) fun _ => .pure _

theorem recoverInList : Sheds P T Eq (Parse.recoverInList form) (Parse.recoverInList form) :=
  .bind .offset fun _ => .bind .note fun _ => .bind .reportUnexpected fun _ =>
    .draw .skipped fun _ _ h => .placeSkipped h.1 h.2

theorem missingComma : Sheds P T Eq Parse.missingComma Parse.missingComma :=
  .bind .reportHere fun _ => .pushMissing

theorem afterElement {before : Nat} :
    Sheds P T Eq (Parse.afterElement form before) (Parse.afterElement form before) :=
  .look (fun _ _ => rfl) fun _ _ => .choose (.bind .consume fun _ => .pure _) (.choose (.pure _)
    (.choose (.pure _) (.bind (.provided .missingComma) fun _ => .pure _)))

theorem listElement (h : Sheds Anywhere T Eq element element') :
    Sheds P T Eq (Parse.listElement form element) (Parse.listElement form element') :=
  .bind .offset fun _ => .bind h fun _ => .afterElement

theorem listEntry (h : Sheds Anywhere T Eq element element') {c : Kind} :
    Sheds P T Eq (Parse.listEntry form element c) (Parse.listEntry form element' c) :=
  .choose (.test (.listElement h) (.pure _) .recoverInList) .recoverInList

theorem listTurn (h : Sheds Anywhere T Eq element element') :
    Sheds P T (Step.Rel Eq Eq) (Parse.listTurn form element) (Parse.listTurn form element') :=
  .bind .flush fun _ => .kind fun _ => .choose (.bind .consume fun _ => .give (.done rfl))
    (.choose (.give (.done rfl)) (.test (.listEntry h) (.give (.again rfl)) (.give (.done rfl))))

theorem listRest (h : Sheds Anywhere T Eq element element') :
    Sheds P T Eq (Parse.listRest form element) (Parse.listRest form element') :=
  .loop (R := Eq) (fun _ _ _ => .listTurn h) rfl

theorem list (h : Sheds Anywhere T Eq element element') :
    Sheds P T Eq (Parse.list form element) (Parse.list form element') :=
  .isAt (.bind .tokenRange fun _ => .bind .consume fun _ => .test (.listRest h) (.pure _)
    (.bind .note fun _ => .bind .reportAt fun _ => .failDraft)) .missingGroup

end Lists

/-! ### Literals -/

theorem consumeNumber {next : Admitted} :
    Sheds P T Eq (Parse.consumeNumber next) (Parse.consumeNumber next) := by
  refine .draw .take fun r r' h => ?_
  obtain rfl := h.eq
  cases r' with
  | none => exact .pure _
  | some n =>
    have hn := h.bares rfl
    exact .choose (.push hn) (.bind (.inheritError hn.sheds) fun _ => .unpack hn.sheds)

theorem number {kind : Kind} (hk : (kind == .macroInvocation) = false) :
    Sheds P T Node.Bares (Parse.number kind) (Parse.number kind) :=
  .node hk (.bind .consumeNumber fun _ => .consumeIf)

/-- A literal between quotes is read in pieces. -/
theorem quotedLiteral {c : Kind} (hc : c.isCompositeLiteral = true) (hP : ∀ s, P s → s.kind = c) :
    Sheds P T Node.Bares Parse.quotedLiteral Parse.quotedLiteral := by
  refine .draw .take fun r r' h => ?_
  obtain rfl := h.eq
  cases r' with
  | none => exact .missing
  | some n =>
    have hn := h.bares rfl
    have hk : (n.kind == .macroInvocation) = false := by
      rw [beq_eq_false_iff_ne]
      obtain ⟨s, hs, rfl⟩ := h.token n rfl
      rcases Node.ofToken_cases s.token none with ⟨kind, hkind, he⟩ | ⟨-, hplain⟩
      · rw [he]
        rintro (rfl : kind = .macroInvocation)
        exact Bool.false_ne_true hkind
      · rw [show s.token.kind = c from hP s hs, hc] at hplain
        exact absurd hplain (by decide)
    exact .isAt (.node hk (.bind (.inheritError hn.sheds) fun _ => .bind (.unpack hn.sheds) fun _ =>
      .consume)) (.give hn)

theorem literal : Sheds P T Node.Bares Parse.literal Parse.literal := by
  refine .bind .flush fun _ => .kind fun c => ?_
  split
  · exact .number rfl
  · exact .number rfl
  · exact .node rfl .consume
  · exact .node rfl .consume
  · exact .quotedLiteral rfl fun _ h => h.2
  · exact .quotedLiteral rfl fun _ h => h.2
  · exact .quotedLiteral rfl fun _ h => h.2
  · exact .bind .reportExpected fun _ => .missing

theorem negativeLiteral : Sheds P T Node.Bares Parse.negativeLiteral Parse.negativeLiteral :=
  .node rfl <| .bind .consume fun _ => .child .literal

theorem tupleIndex : Sheds P T Node.Bares Parse.tupleIndex Parse.tupleIndex := .node rfl .consumeNumber

theorem memberName {label : Field} :
    Sheds P T Eq (Parse.memberName label) (Parse.memberName label) :=
  .isAt (.field .literal) .consumeFieldAs

/-! ### Quoted names -/

theorem quotedName {kind : Kind} (hk : (kind == .macroInvocation) = false) :
    Sheds P T Node.Bares (Parse.quotedName kind) (Parse.quotedName kind) :=
  .node hk (.bind .expect fun _ => .kind fun _ => .choose .consumeAs (.choose .consume
    (.bind .reportExpected fun _ => .pushMissing)))

theorem lifetime : Sheds P T Node.Bares Parse.lifetime Parse.lifetime :=
  .bind .flush fun _ => .quotedName rfl

end Sheds

end ConcreteSyntax.Parse
