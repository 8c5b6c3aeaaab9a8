import ConcreteSyntax.Proofs.Sheds.Rules

/-! # Taking tokens in without comments

The comments before a token go to the draft of the session that keeps them, and to none in the other.
Where the grammar looks at a draft or at a group of tokens, it finds the same in both: what recovery
has skipped holds more than comments as soon as it holds anything, and a group that is read right
after the comments before it begins with its opener. -/

namespace ConcreteSyntax

/-! ### Marks that are cut or joined -/

theorem Scanner.leading_split (s : Scanner) (first : Kind) : (s.split first).leading = s.leading :=
  (apply_ite Scanner.leading _ _ _).trans (ite_self s.leading)

theorem Scanner.leading_joinGreater (s : Scanner) : s.joinGreater.leading = s.leading := by
  unfold Scanner.joinGreater
  split
  · rfl
  · split <;> rfl

namespace Parse

variable {α α' β β' : Type} {P : Scanner → Prop} {T : Draft.Trait} {R : α → α' → Prop}

/-- A token that was taken where the scanner is as `P` says, or none. -/
structure Taken (P : Scanner → Prop) (as? : Option Kind) (r r' : Option Node) : Prop where
  eq : r' = r
  token : ∀ n ∈ r, ∃ s : Scanner, P s ∧ n = .ofToken s.token as?

theorem Taken.bares {as? : Option Kind} {r r' : Option Node} (h : Taken P as? r r') {n : Node}
    (hn : n ∈ r) : n.Bares n := by
  obtain ⟨s, -, rfl⟩ := h.token n hn
  exact Node.bares_ofToken _ _

namespace Sheds

/-! ### Tokens -/

theorem flush : Sheds P T Eq Parse.flush Parse.flush := by
  refine ⟨fun {σ s w} hσ hs _ => ⟨fun hrun => ?_⟩⟩
  obtain ⟨rfl, rfl⟩ := Prod.mk.inj (Option.some.inj ((flush_run σ s).symm.trans hrun))
  exact ⟨(), w, flush_run _ _, rfl, hs.flushed hσ⟩

/-- No comment is left before the token. -/
theorem afterFlush {K : Unit → Parse α} {K' : Unit → Parse α'}
    (h : Sheds (fun s => s.leading = []) T R (K ()) (K' ())) :
    Sheds P T R (Parse.flush >>= K) (Parse.flush >>= K') :=
  ⟨fun {σ s _} hσ hs _ =>
    .step (flush_run σ s) (flush_run _ _) (h.follow hσ (hs.flushed hσ) rfl)⟩

theorem take {as? : Option Kind} {next : Admitted} :
    Sheds P T (Taken P as?) (Parse.take as? next) (Parse.take as? next) := by
  refine ⟨fun {σ s w} hσ hs hP => ⟨fun hrun => ?_⟩⟩
  rw [take_run] at hrun
  split at hrun
  · next hk =>
    obtain ⟨rfl, rfl⟩ := Prod.mk.inj (Option.some.inj hrun)
    exact ⟨none, w, (take_run _ _ _ _).trans (if_pos hk), ⟨rfl, nofun⟩, hs⟩
  · next hk =>
    obtain ⟨rfl, rfl⟩ := Prod.mk.inj (Option.some.inj hrun)
    refine ⟨_, s.takenTwin σ w, (take_run _ _ _ _).trans (if_neg hk), ⟨rfl, fun n hn => ?_⟩,
      hs.taken hσ next⟩
    exact ⟨s.scanner, hP, (Option.some.inj hn).symm⟩

theorem consumeWith {label : Option Field} {as? : Option Kind} {next : Admitted} :
    Sheds P T Eq (Parse.consumeWith label as? next) (Parse.consumeWith label as? next) := by
  refine .draw .take fun r r' h => ?_
  obtain rfl := h.eq
  cases r' with
  | none => exact .pure _
  | some n =>
    have hn := h.bares rfl
    cases label with
    | none => exact .push hn
    | some label => exact .pushField hn

theorem consume : Sheds P T Eq Parse.consume Parse.consume := .consumeWith

theorem consumeField {label : Field} :
    Sheds P T Eq (Parse.consumeField label) (Parse.consumeField label) := .consumeWith

theorem consumeAs {kind : Kind} : Sheds P T Eq (Parse.consumeAs kind) (Parse.consumeAs kind) :=
  .consumeWith

theorem consumeFieldAs {label : Field} {kind : Kind} :
    Sheds P T Eq (Parse.consumeFieldAs label kind) (Parse.consumeFieldAs label kind) := .consumeWith

theorem split {first : Kind} : Sheds P T Eq (Parse.split first) (Parse.split first) :=
  tell (f := fun _ s => { s with scanner := s.scanner.split first }) (fun _ _ _ => rfl)
    (fun _ _ => rfl) (fun _ _ => rfl) fun _ s => Scanner.leading_split s.scanner first

theorem operatorKind : Sheds P T Eq Parse.operatorKind Parse.operatorKind := by
  refine .bind ?_ fun _ => .ask (f := fun _ s => s.kind) fun _ _ _ => rfl
  exact tell (f := fun _ s => { s with scanner := s.scanner.joinGreater }) (fun _ _ _ => rfl)
    (fun _ _ => rfl) (fun _ _ => rfl) fun _ s => s.scanner.leading_joinGreater

/-! ### What has to come next -/

theorem missing {kind : Kind} : Sheds P T Node.Bares (Parse.missing kind) (Parse.missing kind) :=
  .look (fun _ _ => rfl) fun _ _ => .give (Node.bares_leaf rfl)

theorem pushMissing {kind : Kind} :
    Sheds P T Eq (Parse.pushMissing kind) (Parse.pushMissing kind) :=
  .draw .missing fun _ _ h => .push h

theorem pushMissingField {label : Field} {kind : Kind} :
    Sheds P T Eq (Parse.pushMissingField label kind) (Parse.pushMissingField label kind) :=
  .draw .missing fun _ _ h => .pushField h

theorem leaf {as? : Option Kind} : Sheds P T Node.Bares (Parse.leaf as?) (Parse.leaf as?) := by
  refine .draw .take fun r r' h => ?_
  obtain rfl := h.eq
  cases r' with
  | none => exact .missing
  | some n => exact .give (h.bares rfl)

theorem expect {kind : Kind} : Sheds P T Eq (Parse.expect kind) (Parse.expect kind) :=
  .isAt .consume (.bind .reportHere fun _ => .pushMissing)

theorem provided {condition : Bool} {body body' : Parse Unit} (h : Sheds P T Eq body body') :
    Sheds P T Eq (Parse.provided condition body) (Parse.provided condition body') :=
  .choose h (.pure _)

theorem providedThat {m m' : Parse Bool} {body body' : Parse Unit} (hm : Sheds P T Eq m m')
    (h : Sheds Anywhere T Eq body body') :
    Sheds P T Eq (do Parse.provided (← m) body) (do Parse.provided (← m') body') :=
  .bind hm fun _ => .provided h

theorem ifAt {kind : Kind} {body body' : Parse Unit} (h : Sheds Anywhere T Eq body body') :
    Sheds P T Eq (Parse.ifAt kind body) (Parse.ifAt kind body') :=
  .isAt h.anywhere (.pure _)

theorem consumeIf {kind : Kind} : Sheds P T Eq (Parse.consumeIf kind) (Parse.consumeIf kind) :=
  .ifAt .consume

theorem accept {kind : Kind} : Sheds P T Eq (Parse.accept kind) (Parse.accept kind) :=
  .isAt (.bind .consume fun _ => .pure _) (.pure _)

theorem expectName {label : Field} {kind : Kind} :
    Sheds P T Eq (Parse.expectName label kind) (Parse.expectName label kind) := by
  refine .kind fun c => ?_
  split
  · exact .consumeFieldAs
  · exact .consumeField
  · exact .bind .reportExpected fun _ => .pushMissingField

theorem markOrName {mark : Kind} {label : Field} :
    Sheds P T Eq (Parse.markOrName mark label) (Parse.markOrName mark label) :=
  .isAt .consumeField .expectName

/-! ### Speculation -/

/-- Going back to where a reading began. -/
theorem decline {before : Session} {w : Twin} (h : before.Sheds T w) {ambiguity : Ambiguity} :
    Sheds P T Eq (Parse.decline before ambiguity) (Parse.decline (before.twin w) ambiguity) := by
  refine ⟨fun _ _ _ => ⟨fun hrun => ?_⟩⟩
  obtain ⟨rfl, rfl⟩ := Prod.mk.inj (Option.some.inj hrun)
  exact ⟨(), w, rfl, rfl, h.report, h.draft, h.trait, h.comments⟩

/-- The preferred reading is kept in both sessions or in none: it reports as much in both. -/
theorem settled {before : Session} {w : Twin} (h : before.Sheds T w) {ambiguity : Ambiguity}
    {v : α} {v' : α'} (hv : R v v') :
    Sheds P T (Option.Rel R)
      (do
        if (← get).report.size == before.report.size then
          Parse.note (.preferred ambiguity before.offset)
          return some v
        else
          Parse.decline before ambiguity
          return none)
      (do
        if (← get).report.size == (before.twin w).report.size then
          Parse.note (.preferred ambiguity before.offset)
          return some v'
        else
          Parse.decline (before.twin w) ambiguity
          return none) := by
  refine ⟨fun {σ s u} hσ hs hP => .step rfl rfl ?_⟩
  have hsize : (s.twin u).report.size = s.report.size := hs.size
  have hsize' : (before.twin w).report.size = before.report.size := h.size
  rw [hsize, hsize']
  exact Sheds.follow (.choose (.bind .note fun _ => .give (.some hv))
    (.bind (.decline h) fun _ => .give .none)) hσ hs hP

theorem speculate {ambiguity : Ambiguity} {m : Parse (Option α)} {m' : Parse (Option α')}
    (h : Sheds Anywhere T (Option.Rel R) m m') :
    Sheds P T (Option.Rel R) (Parse.speculate ambiguity m) (Parse.speculate ambiguity m') := by
  refine ⟨fun {σ s w} hσ hs hP => .step rfl rfl (Sheds.follow (P := Anywhere) ?_ hσ hs trivial)⟩
  refine .setting (fun _ => rfl) fun σ => .choose (.give .none) (.draw h fun r r' hr => ?_)
  cases hr with
  | some hv => exact .settled hs hv
  | none => exact .bind (.decline hs) fun _ => .give .none

end Sheds

end Parse

end ConcreteSyntax
