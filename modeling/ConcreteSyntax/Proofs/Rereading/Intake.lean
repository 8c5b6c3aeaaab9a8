import ConcreteSyntax.Grammar.Expression.Infix
import ConcreteSyntax.Grammar.TokenTree
import ConcreteSyntax.Proofs.Rereading.Rules

/-! # Tokens, lists and literals that are plain

A token becomes a plain node whatever it is read as, so it may be taken into any draft, and so may
the leaf that stands in for a token that is missing. Lists, errors and literals are plain as well. -/

namespace ConcreteSyntax

namespace Parse

/-- A kind under which a token may be read without becoming a node that is rebuilt. -/
def ReadPlain (as? : Option Kind) : Prop := ∀ kind ∈ as?, kind.isRejoined = false

theorem readPlain_none : ReadPlain none := ifAny_none

theorem readPlain_some {kind : Kind} (h : kind.isRejoined = false) : ReadPlain (some kind) :=
  ifAny_some h

namespace Composes

variable {α β : Type} {T : Mould}

/-! ### Tokens -/

/-- A token that was taken, and the comments before it. -/
theorem fills_taken {s : Session} (hs : s.Legible) (σ : Setting) (next : Admitted) :
    T.Fills s.draft (s.taken σ next).draft := by
  show T.Fills s.draft (if σ.options.keepComments then s.draft.extend s.comments else s.draft)
  split
  · exact .extendPlain hs.plain_comments
  · exact .refl _

theorem flush : Composes T Anything Parse.flush := by
  refine ⟨fun {σ s _ _} hs hrun => ?_⟩
  obtain ⟨-, rfl⟩ := Prod.mk.inj (Option.some.inj ((flush_run σ s).symm.trans hrun))
  -- the comments are moved as they are where the token is taken, too
  exact ⟨hs.flushed σ, fills_taken hs σ .usual, trivial⟩

theorem take {as? : Option Kind} {next : Admitted} (has : ReadPlain as?) :
    Composes T (IfAny Node.Plain) (Parse.take as? next) := by
  refine ⟨fun {σ _ _ _} hs hrun => ?_⟩
  rw [take_run] at hrun
  split at hrun
  · obtain ⟨rfl, rfl⟩ := Prod.mk.inj (Option.some.inj hrun)
    exact ⟨hs, .refl _, ifAny_none⟩
  · obtain ⟨rfl, rfl⟩ := Prod.mk.inj (Option.some.inj hrun)
    exact ⟨.taken _ σ next, fills_taken hs σ next, ifAny_some (Node.plain_ofToken hs.token has)⟩

/-- A token may be taken under any label. -/
theorem consumeWith {label : Option Field} {as? : Option Kind} {next : Admitted}
    (has : ReadPlain as?) : Composes T Anything (Parse.consumeWith label as? next) := by
  refine .draw (.take has) fun o ho => ?_
  cases o with
  | none => exact .pure _
  | some n => exact .pushPlain (ho n rfl)

theorem consume : Composes T Anything Parse.consume := .consumeWith readPlain_none

theorem consumeField {label : Field} : Composes T Anything (Parse.consumeField label) :=
  .consumeWith readPlain_none

theorem consumeAs {kind : Kind} (hk : kind.isRejoined = false) :
    Composes T Anything (Parse.consumeAs kind) :=
  .consumeWith (readPlain_some hk)

theorem consumeFieldAs {label : Field} {kind : Kind} (hk : kind.isRejoined = false) :
    Composes T Anything (Parse.consumeFieldAs label kind) :=
  .consumeWith (readPlain_some hk)

/-- A token that is cut down to its first part. -/
theorem split {first : Kind} (hk : first.isRejoined = false) :
    Composes T Anything (Parse.split first) := by
  refine ⟨fun hs hrun => ?_⟩
  obtain ⟨-, rfl⟩ := Prod.mk.inj (Option.some.inj hrun)
  exact ⟨Scanner.Legible.split hs hk, .refl _, trivial⟩

theorem operatorKind : Composes T Anything Parse.operatorKind := by
  refine ⟨fun hs hrun => ?_⟩
  obtain ⟨_, _, h₁, hrun⟩ := bind_eq_some.1 hrun
  obtain ⟨-, rfl⟩ := Prod.mk.inj (Option.some.inj h₁)
  obtain ⟨-, rfl⟩ := Prod.mk.inj (Option.some.inj hrun)
  exact ⟨Scanner.Legible.joinGreater hs, .refl _, trivial⟩

/-! ### What has to come next -/

theorem missing {kind : Kind} (hk : kind.isRejoined = false) :
    Composes T Node.Plain (Parse.missing kind) :=
  .look fun _ => .give (Node.plain_leaf hk _ _)

theorem pushMissing {kind : Kind} (hk : kind.isRejoined = false) :
    Composes T Anything (Parse.pushMissing kind) :=
  .draw (.missing hk) fun _ h => .pushPlain h

theorem pushMissingField {label : Field} {kind : Kind} (hk : kind.isRejoined = false) :
    Composes T Anything (Parse.pushMissingField label kind) :=
  .draw (.missing hk) fun _ h => .pushPlain h

/-- A leaf is rebuilt in no way. -/
theorem standIn {kind : Kind} (hk : kind.isRejoined = false) :
    Composes T Node.Rereadable (Parse.missing kind) :=
  .mono (.missing hk) fun _ h => h.rereadable

theorem plainLeaf {as? : Option Kind} (has : ReadPlain as?) :
    Composes T Node.Plain (Parse.leaf as?) := by
  refine .draw (.take has) fun o ho => ?_
  cases o with
  | none =>
    refine .missing ?_
    cases as? with
    | none => rfl
    | some kind => exact has kind rfl
  | some n => exact .give (ho n rfl)

theorem leaf {as? : Option Kind} (has : ReadPlain as?) :
    Composes T Node.Rereadable (Parse.leaf as?) :=
  .mono (.plainLeaf has) fun _ h => h.rereadable

theorem expect {kind : Kind} (hk : kind.isRejoined = false) :
    Composes T Anything (Parse.expect kind) :=
  .isAt .consume (.bind .reportHere fun _ => .pushMissing hk)

theorem provided {condition : Bool} {body : Parse Unit} (h : Composes T Anything body) :
    Composes T Anything (Parse.provided condition body) :=
  .choose h (.pure _)

theorem providedThat {m : Parse Bool} {body : Parse Unit} (hm : Composes T Anything m)
    (h : Composes T Anything body) : Composes T Anything (do Parse.provided (← m) body) :=
  .bind hm fun _ => .provided h

theorem ifAt {kind : Kind} {body : Parse Unit} (h : Composes T Anything body) :
    Composes T Anything (Parse.ifAt kind body) :=
  .isAt h (.pure _)

theorem consumeIf {kind : Kind} : Composes T Anything (Parse.consumeIf kind) := .ifAt .consume

theorem accept {kind : Kind} : Composes T Anything (Parse.accept kind) :=
  .isAt (.bind .consume fun _ => .pure _) (.pure _)

theorem expectName {label : Field} {kind : Kind} (hk : kind.isRejoined = false) :
    Composes T Anything (Parse.expectName label kind) := by
  refine .kind fun c => ?_
  split
  · exact .consumeFieldAs hk
  · exact .consumeField
  · exact .bind .reportExpected fun _ => .pushMissingField hk

theorem markOrName {mark : Kind} {label : Field} :
    Composes T Anything (Parse.markOrName mark label) :=
  .isAt .consumeField (.expectName rfl)

/-! ### Groups and nesting -/

theorem skipNext {nesting : Nat} :
    Composes T (Step.Ends Anything Anything) (Parse.skipNext nesting) := by
  have hends (b : Bool) (n : Nat) :
      Step.Ends Anything Anything (if b then .done () else .again n : Step Nat Unit) := by
    cases b <;> trivial
  exact .kind fun c => .choose (.give trivial) (.bind .consume fun _ => .give (hends _ _))

theorem skipGroup : Composes T Node.Rereadable Parse.skipGroup :=
  .node rfl <| .kind fun _ => .choose (.pure _) (.loop (fun _ _ => .skipNext) trivial)

theorem skipNested : Composes T Node.Rereadable Parse.skipNested :=
  .bind .reportLimit fun _ => .skipGroup

/-- One level deeper, or what is skipped instead. -/
theorem guarded {body : Parse Node} (h : Composes T Node.Rereadable body) :
    Composes T Node.Rereadable (Parse.guarded body) := by
  refine ⟨fun {σ s _ _} hs hrun => ?_⟩
  rw [guarded_eq] at hrun
  split at hrun
  · exact h.follow (σ := { σ with depth := σ.depth + 1 }) hs hrun
  · exact skipNested.follow hs hrun

/-! ### What is skipped -/

theorem countBrace {c : Kind} : Composes T Anything (Parse.countBrace c) :=
  .choose (.openBraces (· + 1)) (.pure _)

theorem absorbBrace : Composes T Anything Parse.absorbBrace :=
  .look fun _ => .choose (.bind (.openBraces (· - 1)) fun _ => .bind .note fun _ =>
    .bind .consume fun _ => .pure _) (.pure _)

theorem skipUntil {terminator : Kind} : Composes T Anything (Parse.skipUntil terminator) :=
  .kind fun _ => .choose (.pure _) (.bind .countBrace fun _ => .bind .consume fun _ => .pure _)

theorem recoverUntil {terminator : Kind} :
    Composes .plain Anything (Parse.recoverUntil terminator) :=
  .bind .offset fun _ => .bind .note fun _ => .bind .reportUnexpected fun _ => .bind .flush fun _ =>
    .child (.node rfl (.repeatWhile .skipUntil))

/-! ### Delimiters -/

theorem reportUnclosed {opener closer : Kind} {range : Range} :
    Composes T Anything (Parse.reportUnclosed opener closer range) :=
  .isAt .reportAt .reportHere

theorem isRejoined_closer {opener closer : Kind} (h : opener.closer? = some closer) :
    closer.isRejoined = false := by
  revert h
  cases opener <;> first | exact fun h => (Option.some.inj h) ▸ rfl | exact fun h => nomatch h

theorem close {opener : Kind} {range : Range} : Composes T Anything (Parse.close opener range) := by
  have hcloser : (opener.closer?.getD .closeParen).isRejoined = false := by
    cases h : opener.closer? with
    | none => rfl
    | some closer => exact isRejoined_closer h
  exact .isAt .consume (.bind .reportUnclosed fun _ => .pushMissing hcloser)

theorem missingGroup {opener closer : Kind} (ho : opener.isRejoined = false)
    (hc : closer.isRejoined = false) : Composes T Anything (Parse.missingGroup opener closer) :=
  .bind .reportHere fun _ => .bind (.pushMissing ho) fun _ => .pushMissing hc

/-! ### Lists -/

theorem pushAll {more : List Child} (h : ∀ c ∈ more, c.2.Rereadable) :
    Composes .plain Anything (Parse.pushAll more) :=
  change fun _ => .extend fun c hc => ⟨h c hc, Mould.takes_plain _ _⟩

section Lists

variable {form : ListForm} {element : Parse Unit}

theorem skipInList : Composes T Anything (Parse.skipInList form) :=
  .look fun _ => .choose (.pure _) (.choose (.pure _)
    (.bind .countBrace fun _ => .bind .consume fun _ => .pure _))

theorem placeSkipped {d : Draft} (h : d.Fits .plain) :
    Composes .plain Anything (Parse.placeSkipped form d) := by
  refine .choose (.pure _) (.kind fun _ => .choose ?_ ?_)
  · exact .draw (.finish h fun hT => absurd rfl hT) fun _ hn => .bind (.push hn) fun _ => .pure _
  · exact .bind (.pushAll h.rereadable) fun _ => .pure _

theorem recoverInList : Composes .plain Anything (Parse.recoverInList form) :=
  .bind .offset fun _ => .bind .note fun _ => .bind .reportUnexpected fun _ =>
    .draw (.collect (Draft.fits_plain rfl) (.repeatWhile .skipInList)) fun _ h => .placeSkipped h

theorem missingComma : Composes T Anything Parse.missingComma :=
  .bind .reportHere fun _ => .pushMissing rfl

theorem afterElement {before : Nat} : Composes T Anything (Parse.afterElement form before) :=
  .look fun _ => .choose (.bind .consume fun _ => .pure _) (.choose (.pure _)
    (.choose (.pure _) (.bind (.provided .missingComma) fun _ => .pure _)))

theorem listElement (h : Composes .plain Anything element) :
    Composes .plain Anything (Parse.listElement form element) :=
  .bind .offset fun _ => .bind h fun _ => .afterElement

theorem listEntry (h : Composes .plain Anything element) {c : Kind} :
    Composes .plain Anything (Parse.listEntry form element c) :=
  .choose (.test (.listElement h) (.pure _) .recoverInList) .recoverInList

theorem listTurn (h : Composes .plain Anything element) :
    Composes .plain (Step.Ends Anything Anything) (Parse.listTurn form element) :=
  .bind .flush fun _ => .kind fun _ => .choose (.bind .consume fun _ => .give trivial)
    (.choose (.give trivial) (.test (.listEntry h) (.give trivial) (.give trivial)))

/-- The elements of a list, and what becomes of a list that never closes. -/
theorem listRest (h : Composes .plain Anything element) {range : Range} :
    Composes .plain Anything (do
      unless ← Parse.listRest form element do
        Parse.note (.unclosedList form.opener range.start)
        Parse.reportAt range .unclosed [form.opener.name]
        Parse.failDraft) :=
  .test (.loop (fun _ _ => .listTurn h) trivial) (.pure _)
    (.bind .note fun _ => .bind .reportAt fun _ => .failDraft)

theorem list (ho : form.opener.isRejoined = false) (hc : form.closer.isRejoined = false)
    (h : Composes .plain Anything element) : Composes .plain Anything (Parse.list form element) :=
  .isAt (.tokenRange fun _ => .bind .consume fun _ => .listRest h) (.missingGroup ho hc)

end Lists

/-! ### Literals -/

theorem inheritError {n : Node} : Composes .plain Anything (Parse.inheritError n) :=
  change fun _ => .addFlags _

/-- The pieces of a token. -/
theorem unpack {n : Node} (h : n.Plain) : Composes .plain Anything (Parse.pushAll n.children) :=
  .pushAll h.rereadable.children

theorem consumeNumber {next : Admitted} : Composes .plain Anything (Parse.consumeNumber next) := by
  refine .draw (.take readPlain_none) fun o ho => ?_
  cases o with
  | none => exact .pure _
  | some n =>
    have hplain := ho n rfl
    exact .choose (.push hplain.rereadable) (.bind .inheritError fun _ => .unpack hplain)

theorem number {kind : Kind} (hk : kind.isRejoined = false) :
    Composes T Node.Rereadable (Parse.number kind) :=
  .node hk (.bind .consumeNumber fun _ => .consumeIf)

theorem quotedLiteral : Composes T Node.Rereadable Parse.quotedLiteral := by
  refine .draw (.take readPlain_none) fun o ho => ?_
  cases o with
  | none => exact .standIn rfl
  | some n =>
    have hplain := ho n rfl
    refine .isAt (.node hplain.kind ?_) (.give hplain.rereadable)
    exact .bind .inheritError fun _ => .bind (.unpack hplain) fun _ => .consume

theorem literal : Composes T Node.Rereadable Parse.literal := by
  refine .bind .flush fun _ => .kind fun c => ?_
  split
  · exact .number rfl
  · exact .number rfl
  · exact .node rfl .consume
  · exact .node rfl .consume
  · exact .quotedLiteral
  · exact .quotedLiteral
  · exact .quotedLiteral
  · exact .bind .reportExpected fun _ => .standIn rfl

theorem negativeLiteral : Composes T Node.Rereadable Parse.negativeLiteral :=
  .node rfl <| .bind .consume fun _ => .child .literal

theorem tupleIndex : Composes T Node.Rereadable Parse.tupleIndex := .node rfl .consumeNumber

theorem memberName {label : Field} : Composes .plain Anything (Parse.memberName label) :=
  .isAt (.field .literal) (.consumeFieldAs rfl)

/-! ### Quoted names -/

theorem quotedName {kind : Kind} (hk : kind.isRejoined = false) :
    Composes T Node.Rereadable (Parse.quotedName kind) :=
  .node hk (.bind (.expect rfl) fun _ => .kind fun _ => .choose (.consumeAs rfl) (.choose .consume
    (.bind .reportExpected fun _ => .pushMissing rfl)))

theorem lifetime : Composes T Node.Rereadable Parse.lifetime :=
  .bind .flush fun _ => .quotedName rfl

end Composes

end Parse

end ConcreteSyntax
