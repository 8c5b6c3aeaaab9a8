import ConcreteSyntax.Grammar.Attribute
import ConcreteSyntax.Proofs.Shelters.Intake
import ConcreteSyntax.Proofs.Reading.Rules

/-! # Paths, token trees and attributes that shelter literals

The productions of simple paths, token trees and attributes shelter literals, if the nonterminals inside
them do (`Grammar.Shelters`). None of them leaves one exposed, whatever the place: the value of an
attribute stands between its brackets. -/

namespace ConcreteSyntax

open Parse

/-- A nonterminal that may be a path before the fields of a literal, or begin with one. -/
def Nonterminal.mayExpose : Nonterminal → Bool
  | .expression _ | .operand | .innerReference | .blockLike => true
  | _ => false

/-- A grammar whose nonterminals shelter literals. The expressions leave some exposed where the place
lets them. -/
structure Grammar.Shelters (text : List Char) (g : Grammar) : Prop where
  parse {a : Option Kind} {p : Pledge} {T : Frame} {nonterminal : Nonterminal}
    (h : nonterminal.mayExpose = false) :
    Parse.Shelters text a p T (Node.Fine p) (g.parse nonterminal)
  expression {a : Option Kind} {p : Pledge} {T : Frame} {nonterminal : Nonterminal}
    (hp : p ≠ .nowhere) : Parse.Shelters text a p T (Node.Fine p) (g.parse nonterminal)

/-! ### Nodes and drafts that are changed -/

namespace Node.Fine

variable {p : Pledge} {n : Node}

/-- Only whether a pledge binds counts for a node. -/
theorem of_binds {p' : Pledge} (h : n.Fine p') (hb : p.Binds → p'.Binds) : n.Fine p :=
  ⟨h.sheltered, fun hp => h.exposes (hb hp)⟩

theorem withFlags (h : n.Fine p) {flags : NodeFlags} : (n.withFlags flags).Fine p :=
  ⟨sheltered_withFlags h.sheltered, fun hp he => h.exposes hp (exposes_withFlags.1 he)⟩

theorem withKind (h : n.Fine p) {kind : Kind} (hk : kind.isHeadless = true) :
    (n.withKind kind).Fine p :=
  ⟨sheltered_withKind h.sheltered (Kind.headLabel?_of_isHeadless hk),
    fun hp he => h.exposes hp (exposes_of_withKind he (Kind.ne_of_isHeadless hk))⟩

theorem asType (h : n.Fine p) : n.asType.Fine p :=
  ⟨lasting_sheltered.asType h.sheltered, fun hp he => h.exposes hp (exposes_of_asType n he)⟩

theorem asPath (h : n.Fine p) : n.asPath.Fine p :=
  ⟨lasting_sheltered.asPath h.sheltered, fun hp he => h.exposes hp (exposes_of_asPath n he)⟩

theorem asLetChain (h : n.Fine p) : n.asLetChain.Fine p :=
  ⟨lasting_sheltered.asLetChain h.sheltered, fun hp he => h.exposes hp (exposes_of_asLetChain he)⟩

end Node.Fine

theorem Draft.Fine.setKind {p : Pledge} {d : Draft} (h : d.Fine p) {kind : Kind}
    (hk : kind ≠ .structExpression) : (d.setKind kind).Fine p :=
  ⟨h.sheltered, h.heads, fun hp he => h.exposes hp (.inr (he.resolve_left hk))⟩

namespace Parse.Shelters

variable {text : List Char} {a : Option Kind} {p : Pledge} {T : Frame} {g : Grammar}

/-! ### Paths -/

theorem segment {kind : Kind} (hk : kind.isHeadless = true) :
    Shelters text a p T (Node.Fine p) (Parse.segment kind) := by
  refine .kind fun c => ?_
  split
  all_goals first
    | exact .leaf (plainAs_some hk)
    | exact .leaf nofun
    | exact .bind .reportExpected fun _ => .missing hk

theorem scopeAfter {n : Node} (h : n.Fine p) :
    Shelters text a p T (Draft.Fine p) (Parse.scopeAfter n) :=
  .collect (Draft.fine_ofKind (by decide)) <| .bind (.pushField h rfl) fun _ => .expect rfl

theorem globalScope : Shelters text a p T (Draft.Fine p) Parse.globalScope :=
  .collect (Draft.fine_ofKind (by decide)) .consume

theorem segmentIn {scope : Option Draft} (h : IfAny (Draft.Fine p) scope) {kind : Kind}
    (hk : kind.isHeadless = true) :
    Shelters text a p T (Node.Fine p) (Parse.segmentIn scope kind) := by
  cases scope with
  | some scope => exact .resume (h scope rfl) (.field rfl (.segment hk))
  | none => exact .segment hk

theorem globalScopeIf : Shelters text a p T (IfAny (Draft.Fine p)) Parse.globalScopeIf :=
  .isAt (.draw .globalScope fun _ h => .give (ifAny_some h)) (.give ifAny_none)

theorem simplePath : Shelters text a p T (Node.Fine p) Parse.simplePath := by
  refine .bind .flush fun _ => .draw .globalScopeIf fun _ h => .draw (.segmentIn h rfl) fun _ h => ?_
  refine .loop (P := Node.Fine p) (fun path h => ?_) h
  refine .look fun s => .choose ?_ (.give h)
  exact .draw (.scopeAfter h) fun _ h => .draw (.segmentIn (ifAny_some h) rfl) fun _ h => .give h

/-! ### Token trees -/

theorem binding : Shelters text a p T (Node.Fine p) Grammar.binding := by
  refine .node rfl <| .bind .consumeField fun _ => .bind .consume fun _ => .kind fun _ =>
    .choose ?_ ?_
  · refine .bind .tokenText fun word => .choose (.consumeFieldAs rfl) ?_
    exact .bind .reportHere fun _ => .draw (.leaf (plainAs_some rfl)) fun _ h =>
      .pushField h.withFlags rfl
  · exact .bind .reportExpected fun _ => .pushMissingField rfl

theorem treeElement (hg : g.Shelters text) {form : TreeForm} {s : Session} :
    Shelters text a p T Anything (g.treeElement form s) := by
  unfold Grammar.treeElement
  split
  · exact .child (hg.parse rfl)
  · exact .child (hg.parse rfl)
  · exact .child (hg.parse rfl)
  · exact .choose (.child (hg.parse rfl)) .consume
  · exact .choose (.child .binding) .consume
  · exact .choose (.child .lifetime) .consume
  · exact .choose (.child .literal) .consume

theorem treeContents (hg : g.Shelters text) {form : TreeForm} :
    Shelters text a p T Anything (g.treeContents form) :=
  .repeatWhile <| .bind .flush fun _ => .look fun _ => .choose (.pure _)
    (.bind (.treeElement hg) fun _ => .pure _)

theorem reportInPlace {opener closer c : Kind} {range : Range} :
    Shelters text a p T Anything (Grammar.reportInPlace opener closer range c) :=
  .choose .reportAt .reportHere

theorem treeCloser {opener closer : Kind} (hc : closer.isHeadless = true) {range : Range} :
    Shelters text a p T Anything (Grammar.treeCloser opener closer range) :=
  .kind fun _ => .choose (.bind .consume fun _ => .pure _)
    (.bind .reportInPlace fun _ => .bind (.pushMissing hc) fun _ => .pure _)

theorem isHeadless_of_closer {opener closer : Kind} (h : opener.closer? = some closer) :
    closer.isHeadless = true := by
  revert h
  cases opener <;> first | exact fun h => (Option.some.inj h) ▸ rfl | exact fun h => nomatch h

theorem delimitedTree (hg : g.Shelters text) {form : TreeForm} :
    Shelters text a p T (Node.Fine p) (g.delimitedTree form) := by
  refine .node (by cases form <;> rfl) <| .kind fun c => ?_
  split
  · exact .bind .reportExpected fun _ => .bind (.pushMissing rfl) fun _ => .pushMissing rfl
  · next closer hcloser =>
    refine .tokenRange fun _ => .bind .consume fun _ => .bind (.treeContents hg) fun _ => ?_
    exact .bind (.treeCloser (isHeadless_of_closer hcloser)) fun _ => .pure _

theorem tokenTree (hg : g.Shelters text) {form : TreeForm} :
    Shelters text a p T (Node.Fine p) (g.tokenTree form) :=
  .bind .flush fun _ => .guarded (.delimitedTree hg)

theorem repetitionMark : Shelters text a p T Anything Grammar.repetitionMark :=
  .kind fun _ => .bind (.provided .consume) fun _ => .kind fun _ => .choose .consume
    (.bind .reportHere fun _ => .pushMissing rfl)

theorem repetition (hg : g.Shelters text) {form : TreeForm} :
    Shelters text a p T (Node.Fine p) (g.repetition form) :=
  .node (by cases form <;> rfl) <| .bind .consume fun _ => .tokenRange fun _ =>
    .bind .consume fun _ => .bind (.treeContents hg) fun _ =>
    .test (.treeCloser rfl) .repetitionMark (.pure _)

theorem macroCall (hg : g.Shelters text) {path : Node} (h : path.Fine p) :
    Shelters text a p T (Node.Fine p) (g.macroCall path) :=
  .node rfl <| .bind (.pushField h rfl) fun _ => .bind (.expect rfl) fun _ => .child (hg.parse rfl)

/-! ### Attributes and visibility -/

/-- What stands between the brackets of an attribute may be any expression. -/
theorem attributeBody (hg : g.Shelters text) :
    Shelters text a .anywhere T (Node.Fine .anywhere) g.attributeBody :=
  .bind .flush fun _ => .node rfl <| .bind (.child .simplePath) fun _ => .kind fun _ =>
    .choose (.bind .consume fun _ => .field rfl (.released (hg.expression nofun)))
      (.choose (.field rfl (hg.parse rfl)) (.pure _))

theorem attributeItem (hg : g.Shelters text) :
    Shelters text a p T (Node.Fine p) g.attributeItem :=
  .bind .flush fun _ => .node rfl <| .bind .consume fun _ =>
    .bind (.ifAt (.bind (.setKind rfl) fun _ => .consume)) fun _ =>
    .isAt (.tokenRange fun _ => .enclosed rfl <| .bind (.child (.attributeBody hg)) fun _ => .close)
      (.expect rfl)

theorem attributes (hg : g.Shelters text) : Shelters text a p T Anything g.attributes :=
  .repeatWhile <| .isAt (.bind (.child (.attributeItem hg)) fun _ => .pure _) (.pure _)

theorem visibilityScope : Shelters text a p T Anything Parse.visibilityScope :=
  .isAt (.bind .consume fun _ => .child .simplePath) .consume

theorem visibility : Shelters text a p T (Node.Fine p) Parse.visibility :=
  .bind .flush fun _ => .node rfl <| .bind .consume fun _ => .look fun _ =>
    .choose (.choose (.bind .settle fun _ => .bind .consume fun _ => .bind .visibilityScope fun _ =>
      .expect rfl) .settle) (.pure _)

theorem visibilityIf : Shelters text a p T Anything Parse.visibilityIf :=
  .ifAt (.child .visibility)

end Parse.Shelters

end ConcreteSyntax
