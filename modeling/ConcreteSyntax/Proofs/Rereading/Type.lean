import ConcreteSyntax.Grammar.Attribute
import ConcreteSyntax.Proofs.Rereading.Intake
import ConcreteSyntax.Grammar.Pattern

/-! # Paths, types and patterns that are composed

A scope that is open stands in the mould of a path from its `::` on, and becomes a node with the
last name of the path. The productions of simple paths, token trees, attributes, generics, signatures,
types, paths of values and patterns compose nodes that may be read again, if the nonterminals inside
them do (`Grammar.Composes`). A path with arguments begins with the path that they belong to, and the
path of a type is read in the mould of any path. -/

namespace ConcreteSyntax

open Parse

/-- A grammar whose nonterminals compose nodes that may be read again. -/
structure Grammar.Composes (g : Grammar) : Prop where
  parse {T : Mould} {nonterminal : Nonterminal} :
    Parse.Composes T Node.Rereadable (g.parse nonterminal)

namespace Parse.Composes

variable {T : Mould} {g : Grammar}

/-! ### Paths -/

theorem segment {kind : Kind} (hk : kind.isRejoined = false) :
    Composes T Node.Rereadable (Parse.segment kind) := by
  refine .kind fun c => ?_
  split
  all_goals first
    | exact .leaf (readPlain_some hk)
    | exact .leaf readPlain_none
    | exact .bind .reportExpected fun _ => .standIn hk

theorem fits_scope : (Draft.ofKind .scopedIdentifier).Fits .path :=
  Draft.fits_ofKind ⟨nofun, nofun, nofun, rfl⟩

theorem scopeAfter {n : Node} (h : n.Rereadable) :
    Composes T (Draft.Fits .path) (Parse.scopeAfter n) :=
  .collect fits_scope <| .bind (.pushChild h rfl) fun _ => .expect rfl

theorem globalScope : Composes T (Draft.Fits .path) Parse.globalScope :=
  .collect fits_scope .consume

theorem segmentIn {scope : Option Draft} (h : IfAny (Draft.Fits .path) scope) {kind : Kind}
    (hk : kind.isRejoined = false) : Composes T Node.Rereadable (Parse.segmentIn scope kind) := by
  cases scope with
  | some scope => exact .finishPath (h scope rfl) (.segment hk)
  | none => exact .segment hk

theorem globalScopeIf : Composes T (IfAny (Draft.Fits .path)) Parse.globalScopeIf :=
  .isAt (.draw .globalScope fun _ h => .give (ifAny_some h)) (.give ifAny_none)

theorem simplePath : Composes T Node.Rereadable Parse.simplePath := by
  refine .bind .flush fun _ => .draw .globalScopeIf fun _ h =>
    .draw (.segmentIn h rfl) fun _ h => ?_
  refine .loop (P := Node.Rereadable) (fun path h => ?_) h
  refine .look fun s => .choose ?_ (.give h)
  exact .draw (.scopeAfter h) fun _ h => .draw (.segmentIn (ifAny_some h) rfl) fun _ h => .give h

/-! ### Token trees -/

theorem binding : Composes T Node.Rereadable Grammar.binding := by
  refine .node rfl <| .bind .consumeField fun _ => .bind .consume fun _ => .kind fun _ =>
    .choose ?_ ?_
  · refine .bind .tokenText fun word => .choose (.consumeFieldAs rfl) ?_
    exact .bind .reportHere fun _ => .draw (.plainLeaf (readPlain_some rfl)) fun _ h =>
      .pushField (h.withFlags _).rereadable
  · exact .bind .reportExpected fun _ => .pushMissingField rfl

theorem treeElement (hg : g.Composes) {form : TreeForm} {s : Session} :
    Composes .plain Anything (g.treeElement form s) := by
  unfold Grammar.treeElement
  split
  · exact .child hg.parse
  · exact .child hg.parse
  · exact .child hg.parse
  · exact .choose (.child hg.parse) .consume
  · exact .choose (.child .binding) .consume
  · exact .choose (.child .lifetime) .consume
  · exact .choose (.child .literal) .consume

theorem treeContents (hg : g.Composes) {form : TreeForm} :
    Composes .plain Anything (g.treeContents form) :=
  .repeatWhile <| .bind .flush fun _ => .look fun _ => .choose (.pure _)
    (.bind (.treeElement hg) fun _ => .pure _)

theorem reportInPlace {opener closer c : Kind} {range : Range} :
    Composes .plain Anything (Grammar.reportInPlace opener closer range c) :=
  .choose .reportAt .reportHere

theorem treeCloser {opener closer : Kind} (hc : closer.isRejoined = false) {range : Range} :
    Composes .plain Anything (Grammar.treeCloser opener closer range) :=
  .kind fun _ => .choose (.bind .consume fun _ => .pure _)
    (.bind .reportInPlace fun _ => .bind (.pushMissing hc) fun _ => .pure _)

theorem delimitedTree (hg : g.Composes) {form : TreeForm} :
    Composes T Node.Rereadable (g.delimitedTree form) := by
  refine .node (by cases form <;> rfl) <| .kind fun c => ?_
  split
  · exact .bind .reportExpected fun _ => .bind (.pushMissing rfl) fun _ => .pushMissing rfl
  · next closer hcloser =>
    refine .tokenRange fun _ => .bind .consume fun _ => .bind (.treeContents hg) fun _ => ?_
    exact .bind (.treeCloser (isRejoined_closer hcloser)) fun _ => .pure _

theorem tokenTree (hg : g.Composes) {form : TreeForm} :
    Composes T Node.Rereadable (g.tokenTree form) :=
  .bind .flush fun _ => .guarded (.delimitedTree hg)

theorem repetitionMark : Composes .plain Anything Grammar.repetitionMark :=
  .kind fun _ => .bind (.provided .consume) fun _ => .kind fun _ => .choose .consume
    (.bind .reportHere fun _ => .pushMissing rfl)

theorem repetition (hg : g.Composes) {form : TreeForm} :
    Composes T Node.Rereadable (g.repetition form) :=
  .node (by cases form <;> rfl) <| .bind .consume fun _ => .tokenRange fun _ =>
    .bind .consume fun _ => .bind (.treeContents hg) fun _ =>
    .test (.treeCloser rfl) .repetitionMark (.pure _)

theorem macroCall (hg : g.Composes) {path : Node} (h : path.Rereadable) :
    Composes T Node.Rereadable (g.macroCall path) :=
  .node rfl <| .bind (.pushField h) fun _ => .bind (.expect rfl) fun _ => .child hg.parse

/-! ### Attributes and visibility -/

theorem attributeBody (hg : g.Composes) : Composes T Node.Rereadable g.attributeBody :=
  .bind .flush fun _ => .node rfl <| .bind (.child .simplePath) fun _ => .kind fun _ =>
    .choose (.bind .consume fun _ => .field (.restricted hg.parse))
      (.choose (.field hg.parse) (.pure _))

theorem attributeItem (hg : g.Composes) : Composes T Node.Rereadable g.attributeItem :=
  .bind .flush fun _ => .node rfl <| .bind .consume fun _ =>
    .bind (.ifAt (.bind (.setKind rfl) fun _ => .consume)) fun _ =>
    .isAt (.tokenRange fun _ => .bind .consume fun _ => .bind (.child (.attributeBody hg))
      fun _ => .close) (.expect rfl)

theorem attributes (hg : g.Composes) : Composes .plain Anything g.attributes :=
  .repeatWhile <| .isAt (.bind (.child (.attributeItem hg)) fun _ => .pure _) (.pure _)

theorem visibilityScope : Composes .plain Anything Parse.visibilityScope :=
  .isAt (.bind .consume fun _ => .child .simplePath) .consume

theorem visibility : Composes T Node.Rereadable Parse.visibility :=
  .bind .flush fun _ => .node rfl <| .bind .consume fun _ => .look fun _ =>
    .choose (.choose (.bind .settle fun _ => .bind .consume fun _ => .bind .visibilityScope fun _ =>
      .expect rfl) .settle) (.pure _)

theorem visibilityIf : Composes .plain Anything Parse.visibilityIf :=
  .ifAt (.child .visibility)

/-! ### Arguments of types -/

theorem typeAsArgument (hg : g.Composes) : Composes T Node.Rereadable g.typeAsArgument :=
  .draw hg.parse fun _ h => .choose (.bind .settle fun _ => .give h.ambiguous) (.give h)

theorem typeBinding (hg : g.Composes) : Composes T Node.Rereadable g.typeBinding :=
  .node rfl <| .bind (.consumeFieldAs rfl) fun _ => .bind .consume fun _ => .field hg.parse

theorem typeArgument (hg : g.Composes) : Composes T Node.Rereadable g.typeArgument := by
  refine .bind .flush fun _ => .look fun s => ?_
  split
  · exact .lifetime
  · exact hg.parse
  · exact .negativeLiteral
  · exact .choose (.typeBinding hg) (.typeAsArgument hg)
  · exact .choose .literal (.typeAsArgument hg)

theorem typeArguments (hg : g.Composes) : Composes T Node.Rereadable g.typeArguments :=
  .bind .flush fun _ => .node rfl <| .bind (.ifAt (.split rfl)) fun _ =>
    .unrestricted (.list rfl rfl (.child (.typeArgument hg)))

/-! ### Bounds -/

theorem bound (hg : g.Composes) : Composes T Node.Rereadable g.bound := by
  refine .bind .flush fun _ => .kind fun c => ?_
  split
  · exact .lifetime
  · exact .node rfl <| .bind .consume fun _ => .child hg.parse
  · exact hg.parse

theorem traitBounds (hg : g.Composes) : Composes T Node.Rereadable g.traitBounds :=
  .bind .flush fun _ => .node rfl <| .bind (.expect rfl) fun _ => .repeatWhile <| .kind fun _ =>
    .choose (.bind (.child (.bound hg)) fun _ => .accept) (.pure _)

theorem traitBoundsIf (hg : g.Composes) : Composes .plain Anything g.traitBoundsIf :=
  .ifAt (.field (.traitBounds hg))

/-! ### Generic parameters -/

theorem lifetimeParameter (hg : g.Composes) : Composes T Node.Rereadable g.lifetimeParameter :=
  .node rfl <| .bind (.field .lifetime) fun _ => .traitBoundsIf hg

theorem constParameter (hg : g.Composes) : Composes T Node.Rereadable g.constParameter :=
  .node rfl <| .bind .consume fun _ => .bind (.expectName rfl) fun _ => .bind (.expect rfl) fun _ =>
    .bind (.field hg.parse) fun _ => .ifAt (.bind .consume fun _ => .field (.typeArgument hg))

theorem typeParameter (hg : g.Composes) : Composes T Node.Rereadable g.typeParameter :=
  .node rfl <| .bind (.expectName rfl) fun _ => .bind (.traitBoundsIf hg) fun _ =>
    .ifAt (.bind .consume fun _ => .field hg.parse)

theorem genericParameter (hg : g.Composes) : Composes T Node.Rereadable g.genericParameter := by
  refine .bind .flush fun _ => .kind fun c => ?_
  split
  · exact .lifetimeParameter hg
  · exact .constParameter hg
  · exact .typeParameter hg

theorem genericList (hg : g.Composes) : Composes .plain Anything g.genericList :=
  .list rfl rfl (.bind (.attributes hg) fun _ => .child (.genericParameter hg))

theorem typeParameters (hg : g.Composes) : Composes T Node.Rereadable g.typeParameters :=
  .bind .flush fun _ => .node rfl (.genericList hg)

theorem typeParametersIf (hg : g.Composes) : Composes .plain Anything g.typeParametersIf :=
  .ifAt (.field (.typeParameters hg))

theorem forBinder (hg : g.Composes) : Composes T Node.Rereadable g.forBinder :=
  .node rfl <| .look fun _ => .choose
    (.bind .settle fun _ => .bind .consume fun _ => .list rfl rfl (.child .lifetime))
    (.bind .settle fun _ => .bind (.setKind rfl) fun _ => .bind .consume fun _ => .genericList hg)

/-! ### Where clauses -/

theorem whereSubject (hg : g.Composes) : Composes T Node.Rereadable g.whereSubject :=
  .isAt .lifetime hg.parse

theorem wherePredicate (hg : g.Composes) : Composes .plain Anything g.wherePredicate :=
  .draw (.whereSubject hg) fun _ h => .child <| .node rfl <| .bind (.pushField h) fun _ =>
    .field (.traitBounds hg)

theorem whereClause (hg : g.Composes) : Composes T Node.Rereadable g.whereClause :=
  .bind .flush fun _ => .node rfl <| .bind .consume fun _ => .repeatWhile <| .bind .flush fun _ =>
    .kind fun _ => .choose (.bind (.wherePredicate hg) fun _ => .accept) (.pure _)

theorem whereClauseIf (hg : g.Composes) : Composes .plain Anything g.whereClauseIf :=
  .ifAt (.child (.whereClause hg))

/-! ### Signatures -/

theorem externModifier : Composes T Node.Rereadable Parse.externModifier :=
  .bind .flush fun _ => .node rfl <| .bind .consume fun _ =>
    .providedThat .isAtAny (.child .literal)

theorem functionModifier : Composes .plain Anything Parse.functionModifier := by
  refine .kind fun c => ?_
  split
  · exact .bind .consume fun _ => .pure _
  · exact .bind .consume fun _ => .pure _
  · exact .bind .consume fun _ => .pure _
  · exact .bind (.child .externModifier) fun _ => .pure _
  · exact .test .isAtWord (.bind (.consumeAs rfl) fun _ => .pure _) (.pure _)
  · exact .pure _

theorem functionModifiers : Composes T Node.Rereadable Parse.functionModifiers :=
  .bind .flush fun _ => .node rfl (.repeatWhile .functionModifier)

theorem consumeDefault : Composes .plain Anything Parse.consumeDefault :=
  .providedThat .isAtWord (.consumeAs rfl)

theorem receiver : Composes T Node.Rereadable Parse.receiver :=
  .bind .flush fun _ => .node rfl <|
    .bind (.ifAt (.bind .consume fun _ => .ifAt (.child .lifetime))) fun _ =>
    .bind .consumeIf fun _ => .expect rfl

theorem bareParameter (hg : g.Composes) : Composes .plain Anything g.bareParameter :=
  .look fun _ => .choose
    (.child <| .node rfl <| .bind (.field (.leaf readPlain_none)) fun _ => .bind .consume fun _ =>
      .field hg.parse)
    (.child hg.parse)

theorem parameterPattern (hg : g.Composes) :
    Composes T (IfAny (Draft.Fits .plain)) g.parameterPattern? :=
  .draw (.collect (Draft.fits_plain rfl) (.bind .consumeIf fun _ => .field hg.parse))
    fun _ h => .isAt (.give (ifAny_some h)) (.give ifAny_none)

theorem reportAnonymous {range : Range} :
    Composes .plain Anything (Grammar.reportAnonymous range) :=
  .bind .options fun _ => .choose .reportAt .reportAt

theorem parameter (hg : g.Composes) {plain : Parse Unit}
    (hplain : Composes .plain Anything plain) : Composes .plain Anything (g.parameter plain) :=
  .bind .flush fun _ => .bind (.attributes hg) fun _ => .look fun _ =>
    .choose (.child .receiver) (.choose (.child (.node rfl .consume)) hplain)

theorem namedParameter (hg : g.Composes) : Composes .plain Anything g.namedParameter := by
  refine .draw (.speculate (.parameterPattern hg)) fun r h => ?_
  cases r with
  | some parameter =>
    exact .child (.resume (h parameter rfl) (.bind .consume fun _ => .field hg.parse))
  | none =>
    exact .draw (.node rfl (.field hg.parse)) fun _ h => .bind .reportAnonymous fun _ => .push h

theorem parameters (hg : g.Composes) : Composes T Node.Rereadable g.parameters :=
  .bind .flush fun _ => .node rfl <| .unrestricted <| .list rfl rfl <| .parameter hg <|
    .namedParameter hg

theorem bareParameters (hg : g.Composes) : Composes T Node.Rereadable g.bareParameters :=
  .bind .flush fun _ => .node rfl <| .unrestricted <| .list rfl rfl <| .parameter hg <|
    .bareParameter hg

theorem returnTypeIf (hg : g.Composes) : Composes .plain Anything g.returnTypeIf :=
  .ifAt (.bind .consume fun _ => .field hg.parse)

/-! ### Paths of types -/

theorem typeAsTrait (hg : g.Composes) : Composes T Node.Rereadable g.typeAsTrait :=
  .draw hg.parse fun _ h => .isAt
    (.node rfl <| .bind (.pushField h) fun _ => .bind .consume fun _ =>
      .field hg.parse) (.give h)

theorem bracketedType (hg : g.Composes) : Composes T Node.Rereadable g.bracketedType :=
  .node rfl <| .bind (.ifAt (.split rfl)) fun _ => .bind .consume fun _ =>
    .bind (.child (.typeAsTrait hg)) fun _ => .expect rfl

theorem pathScope (hg : g.Composes) : Composes T (IfAny (Draft.Fits .path)) g.pathScope :=
  .kind fun _ => .choose
    (.draw (.bracketedType hg) fun _ h => .draw (.scopeAfter h) fun _ h => .give (ifAny_some h))
    (.choose (.draw .globalScope fun _ h => .give (ifAny_some h)) (.give ifAny_none))

theorem isAtPrimitive : Composes T Anything Grammar.isAtPrimitive :=
  .isAt (.bind .tokenText fun _ => .pure _) (.pure _)

theorem typeName {scope : Option Draft} (h : IfAny (Draft.Fits .path) scope) :
    Composes T Node.Rereadable (Grammar.typeName scope) := by
  cases scope with
  | some scope => exact .finishPath (h scope rfl).asType (.segment rfl)
  | none =>
    refine .bind .isAtPrimitive fun isPrimitive => .draw (.segment rfl) fun _ h => .give ?_
    cases isPrimitive with
    | true => exact (h.withKind rfl).rereadable
    | false => exact h

theorem genericType (hg : g.Composes) {name : Node} (h : name.Rereadable) :
    Composes T Node.Rereadable (g.genericType name) :=
  .node rfl <| .bind (.pushField h) fun _ => .bind .consumeIf fun _ =>
    .field (.typeArguments hg)

theorem functionTrait (hg : g.Composes) {name : Node} (h : name.Rereadable) :
    Composes T Node.Rereadable (g.functionTrait name) :=
  .node rfl <| .bind (.pushField h) fun _ => .bind (.field (.bareParameters hg)) fun _ =>
    .returnTypeIf hg

theorem typePathTurn (hg : g.Composes) {scope : Option Draft}
    (h : IfAny (Draft.Fits .path) scope) :
    Composes T (Step.Ends (IfAny (Draft.Fits .path)) Node.Rereadable) (g.typePathTurn scope) := by
  refine .look fun s => .choose ?_ ?_
  · exact .draw (.segmentIn h rfl) fun _ h => .draw (.scopeAfter h) fun _ h => .give (ifAny_some h)
  · refine .draw (.typeName h) fun name h => ?_
    refine .look fun s => .choose ?_ (.choose ?_ (.choose ?_ (.give h)))
    · refine .draw (.genericType hg h) fun _ h => .look fun s => .choose ?_ (.give h)
      exact .draw (.scopeAfter h) fun _ h => .give (ifAny_some h)
    · exact .draw (.functionTrait hg h) fun _ h => .give h
    · exact .draw (.macroCall hg h.asPath) fun _ h => .give h

theorem typePath (hg : g.Composes) : Composes T Node.Rereadable g.typePath :=
  .bind .flush fun _ => .draw (.pathScope hg) fun _ h => .loop (fun _ h => .typePathTurn hg h) h

/-! ### Types -/

theorem tupleType (hg : g.Composes) : Composes T Node.Rereadable g.tupleType :=
  .node rfl <| .ahead fun _ => .choose
    (.bind .settle fun _ => .bind (.setKind rfl) fun _ => .bind .consume fun _ => .consume)
    (.list rfl rfl (.child hg.parse))

theorem arrayType (hg : g.Composes) : Composes T Node.Rereadable g.arrayType :=
  .node rfl <| .bind .consume fun _ => .bind (.field hg.parse) fun _ =>
    .bind (.ifAt (.bind .consume fun _ => .field (.restricted hg.parse))) fun _ =>
    .expect rfl

theorem referenceType (hg : g.Composes) : Composes T Node.Rereadable g.referenceType :=
  .node rfl <| .isAt
    (.bind (.split rfl) fun _ => .bind .consume fun _ => .field hg.parse)
    (.bind .consume fun _ => .bind (.ifAt (.child .lifetime)) fun _ =>
      .bind .consumeIf fun _ => .field hg.parse)

theorem pointerModifier : Composes .plain Anything Grammar.pointerModifier :=
  .test .isAtAny .consume .reportExpected

theorem pointerType (hg : g.Composes) : Composes T Node.Rereadable g.pointerType :=
  .node rfl <| .bind .consume fun _ => .bind .pointerModifier fun _ => .field hg.parse

theorem boundSum (hg : g.Composes) : Composes T Node.Rereadable g.boundSum := by
  refine .draw (.bound hg) fun _ h => .loop (P := Node.Rereadable) (fun _ h => ?_) h
  refine .isAt (.draw (.node rfl ?_) fun _ h => .give h) (.give h)
  exact .bind (.push h) fun _ => .bind .consume fun _ => .child (.bound hg)

theorem boundedType (hg : g.Composes) {kind : Kind} (hk : kind.isRejoined = false) :
    Composes T Node.Rereadable (g.boundedType kind) :=
  .node hk (.bind .consume fun _ => .field (.boundSum hg))

theorem functionTypeRest (hg : g.Composes) : Composes .plain Anything g.functionTypeRest :=
  .bind .isAtAny fun _ => .bind (.provided (.child .functionModifiers)) fun _ =>
    .bind (.expect rfl) fun _ => .bind (.field (.bareParameters hg)) fun _ => .returnTypeIf hg

theorem boundType (hg : g.Composes) : Composes T Node.Rereadable g.boundType :=
  .draw (.forBinder hg) fun _ h => .test .isAtAny
    (.node rfl <| .bind (.push h) fun _ => .functionTypeRest hg)
    (.node rfl <| .bind (.pushField h) fun _ => .field hg.parse)

theorem typeForm (hg : g.Composes) : Composes T Node.Rereadable g.typeForm := by
  refine .kind fun c => ?_
  split
  case h_1 => exact .tupleType hg
  case h_2 => exact .arrayType hg
  case h_3 | h_4 => exact .referenceType hg
  case h_5 => exact .pointerType hg
  case h_6 => exact .node rfl .consume
  case h_7 | h_8 => exact .leaf readPlain_none
  case h_9 | h_10 => exact .boundedType hg rfl
  case h_11 | h_12 | h_13 => exact .node rfl (.functionTypeRest hg)
  case h_14 => exact .boundType hg
  case h_23 => exact .bind .reportExpected fun _ => .standIn rfl
  all_goals exact .typePath hg

theorem type (hg : g.Composes) : Composes T Node.Rereadable g.type :=
  .bind .flush fun _ => .guarded (.typeForm hg)

/-! ### Paths of values -/

/-- A path with arguments stands in the mould of a path, too. -/
theorem begins_arguments : Mould.path.Holds (.ofKind .genericFunction) :=
  ⟨nofun, nofun, nofun, rfl⟩

theorem withArguments (hg : g.Composes) {path : Node} (h : path.Rereadable) :
    Composes T Node.Rereadable (g.withArguments path) :=
  .look fun _ => .choose (.bind .settle fun _ => .nodeOver begins_arguments h rfl <|
    .bind .consume fun _ => .part rfl (.typeArguments hg)) (.give h)

theorem valuePathTurn (hg : g.Composes) {scope : Option Draft}
    (h : IfAny (Draft.Fits .path) scope) :
    Composes T (Step.Ends (IfAny (Draft.Fits .path)) Node.Rereadable)
      (g.valuePathTurn scope) := by
  refine .draw (.segmentIn h rfl) fun _ h => .draw (.withArguments hg h) fun path h => ?_
  have hbefore : (if path.kind == .genericFunction then path.asType else path).Rereadable := by
    split
    · exact h.asType
    · exact h
  refine .look fun s => .choose ?_ (.give h)
  exact .draw (.scopeAfter hbefore) fun _ h => .give (ifAny_some h)

theorem valuePath (hg : g.Composes) : Composes T Node.Rereadable g.valuePath :=
  .bind .flush fun _ => .draw (.pathScope hg) fun _ h => .loop (fun _ h => .valuePathTurn hg h) h

/-! ### Patterns -/

theorem literalPattern : Composes T Node.Rereadable Grammar.literalPattern :=
  .isAt .negativeLiteral .literal

theorem rangeBound (hg : g.Composes) : Composes T Node.Rereadable g.rangeBound := by
  refine .bind .flush fun _ => .kind fun c => ?_
  split
  case h_13 => exact .bind .reportExpected fun _ => .standIn rfl
  all_goals first | exact .literalPattern | exact .valuePath hg

theorem rangeTo (hg : g.Composes) : Composes T Node.Rereadable g.rangeTo :=
  .node rfl <| .bind .consume fun _ => .field (.rangeBound hg)

theorem rangeFrom (hg : g.Composes) {left : Node} (h : left.Rereadable) :
    Composes T Node.Rereadable (g.rangeFrom left) :=
  .kind fun _ => .choose (.node rfl <| .bind (.pushField h) fun _ => .bind .consume fun _ =>
    .kind fun _ => .choose (.field (.rangeBound hg)) (.pure _)) (.give h)

theorem patterns (hg : g.Composes) {opener closer : Kind} (ho : opener.isRejoined = false)
    (hc : closer.isRejoined = false) : Composes .plain Anything (g.patterns opener closer) :=
  .list ho hc (.child hg.parse)

theorem tuplePattern (hg : g.Composes) : Composes T Node.Rereadable g.tuplePattern :=
  .node rfl <| .ahead fun _ => .bind (.provided .settle) fun _ => .patterns hg rfl rfl

theorem fieldPattern (hg : g.Composes) : Composes T Node.Rereadable g.fieldPattern :=
  .bind .flush fun _ => .isAt (.node rfl .consume) <| .node rfl <| .bind .consumeIf fun _ =>
    .bind .consumeIf fun _ => .look fun _ => .choose
      (.bind .memberName fun _ => .bind .consume fun _ => .field hg.parse) (.expectName rfl)

theorem structPattern (hg : g.Composes) {path : Node} (h : path.Rereadable) :
    Composes T Node.Rereadable (g.structPattern path) :=
  .node rfl <| .bind (.pushField h.asType) fun _ =>
    .list rfl rfl (.bind (.attributes hg) fun _ => .child (.fieldPattern hg))

theorem pathPattern (hg : g.Composes) : Composes T Node.Rereadable g.pathPattern := by
  refine .draw (.valuePath hg) fun _ h => .look fun s => .choose (.node rfl ?_) ?_
  · exact .bind (.pushField h) fun _ => .patterns hg rfl rfl
  · exact .choose (.structPattern hg h) (.choose (.macroCall hg h) (.rangeFrom hg h))

theorem referencePattern (hg : g.Composes) : Composes T Node.Rereadable g.referencePattern :=
  .node rfl <| .isAt
    (.bind (.split rfl) fun _ => .bind .consume fun _ => .child hg.parse)
    (.bind .consume fun _ => .bind .consumeIf fun _ => .child hg.parse)

theorem modifiedPattern (hg : g.Composes) {kind : Kind} (hk : kind.isRejoined = false) :
    Composes T Node.Rereadable (g.modifiedPattern kind) :=
  .node hk (.bind .consume fun _ => .child hg.parse)

theorem patternForm (hg : g.Composes) : Composes T Node.Rereadable g.patternForm := by
  refine .look fun s => ?_
  split
  case h_1 => exact .leaf readPlain_none
  case h_2 => exact .choose (.rangeTo hg) (.node rfl .consume)
  case h_3 => exact .rangeTo hg
  case h_4 => exact .tuplePattern hg
  case h_5 => exact .node rfl (.patterns hg rfl rfl)
  case h_6 | h_7 => exact .referencePattern hg
  case h_8 | h_9 => exact .modifiedPattern hg rfl
  case h_10 | h_11 | h_12 | h_13 | h_14 | h_15 | h_16 | h_17 =>
    exact .draw .literalPattern fun _ h => .rangeFrom hg h
  case h_18 => exact .choose (.pathPattern hg) (.leaf readPlain_none)
  case h_27 => exact .bind .reportExpected fun _ => .standIn rfl
  all_goals exact .pathPattern hg

theorem singlePattern (hg : g.Composes) : Composes T Node.Rereadable g.singlePattern :=
  .bind .flush fun _ => .draw (.guarded (.patternForm hg)) fun _ h => .isAt
    (.node rfl <| .bind (.push h) fun _ => .bind .consume fun _ => .child hg.parse) (.give h)

theorem firstAlternative (hg : g.Composes) : Composes T Node.Rereadable g.firstAlternative :=
  .isAt (.node rfl (.bind .consume fun _ => .child hg.parse)) hg.parse

theorem alternativeTurn (hg : g.Composes) {pattern : Node} (h : pattern.Rereadable) :
    Composes T (Step.Ends Node.Rereadable Node.Rereadable) (g.alternativeTurn pattern) := by
  refine .isAt (.draw (.node rfl ?_) fun _ h => .give h) (.give h)
  exact .bind (.push h) fun _ => .bind .consume fun _ => .child hg.parse

theorem alternatives (hg : g.Composes) : Composes T Node.Rereadable g.alternatives :=
  .draw (.firstAlternative hg) fun _ h => .loop (fun _ h => .alternativeTurn hg h) h

theorem pattern (hg : g.Composes) : Composes T Node.Rereadable g.pattern :=
  .bind .flush fun _ => .guarded (.alternatives hg)

end Parse.Composes

end ConcreteSyntax
