import ConcreteSyntax.Grammar.Pattern
import ConcreteSyntax.Proofs.Shelters.TokenTree

/-! # Types and patterns that shelter literals

The productions of generics, signatures, types, paths of values and patterns shelter literals, if the
nonterminals inside them do. None of them leaves one exposed: the length of an array stands between
brackets, and blocks among arguments stand between braces. -/

namespace ConcreteSyntax.Parse.Shelters

variable {text : List Char} {a : Option Kind} {p : Pledge} {T : Frame} {g : Grammar}

/-! ### Arguments of types -/

theorem typeAsArgument (hg : g.Shelters text) :
    Shelters text a p T (Node.Fine p) g.typeAsArgument :=
  .draw (hg.parse rfl) fun _ h => .choose (.bind .settle fun _ => .give h.withFlags) (.give h)

theorem typeBinding (hg : g.Shelters text) : Shelters text a p T (Node.Fine p) g.typeBinding :=
  .node rfl <| .bind (.consumeFieldAs rfl) fun _ => .bind .consume fun _ => .field rfl (hg.parse rfl)

theorem typeArgument (hg : g.Shelters text) :
    Shelters text a p T (Node.Fine p) g.typeArgument := by
  refine .bind .flush fun _ => .look fun s => ?_
  split
  · exact .lifetime
  · exact hg.parse rfl
  · exact .negativeLiteral
  · exact .choose (.typeBinding hg) (.typeAsArgument hg)
  · exact .choose .literal (.typeAsArgument hg)

theorem typeArguments (hg : g.Shelters text) :
    Shelters text a p T (Node.Fine p) g.typeArguments :=
  .bind .flush fun _ => .node rfl <| .bind (.ifAt (.split Scanner.splitsInto_shl)) fun _ =>
    .unrestricted (.list rfl rfl (.child (.typeArgument hg)))

/-! ### Bounds -/

theorem bound (hg : g.Shelters text) : Shelters text a p T (Node.Fine p) g.bound := by
  refine .bind .flush fun _ => .kind fun c => ?_
  split
  · exact .lifetime
  · exact .node rfl <| .bind .consume fun _ => .child (hg.parse rfl)
  · exact hg.parse rfl

theorem traitBounds (hg : g.Shelters text) : Shelters text a p T (Node.Fine p) g.traitBounds :=
  .bind .flush fun _ => .node rfl <| .bind (.expect rfl) fun _ => .repeatWhile <| .kind fun _ =>
    .choose (.bind (.child (.bound hg)) fun _ => .accept) (.pure _)

theorem traitBoundsIf (hg : g.Shelters text) : Shelters text a p T Anything g.traitBoundsIf :=
  .ifAt (.field rfl (.traitBounds hg))

/-! ### Generic parameters -/

theorem lifetimeParameter (hg : g.Shelters text) :
    Shelters text a p T (Node.Fine p) g.lifetimeParameter :=
  .node rfl <| .bind (.field rfl .lifetime) fun _ => .traitBoundsIf hg

theorem constParameter (hg : g.Shelters text) :
    Shelters text a p T (Node.Fine p) g.constParameter :=
  .node rfl <| .bind .consume fun _ => .bind (.expectName rfl) fun _ => .bind (.expect rfl) fun _ =>
    .bind (.field rfl (hg.parse rfl)) fun _ => .ifAt (.bind .consume fun _ => .field rfl (.typeArgument hg))

theorem typeParameter (hg : g.Shelters text) :
    Shelters text a p T (Node.Fine p) g.typeParameter :=
  .node rfl <| .bind (.expectName rfl) fun _ => .bind (.traitBoundsIf hg) fun _ =>
    .ifAt (.bind .consume fun _ => .field rfl (hg.parse rfl))

theorem genericParameter (hg : g.Shelters text) :
    Shelters text a p T (Node.Fine p) g.genericParameter := by
  refine .bind .flush fun _ => .kind fun c => ?_
  split
  · exact .lifetimeParameter hg
  · exact .constParameter hg
  · exact .typeParameter hg

theorem genericList (hg : g.Shelters text) : Shelters text a p T Anything g.genericList :=
  .list rfl rfl (.bind (.attributes hg) fun _ => .child (.genericParameter hg))

theorem typeParameters (hg : g.Shelters text) :
    Shelters text a p T (Node.Fine p) g.typeParameters :=
  .bind .flush fun _ => .node rfl (.genericList hg)

theorem typeParametersIf (hg : g.Shelters text) :
    Shelters text a p T Anything g.typeParametersIf :=
  .ifAt (.field rfl (.typeParameters hg))

theorem forBinder (hg : g.Shelters text) : Shelters text a p T (Node.Fine p) g.forBinder :=
  .node rfl <| .look fun _ => .choose
    (.bind .settle fun _ => .bind .consume fun _ => .list rfl rfl (.child .lifetime))
    (.bind .settle fun _ => .bind (.setKind rfl) fun _ => .bind .consume fun _ => .genericList hg)

/-! ### Where clauses -/

theorem whereSubject (hg : g.Shelters text) : Shelters text a p T (Node.Fine p) g.whereSubject :=
  .isAt .lifetime (hg.parse rfl)

theorem wherePredicate (hg : g.Shelters text) :
    Shelters text a p T Anything g.wherePredicate :=
  .draw (.whereSubject hg) fun _ h => .child <| .node rfl <| .bind (.pushField h rfl) fun _ =>
    .field rfl (.traitBounds hg)

theorem whereClause (hg : g.Shelters text) : Shelters text a p T (Node.Fine p) g.whereClause :=
  .bind .flush fun _ => .node rfl <| .bind .consume fun _ => .repeatWhile <| .bind .flush fun _ =>
    .kind fun _ => .choose (.bind (.wherePredicate hg) fun _ => .accept) (.pure _)

theorem whereClauseIf (hg : g.Shelters text) : Shelters text a p T Anything g.whereClauseIf :=
  .ifAt (.child (.whereClause hg))

/-! ### Signatures -/

theorem externModifier : Shelters text a p T (Node.Fine p) Parse.externModifier :=
  .bind .flush fun _ => .node rfl <| .bind .consume fun _ => .providedThat .isAtAny (.child .literal)

theorem functionModifier : Shelters text a p T Anything Parse.functionModifier := by
  refine .kind fun c => ?_
  split
  · exact .bind .consume fun _ => .pure _
  · exact .bind .consume fun _ => .pure _
  · exact .bind .consume fun _ => .pure _
  · exact .bind (.child .externModifier) fun _ => .pure _
  · exact .test .isAtWord (.bind (.consumeAs rfl) fun _ => .pure _) (.pure _)
  · exact .pure _

theorem functionModifiers : Shelters text a p T (Node.Fine p) Parse.functionModifiers :=
  .bind .flush fun _ => .node rfl (.repeatWhile .functionModifier)

theorem consumeDefault : Shelters text a p T Anything Parse.consumeDefault :=
  .providedThat .isAtWord (.consumeAs rfl)

theorem receiver : Shelters text a p T (Node.Fine p) Parse.receiver :=
  .bind .flush fun _ => .node rfl <|
    .bind (.ifAt (.bind .consume fun _ => .ifAt (.child .lifetime))) fun _ =>
    .bind .consumeIf fun _ => .expect rfl

theorem bareParameter (hg : g.Shelters text) : Shelters text a p T Anything g.bareParameter :=
  .look fun _ => .choose
    (.child <| .node rfl <| .bind (.field rfl (.leaf nofun)) fun _ => .bind .consume fun _ =>
      .field rfl (hg.parse rfl))
    (.child (hg.parse rfl))

theorem parameterPattern (hg : g.Shelters text) :
    Shelters text a p T (IfAny (Draft.Fine p)) g.parameterPattern? :=
  .draw (.collect (Draft.fine_ofKind (by decide)) (.bind .consumeIf fun _ => .field rfl (hg.parse rfl)))
    fun _ h => .isAt (.give (ifAny_some h)) (.give ifAny_none)

theorem reportAnonymous {range : Range} :
    Shelters text a p T Anything (Grammar.reportAnonymous range) :=
  .bind .options fun _ => .choose .reportAt .reportAt

theorem parameter (hg : g.Shelters text) {plain : Parse Unit}
    (hplain : ∀ {a}, Shelters text a p T Anything plain) :
    Shelters text a p T Anything (g.parameter plain) :=
  .bind .flush fun _ => .bind (.attributes hg) fun _ => .look fun _ =>
    .choose (.child .receiver) (.choose (.child (.node rfl .consume)) hplain)

theorem namedParameter (hg : g.Shelters text) :
    Shelters text a p T Anything g.namedParameter := by
  refine .draw (.speculate (.parameterPattern hg)) fun r h => ?_
  cases r with
  | some parameter =>
    exact .child (.resume (h parameter rfl) (.bind .consume fun _ => .field rfl (hg.parse rfl)))
  | none =>
    exact .draw (.node rfl (.field rfl (hg.parse rfl))) fun _ h => .bind .reportAnonymous fun _ => .push h

theorem parameters (hg : g.Shelters text) : Shelters text a p T (Node.Fine p) g.parameters :=
  .bind .flush fun _ => .node rfl <| .unrestricted <| .list rfl rfl <| .parameter hg <|
    .namedParameter hg

theorem bareParameters (hg : g.Shelters text) :
    Shelters text a p T (Node.Fine p) g.bareParameters :=
  .bind .flush fun _ => .node rfl <| .unrestricted <| .list rfl rfl <| .parameter hg <|
    .bareParameter hg

theorem returnTypeIf (hg : g.Shelters text) : Shelters text a p T Anything g.returnTypeIf :=
  .ifAt (.bind .consume fun _ => .field rfl (hg.parse rfl))

/-! ### Paths of types -/

theorem typeAsTrait (hg : g.Shelters text) : Shelters text a p T (Node.Fine p) g.typeAsTrait :=
  .draw (hg.parse rfl) fun _ h => .isAt
    (.node rfl <| .bind (.pushField h rfl) fun _ => .bind .consume fun _ =>
      .field rfl (hg.parse rfl)) (.give h)

theorem bracketedType (hg : g.Shelters text) :
    Shelters text a p T (Node.Fine p) g.bracketedType :=
  .node rfl <| .bind (.ifAt (.split Scanner.splitsInto_shl)) fun _ => .bind .consume fun _ =>
    .bind (.child (.typeAsTrait hg)) fun _ => .expect rfl

theorem pathScope (hg : g.Shelters text) :
    Shelters text a p T (IfAny (Draft.Fine p)) g.pathScope :=
  .kind fun _ => .choose
    (.draw (.bracketedType hg) fun _ h => .draw (.scopeAfter h) fun _ h => .give (ifAny_some h))
    (.choose (.draw .globalScope fun _ h => .give (ifAny_some h)) (.give ifAny_none))

theorem isAtPrimitive : Shelters text a p T Anything Grammar.isAtPrimitive :=
  .isAt (.bind .tokenText fun _ => .pure _) (.pure _)

theorem typeName {scope : Option Draft} (h : IfAny (Draft.Fine p) scope) :
    Shelters text a p T (Node.Fine p) (Grammar.typeName scope) := by
  cases scope with
  | some scope => exact .resume ((h scope rfl).setKind (by decide)) (.field rfl (.segment rfl))
  | none =>
    refine .bind .isAtPrimitive fun isPrimitive => .draw (.segment rfl) fun _ h => .give ?_
    cases isPrimitive with
    | true => exact h.withKind rfl
    | false => exact h

theorem genericType (hg : g.Shelters text) {name : Node} (h : name.Fine p) :
    Shelters text a p T (Node.Fine p) (g.genericType name) :=
  .node rfl <| .bind (.pushField h rfl) fun _ => .bind .consumeIf fun _ =>
    .field rfl (.typeArguments hg)

theorem functionTrait (hg : g.Shelters text) {name : Node} (h : name.Fine p) :
    Shelters text a p T (Node.Fine p) (g.functionTrait name) :=
  .node rfl <| .bind (.pushField h rfl) fun _ => .bind (.field rfl (.bareParameters hg)) fun _ =>
    .returnTypeIf hg

theorem typePathTurn (hg : g.Shelters text) {scope : Option Draft}
    (h : IfAny (Draft.Fine p) scope) :
    Shelters text a p T (Step.Ends (IfAny (Draft.Fine p)) (Node.Fine p)) (g.typePathTurn scope) := by
  refine .look fun s => .choose ?_ ?_
  · exact .draw (.segmentIn h rfl) fun _ h => .draw (.scopeAfter h) fun _ h => .give (ifAny_some h)
  · refine .draw (.typeName h) fun name h => ?_
    refine .look fun s => .choose ?_ (.choose ?_ (.choose ?_ (.give h)))
    · refine .draw (.genericType hg h) fun _ h => .look fun s => .choose ?_ (.give h)
      exact .draw (.scopeAfter h) fun _ h => .give (ifAny_some h)
    · exact .draw (.functionTrait hg h) fun _ h => .give h
    · exact .draw (.macroCall hg h.asPath) fun _ h => .give h

theorem typePath (hg : g.Shelters text) : Shelters text a p T (Node.Fine p) g.typePath :=
  .bind .flush fun _ => .draw (.pathScope hg) fun _ h => .loop (fun _ h => .typePathTurn hg h) h

/-! ### Types -/

theorem tupleType (hg : g.Shelters text) : Shelters text a p T (Node.Fine p) g.tupleType :=
  .node rfl <| .ahead fun _ => .choose
    (.bind .settle fun _ => .bind (.setKind rfl) fun _ => .bind .consume fun _ => .consume)
    (.list rfl rfl (.child (hg.parse rfl)))

/-- The length of an array is any expression, behind its bracket. -/
theorem arrayType (hg : g.Shelters text) :
    Shelters text (some .openBracket) p T (Node.Fine p) g.arrayType :=
  .node rfl <| .enclosed rfl <| .bind (.field rfl (hg.parse rfl)) fun _ =>
    .bind (.ifAt (.bind .consume fun _ => .field rfl (.released (hg.expression nofun)))) fun _ =>
    .expect rfl

theorem referenceType (hg : g.Shelters text) :
    Shelters text a p T (Node.Fine p) g.referenceType :=
  .node rfl <| .isAt
    (.bind (.split Scanner.splitsInto_ampAmp) fun _ => .bind .consume fun _ => .field rfl (hg.parse rfl))
    (.bind .consume fun _ => .bind (.ifAt (.child .lifetime)) fun _ =>
      .bind .consumeIf fun _ => .field rfl (hg.parse rfl))

theorem pointerModifier : Shelters text a p T Anything Grammar.pointerModifier :=
  .test .isAtAny .consume .reportExpected

theorem pointerType (hg : g.Shelters text) : Shelters text a p T (Node.Fine p) g.pointerType :=
  .node rfl <| .bind .consume fun _ => .bind .pointerModifier fun _ => .field rfl (hg.parse rfl)

theorem boundSum (hg : g.Shelters text) : Shelters text a p T (Node.Fine p) g.boundSum := by
  refine .draw (.bound hg) fun _ h => .loop (P := Node.Fine p) (fun _ h => ?_) h
  refine .isAt (.draw (.node rfl ?_) fun _ h => .give h) (.give h)
  exact .bind (.push h) fun _ => .bind .consume fun _ => .child (.bound hg)

theorem boundedType (hg : g.Shelters text) {kind : Kind} (hk : kind.isHeadless = true) :
    Shelters text a p T (Node.Fine p) (g.boundedType kind) :=
  .node (Frame.opens_of_isHeadless hk) (.bind .consume fun _ => .field rfl (.boundSum hg))

theorem functionTypeRest (hg : g.Shelters text) :
    Shelters text a p .headless Anything g.functionTypeRest :=
  .bind .isAtAny fun _ => .bind (.provided (.child .functionModifiers)) fun _ =>
    .bind (.expect rfl) fun _ => .bind (.field rfl (.bareParameters hg)) fun _ => .returnTypeIf hg

theorem boundType (hg : g.Shelters text) : Shelters text a p T (Node.Fine p) g.boundType :=
  .draw (.forBinder hg) fun _ h => .test .isAtAny
    (.node rfl <| .bind (.push h) fun _ => .functionTypeRest hg)
    (.node rfl <| .bind (.pushField h rfl) fun _ => .field rfl (hg.parse rfl))

theorem typeForm (hg : g.Shelters text) : Shelters text a p T (Node.Fine p) g.typeForm := by
  refine .kind fun c => ?_
  split
  case h_1 => exact .tupleType hg
  case h_2 => exact .arrayType hg
  case h_3 | h_4 => exact .referenceType hg
  case h_5 => exact .pointerType hg
  case h_6 => exact .node rfl .consume
  case h_7 | h_8 => exact .leaf nofun
  case h_9 | h_10 => exact .boundedType hg rfl
  case h_11 | h_12 | h_13 => exact .node rfl (.functionTypeRest hg)
  case h_14 => exact .boundType hg
  case h_23 => exact .bind .reportExpected fun _ => .missing rfl
  all_goals exact .typePath hg

theorem type (hg : g.Shelters text) : Shelters text a p T (Node.Fine p) g.type :=
  .bind .flush fun _ => .guarded (.typeForm hg)

/-! ### Paths of values -/

theorem withArguments (hg : g.Shelters text) {path : Node} (h : path.Fine p) :
    Shelters text a p T (Node.Fine p) (g.withArguments path) :=
  .look fun _ => .choose (.bind .settle fun _ => .node rfl <|
    .bind (.pushField h rfl) fun _ => .bind .consume fun _ => .field rfl (.typeArguments hg)) (.give h)

theorem valuePathTurn (hg : g.Shelters text) {scope : Option Draft}
    (h : IfAny (Draft.Fine p) scope) :
    Shelters text a p T (Step.Ends (IfAny (Draft.Fine p)) (Node.Fine p))
      (g.valuePathTurn scope) := by
  refine .draw (.segmentIn h rfl) fun _ h => .draw (.withArguments hg h) fun path h => ?_
  have hbefore : (if path.kind == .genericFunction then path.asType else path).Fine p := by
    split
    · exact h.asType
    · exact h
  refine .look fun s => .choose ?_ (.give h)
  exact .draw (.scopeAfter hbefore) fun _ h => .give (ifAny_some h)

theorem valuePath (hg : g.Shelters text) : Shelters text a p T (Node.Fine p) g.valuePath :=
  .bind .flush fun _ => .draw (.pathScope hg) fun _ h => .loop (fun _ h => .valuePathTurn hg h) h

/-! ### Patterns -/

theorem literalPattern : Shelters text a p T (Node.Fine p) Grammar.literalPattern :=
  .isAt .negativeLiteral .literal

theorem rangeBound (hg : g.Shelters text) : Shelters text a p T (Node.Fine p) g.rangeBound := by
  refine .bind .flush fun _ => .kind fun c => ?_
  split
  case h_13 => exact .bind .reportExpected fun _ => .missing rfl
  all_goals first | exact .literalPattern | exact .valuePath hg

theorem rangeTo (hg : g.Shelters text) : Shelters text a p T (Node.Fine p) g.rangeTo :=
  .node rfl <| .bind .consume fun _ => .field rfl (.rangeBound hg)

theorem rangeFrom (hg : g.Shelters text) {left : Node} (h : left.Fine p) :
    Shelters text a p T (Node.Fine p) (g.rangeFrom left) :=
  .kind fun _ => .choose (.node rfl <| .bind (.pushField h rfl) fun _ => .bind .consume fun _ =>
    .kind fun _ => .choose (.field rfl (.rangeBound hg)) (.pure _)) (.give h)

theorem patterns (hg : g.Shelters text) {opener closer : Kind} (ho : opener.isHeadless = true)
    (hc : closer.isHeadless = true) : Shelters text a p T Anything (g.patterns opener closer) :=
  .list ho hc (.child (hg.parse rfl))

theorem tuplePattern (hg : g.Shelters text) : Shelters text a p T (Node.Fine p) g.tuplePattern :=
  .node rfl <| .ahead fun _ => .bind (.provided .settle) fun _ => .patterns hg rfl rfl

theorem fieldPattern (hg : g.Shelters text) : Shelters text a p T (Node.Fine p) g.fieldPattern :=
  .bind .flush fun _ => .isAt (.node rfl .consume) <| .node rfl <| .bind .consumeIf fun _ =>
    .bind .consumeIf fun _ => .look fun _ => .choose
      (.bind (.memberName rfl) fun _ => .bind .consume fun _ => .field rfl (hg.parse rfl)) (.expectName rfl)

theorem structPattern (hg : g.Shelters text) {path : Node} (h : path.Fine p) :
    Shelters text a p T (Node.Fine p) (g.structPattern path) :=
  .node rfl <| .bind (.pushField h.asType rfl) fun _ =>
    .list rfl rfl (.bind (.attributes hg) fun _ => .child (.fieldPattern hg))

theorem pathPattern (hg : g.Shelters text) : Shelters text a p T (Node.Fine p) g.pathPattern := by
  refine .draw (.valuePath hg) fun _ h => .look fun s => .choose (.node rfl ?_) ?_
  · exact .bind (.pushField h rfl) fun _ => .patterns hg rfl rfl
  · exact .choose (.structPattern hg h) (.choose (.macroCall hg h) (.rangeFrom hg h))

theorem referencePattern (hg : g.Shelters text) :
    Shelters text a p T (Node.Fine p) g.referencePattern :=
  .node rfl <| .isAt
    (.bind (.split Scanner.splitsInto_ampAmp) fun _ => .bind .consume fun _ => .child (hg.parse rfl))
    (.bind .consume fun _ => .bind .consumeIf fun _ => .child (hg.parse rfl))

theorem modifiedPattern (hg : g.Shelters text) {kind : Kind} (hk : kind.isHeadless = true) :
    Shelters text a p T (Node.Fine p) (g.modifiedPattern kind) :=
  .node (Frame.opens_of_isHeadless hk) (.bind .consume fun _ => .child (hg.parse rfl))

theorem patternForm (hg : g.Shelters text) : Shelters text a p T (Node.Fine p) g.patternForm := by
  refine .look fun s => ?_
  split
  case h_1 => exact .leaf nofun
  case h_2 => exact .choose (.rangeTo hg) (.node rfl .consume)
  case h_3 => exact .rangeTo hg
  case h_4 => exact .tuplePattern hg
  case h_5 => exact .node rfl (.patterns hg rfl rfl)
  case h_6 | h_7 => exact .referencePattern hg
  case h_8 | h_9 => exact .modifiedPattern hg rfl
  case h_10 | h_11 | h_12 | h_13 | h_14 | h_15 | h_16 | h_17 =>
    exact .draw .literalPattern fun _ h => .rangeFrom hg h
  case h_18 => exact .choose (.pathPattern hg) (.leaf nofun)
  case h_27 => exact .bind .reportExpected fun _ => .missing rfl
  all_goals exact .pathPattern hg

theorem singlePattern (hg : g.Shelters text) :
    Shelters text a p T (Node.Fine p) g.singlePattern :=
  .bind .flush fun _ => .draw (.guarded (.patternForm hg)) fun _ h => .isAt
    (.node rfl <| .bind (.push h) fun _ => .bind .consume fun _ => .child (hg.parse rfl)) (.give h)

theorem firstAlternative (hg : g.Shelters text) :
    Shelters text a p T (Node.Fine p) g.firstAlternative :=
  .isAt (.node rfl (.bind .consume fun _ => .child (hg.parse rfl))) (hg.parse rfl)

theorem alternativeTurn (hg : g.Shelters text) {pattern : Node} (h : pattern.Fine p) :
    Shelters text a p T (Step.Ends (Node.Fine p) (Node.Fine p)) (g.alternativeTurn pattern) := by
  refine .isAt (.draw (.node rfl ?_) fun _ h => .give h) (.give h)
  exact .bind (.push h) fun _ => .bind .consume fun _ => .child (hg.parse rfl)

theorem alternatives (hg : g.Shelters text) :
    Shelters text a p T (Node.Fine p) g.alternatives :=
  .draw (.firstAlternative hg) fun _ h => .loop (fun _ h => .alternativeTurn hg h) h

theorem pattern (hg : g.Shelters text) : Shelters text a p T (Node.Fine p) g.pattern :=
  .bind .flush fun _ => .guarded (.alternatives hg)

end ConcreteSyntax.Parse.Shelters
