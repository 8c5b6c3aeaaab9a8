import ConcreteSyntax.Grammar.Pattern
import ConcreteSyntax.Proofs.Sheds.TokenTree

/-! # Types and patterns without comments

The productions of generics, signatures, types, paths of values and patterns shed comments, if the
nonterminals inside them do. -/

namespace ConcreteSyntax.Parse.Sheds

variable {P : Scanner → Prop} {T : Draft.Trait} {g : Grammar}

/-! ### Arguments of types -/

theorem typeAsArgument (hg : g.Sheds) : Sheds P T Node.Bares g.typeAsArgument g.typeAsArgument := by
  refine .draw hg.parse fun _ _ h => ?_
  rw [h.kind]
  exact .choose (.bind .settle fun _ => .give (h.withFlags rfl)) (.give h)

theorem typeBinding (hg : g.Sheds) : Sheds P T Node.Bares g.typeBinding g.typeBinding :=
  .node rfl <| .bind .consumeFieldAs fun _ => .bind .consume fun _ => .field hg.parse

theorem typeArgument (hg : g.Sheds) : Sheds P T Node.Bares g.typeArgument g.typeArgument := by
  refine .bind .flush fun _ => .look (fun _ _ => rfl) fun s _ => ?_
  split
  · exact .lifetime
  · exact hg.parse
  · exact .negativeLiteral
  · exact .choose (.typeBinding hg) (.typeAsArgument hg)
  · exact .choose .literal (.typeAsArgument hg)

theorem typeArguments (hg : g.Sheds) : Sheds P T Node.Bares g.typeArguments g.typeArguments :=
  .bind .flush fun _ => .node rfl <| .bind (.ifAt .split) fun _ =>
    .unrestricted (.list (.child (.typeArgument hg)))

/-! ### Bounds -/

theorem bound (hg : g.Sheds) : Sheds P T Node.Bares g.bound g.bound := by
  refine .bind .flush fun _ => .kind fun c => ?_
  split
  · exact .lifetime
  · exact .node rfl <| .bind .consume fun _ => .child hg.parse
  · exact hg.parse

theorem traitBounds (hg : g.Sheds) : Sheds P T Node.Bares g.traitBounds g.traitBounds :=
  .bind .flush fun _ => .node rfl <| .bind .expect fun _ => .repeatWhile <| .kind fun _ =>
    .choose (.bind (.child (.bound hg)) fun _ => .accept) (.pure _)

theorem traitBoundsIf (hg : g.Sheds) : Sheds P T Eq g.traitBoundsIf g.traitBoundsIf :=
  .ifAt (.field (.traitBounds hg))

/-! ### Generic parameters -/

theorem lifetimeParameter (hg : g.Sheds) :
    Sheds P T Node.Bares g.lifetimeParameter g.lifetimeParameter :=
  .node rfl <| .bind (.field .lifetime) fun _ => .traitBoundsIf hg

theorem constParameter (hg : g.Sheds) : Sheds P T Node.Bares g.constParameter g.constParameter :=
  .node rfl <| .bind .consume fun _ => .bind .expectName fun _ => .bind .expect fun _ =>
    .bind (.field hg.parse) fun _ => .ifAt (.bind .consume fun _ => .field (.typeArgument hg))

theorem typeParameter (hg : g.Sheds) : Sheds P T Node.Bares g.typeParameter g.typeParameter :=
  .node rfl <| .bind .expectName fun _ => .bind (.traitBoundsIf hg) fun _ =>
    .ifAt (.bind .consume fun _ => .field hg.parse)

theorem genericParameter (hg : g.Sheds) :
    Sheds P T Node.Bares g.genericParameter g.genericParameter := by
  refine .bind .flush fun _ => .kind fun c => ?_
  split
  · exact .lifetimeParameter hg
  · exact .constParameter hg
  · exact .typeParameter hg

theorem genericList (hg : g.Sheds) : Sheds P T Eq g.genericList g.genericList :=
  .list (.bind (.attributes hg) fun _ => .child (.genericParameter hg))

theorem typeParameters (hg : g.Sheds) : Sheds P T Node.Bares g.typeParameters g.typeParameters :=
  .bind .flush fun _ => .node rfl (.genericList hg)

theorem typeParametersIf (hg : g.Sheds) : Sheds P T Eq g.typeParametersIf g.typeParametersIf :=
  .ifAt (.field (.typeParameters hg))

theorem forBinder (hg : g.Sheds) : Sheds P T Node.Bares g.forBinder g.forBinder :=
  .node rfl <| .look (fun _ _ => rfl) fun _ _ => .choose
    (.bind .settle fun _ => .bind .consume fun _ => .list (.child .lifetime))
    (.bind .settle fun _ => .bind (.setKind rfl) fun _ => .bind .consume fun _ => .genericList hg)

/-! ### Where clauses -/

theorem whereSubject (hg : g.Sheds) : Sheds P T Node.Bares g.whereSubject g.whereSubject :=
  .isAt .lifetime hg.parse

theorem wherePredicate (hg : g.Sheds) : Sheds P T Eq g.wherePredicate g.wherePredicate :=
  .draw (.whereSubject hg) fun _ _ h => .child <| .node rfl <| .bind (.pushField h) fun _ =>
    .field (.traitBounds hg)

theorem whereClause (hg : g.Sheds) : Sheds P T Node.Bares g.whereClause g.whereClause :=
  .bind .flush fun _ => .node rfl <| .bind .consume fun _ => .repeatWhile <| .bind .flush fun _ =>
    .kind fun _ => .choose (.bind (.wherePredicate hg) fun _ => .accept) (.pure _)

theorem whereClauseIf (hg : g.Sheds) : Sheds P T Eq g.whereClauseIf g.whereClauseIf :=
  .ifAt (.child (.whereClause hg))

/-! ### Signatures -/

theorem externModifier : Sheds P T Node.Bares Parse.externModifier Parse.externModifier :=
  .bind .flush fun _ => .node rfl <| .bind .consume fun _ => .providedThat .isAtAny (.child .literal)

theorem functionModifier : Sheds P T Eq Parse.functionModifier Parse.functionModifier := by
  refine .kind fun c => ?_
  split
  · exact .bind .consume fun _ => .pure _
  · exact .bind .consume fun _ => .pure _
  · exact .bind .consume fun _ => .pure _
  · exact .bind (.child .externModifier) fun _ => .pure _
  · exact .test .isAtWord (.bind .consumeAs fun _ => .pure _) (.pure _)
  · exact .pure _

theorem functionModifiers : Sheds P T Node.Bares Parse.functionModifiers Parse.functionModifiers :=
  .bind .flush fun _ => .node rfl (.repeatWhile .functionModifier)

theorem consumeDefault : Sheds P T Eq Parse.consumeDefault Parse.consumeDefault :=
  .providedThat .isAtWord .consumeAs

theorem receiver : Sheds P T Node.Bares Parse.receiver Parse.receiver :=
  .bind .flush fun _ => .node rfl <|
    .bind (.ifAt (.bind .consume fun _ => .ifAt (.child .lifetime))) fun _ =>
    .bind .consumeIf fun _ => .expect

theorem bareParameter (hg : g.Sheds) : Sheds P T Eq g.bareParameter g.bareParameter :=
  .look (fun _ _ => rfl) fun _ _ => .choose
    (.child <| .node rfl <| .bind (.field .leaf) fun _ => .bind .consume fun _ => .field hg.parse)
    (.child hg.parse)

theorem parameterPattern (hg : g.Sheds) :
    Sheds P T (Option.Rel Draft.Bares) g.parameterPattern? g.parameterPattern? :=
  .draw (.collectBare (Draft.bares_ofKind rfl) (.bind .consumeIf fun _ => .field hg.parse))
    fun _ _ h => .isAt (.give (.some h)) (.give .none)

/-- The parameter that is reported may end with a comment, where the report then points too. -/
theorem reportAnonymous {range range' : Range} :
    Sheds P T Eq (Grammar.reportAnonymous range) (Grammar.reportAnonymous range') :=
  .options (fun _ => rfl) fun _ => .choose (.reportAlike fun _ => rfl) (.reportAlike fun _ => rfl)

theorem parameter (hg : g.Sheds) {plain : Parse Unit} (hplain : Sheds Anywhere T Eq plain plain) :
    Sheds P T Eq (g.parameter plain) (g.parameter plain) :=
  .bind .flush fun _ => .bind (.attributes hg) fun _ => .look (fun _ _ => rfl) fun _ _ =>
    .choose (.child .receiver) (.choose (.child (.node rfl .consume)) hplain)

theorem namedParameter (hg : g.Sheds) : Sheds P T Eq g.namedParameter g.namedParameter := by
  refine .draw (.speculate (.parameterPattern hg)) fun r r' h => ?_
  cases h with
  | some h => exact .child (.resume h (.bind .consume fun _ => .field hg.parse))
  | none =>
    exact .draw (.node rfl (.field hg.parse)) fun _ _ h => .bind .reportAnonymous fun _ => .push h

theorem parameters (hg : g.Sheds) : Sheds P T Node.Bares g.parameters g.parameters :=
  .bind .flush fun _ => .node rfl <| .unrestricted <| .list <| .parameter hg <| .namedParameter hg

theorem bareParameters (hg : g.Sheds) : Sheds P T Node.Bares g.bareParameters g.bareParameters :=
  .bind .flush fun _ => .node rfl <| .unrestricted <| .list <| .parameter hg <| .bareParameter hg

theorem returnTypeIf (hg : g.Sheds) : Sheds P T Eq g.returnTypeIf g.returnTypeIf :=
  .ifAt (.bind .consume fun _ => .field hg.parse)

/-! ### Paths of types -/

theorem typeAsTrait (hg : g.Sheds) : Sheds P T Node.Bares g.typeAsTrait g.typeAsTrait :=
  .draw hg.parse fun _ _ h => .isAt
    (.node rfl <| .bind (.pushField h) fun _ => .bind .consume fun _ => .field hg.parse) (.give h)

theorem bracketedType (hg : g.Sheds) : Sheds P T Node.Bares g.bracketedType g.bracketedType :=
  .node rfl <| .bind (.ifAt .split) fun _ => .bind .consume fun _ =>
    .bind (.child (.typeAsTrait hg)) fun _ => .expect

theorem pathScope (hg : g.Sheds) :
    Sheds P T (Option.Rel Draft.Bares) g.pathScope g.pathScope :=
  .kind fun _ => .choose
    (.draw (.bracketedType hg) fun _ _ h => .draw (.scopeAfter h) fun _ _ h => .give (.some h))
    (.choose (.draw .globalScope fun _ _ h => .give (.some h)) (.give .none))

theorem isAtPrimitive : Sheds P T Eq Grammar.isAtPrimitive Grammar.isAtPrimitive :=
  .isAt (.bind .tokenText fun _ => .pure _) (.pure _)

theorem typeName {scope scope' : Option Draft} (h : Option.Rel Draft.Bares scope scope') :
    Sheds P T Node.Bares (Grammar.typeName scope) (Grammar.typeName scope') := by
  cases h with
  | some h => exact .resume (h.setKind rfl) (.field .segment)
  | none =>
    refine .bind .isAtPrimitive fun isPrimitive => .draw .segment fun _ _ h => .give ?_
    cases isPrimitive with
    | true => exact h.withKind (by decide)
    | false => exact h

theorem genericType (hg : g.Sheds) {name name' : Node} (h : name.Bares name') :
    Sheds P T Node.Bares (g.genericType name) (g.genericType name') :=
  .node rfl <| .bind (.pushField h) fun _ => .bind .consumeIf fun _ => .field (.typeArguments hg)

theorem functionTrait (hg : g.Sheds) {name name' : Node} (h : name.Bares name') :
    Sheds P T Node.Bares (g.functionTrait name) (g.functionTrait name') :=
  .node rfl <| .bind (.pushField h) fun _ => .bind (.field (.bareParameters hg)) fun _ =>
    .returnTypeIf hg

theorem typePathTurn (hg : g.Sheds) {scope scope' : Option Draft}
    (h : Option.Rel Draft.Bares scope scope') :
    Sheds P T (Step.Rel (Option.Rel Draft.Bares) Node.Bares) (g.typePathTurn scope)
      (g.typePathTurn scope') := by
  refine .look (fun _ _ => rfl) fun s _ => .choose ?_ ?_
  · exact .draw (.segmentIn h) fun _ _ h => .draw (.scopeAfter h) fun _ _ h => .give (.again (.some h))
  · refine .draw (.typeName h) fun name name' h => ?_
    rw [h.kind]
    refine .look (fun _ _ => rfl) fun s _ => .choose ?_ (.choose ?_ (.choose ?_ (.give (.done h))))
    · refine .draw (.genericType hg h) fun _ _ h => .look (fun _ _ => rfl) fun s _ =>
        .choose ?_ (.give (.done h))
      exact .draw (.scopeAfter h) fun _ _ h => .give (.again (.some h))
    · exact .draw (.functionTrait hg h) fun _ _ h => .give (.done h)
    · exact .draw (.macroCall hg h.asPath) fun _ _ h => .give (.done h)

theorem typePath (hg : g.Sheds) : Sheds P T Node.Bares g.typePath g.typePath :=
  .bind .flush fun _ => .draw (.pathScope hg) fun _ _ h => .loop (fun _ _ => .typePathTurn hg) h

/-! ### Types -/

theorem tupleType (hg : g.Sheds) : Sheds P T Node.Bares g.tupleType g.tupleType :=
  .node rfl <| .bind .ahead fun _ => .choose
    (.bind .settle fun _ => .bind (.setKind rfl) fun _ => .bind .consume fun _ => .consume)
    (.list (.child hg.parse))

theorem arrayType (hg : g.Sheds) : Sheds P T Node.Bares g.arrayType g.arrayType :=
  .node rfl <| .bind .consume fun _ => .bind (.field hg.parse) fun _ =>
    .bind (.ifAt (.bind .consume fun _ => .field (.unrestricted hg.parse))) fun _ => .expect

theorem referenceType (hg : g.Sheds) : Sheds P T Node.Bares g.referenceType g.referenceType :=
  .node rfl <| .isAt (.bind .split fun _ => .bind .consume fun _ => .field hg.parse)
    (.bind .consume fun _ => .bind (.ifAt (.child .lifetime)) fun _ =>
      .bind .consumeIf fun _ => .field hg.parse)

theorem pointerModifier : Sheds P T Eq Grammar.pointerModifier Grammar.pointerModifier :=
  .test .isAtAny .consume .reportExpected

theorem pointerType (hg : g.Sheds) : Sheds P T Node.Bares g.pointerType g.pointerType :=
  .node rfl <| .bind .consume fun _ => .bind .pointerModifier fun _ => .field hg.parse

theorem boundSum (hg : g.Sheds) : Sheds P T Node.Bares g.boundSum g.boundSum := by
  refine .draw (.bound hg) fun _ _ h => .loop (R := Node.Bares) (fun _ _ h => ?_) h
  refine .isAt (.draw (.node rfl ?_) fun _ _ h => .give (.again h)) (.give (.done h))
  exact .bind (.push h) fun _ => .bind .consume fun _ => .child (.bound hg)

theorem boundedType (hg : g.Sheds) {kind : Kind} (hk : (kind == .macroInvocation) = false) :
    Sheds P T Node.Bares (g.boundedType kind) (g.boundedType kind) :=
  .node hk (.bind .consume fun _ => .field (.boundSum hg))

theorem functionTypeRest (hg : g.Sheds) : Sheds P T Eq g.functionTypeRest g.functionTypeRest :=
  .bind .isAtAny fun _ => .bind (.provided (.child .functionModifiers)) fun _ =>
    .bind .expect fun _ => .bind (.field (.bareParameters hg)) fun _ => .returnTypeIf hg

theorem boundType (hg : g.Sheds) : Sheds P T Node.Bares g.boundType g.boundType :=
  .draw (.forBinder hg) fun _ _ h => .test .isAtAny
    (.node rfl <| .bind (.push h) fun _ => .functionTypeRest hg)
    (.node rfl <| .bind (.pushField h) fun _ => .field hg.parse)

theorem typeForm (hg : g.Sheds) : Sheds P T Node.Bares g.typeForm g.typeForm := by
  refine .kind fun c => ?_
  split
  case h_1 => exact .tupleType hg
  case h_2 => exact .arrayType hg
  case h_3 | h_4 => exact .referenceType hg
  case h_5 => exact .pointerType hg
  case h_6 => exact .node rfl .consume
  case h_7 | h_8 => exact .leaf
  case h_9 | h_10 => exact .boundedType hg rfl
  case h_11 | h_12 | h_13 => exact .node rfl (.functionTypeRest hg)
  case h_14 => exact .boundType hg
  case h_23 => exact .bind .reportExpected fun _ => .missing
  all_goals exact .typePath hg

theorem type (hg : g.Sheds) : Sheds P T Node.Bares g.type g.type :=
  .bind .flush fun _ => .guarded (.typeForm hg)

/-! ### Paths of values -/

theorem withArguments (hg : g.Sheds) {path path' : Node} (h : path.Bares path') :
    Sheds P T Node.Bares (g.withArguments path) (g.withArguments path') :=
  .look (fun _ _ => rfl) fun _ _ => .choose (.bind .settle fun _ => .node rfl <|
    .bind (.pushField h) fun _ => .bind .consume fun _ => .field (.typeArguments hg)) (.give h)

theorem valuePathTurn (hg : g.Sheds) {scope scope' : Option Draft}
    (h : Option.Rel Draft.Bares scope scope') :
    Sheds P T (Step.Rel (Option.Rel Draft.Bares) Node.Bares) (g.valuePathTurn scope)
      (g.valuePathTurn scope') := by
  refine .draw (.segmentIn h) fun _ _ h => .draw (.withArguments hg h) fun path path' h => ?_
  have hbefore : (if path.kind == .genericFunction then path.asType else path).Bares
      (if path'.kind == .genericFunction then path'.asType else path') := by
    rw [h.kind]
    split
    · exact h.asType
    · exact h
  refine .look (fun _ _ => rfl) fun s _ => .choose ?_ (.give (.done h))
  exact .draw (.scopeAfter hbefore) fun _ _ h => .give (.again (.some h))

theorem valuePath (hg : g.Sheds) : Sheds P T Node.Bares g.valuePath g.valuePath :=
  .bind .flush fun _ => .draw (.pathScope hg) fun _ _ h => .loop (fun _ _ => .valuePathTurn hg) h

/-! ### Patterns -/

theorem literalPattern : Sheds P T Node.Bares Grammar.literalPattern Grammar.literalPattern :=
  .isAt .negativeLiteral .literal

theorem rangeBound (hg : g.Sheds) : Sheds P T Node.Bares g.rangeBound g.rangeBound := by
  refine .bind .flush fun _ => .kind fun c => ?_
  split
  case h_13 => exact .bind .reportExpected fun _ => .missing
  all_goals first | exact .literalPattern | exact .valuePath hg

theorem rangeTo (hg : g.Sheds) : Sheds P T Node.Bares g.rangeTo g.rangeTo :=
  .node rfl <| .bind .consume fun _ => .field (.rangeBound hg)

theorem rangeFrom (hg : g.Sheds) {left left' : Node} (h : left.Bares left') :
    Sheds P T Node.Bares (g.rangeFrom left) (g.rangeFrom left') :=
  .kind fun _ => .choose (.node rfl <| .bind (.pushField h) fun _ => .bind .consume fun _ =>
    .kind fun _ => .choose (.field (.rangeBound hg)) (.pure _)) (.give h)

theorem patterns (hg : g.Sheds) {opener closer : Kind} :
    Sheds P T Eq (g.patterns opener closer) (g.patterns opener closer) :=
  .list (.child hg.parse)

theorem tuplePattern (hg : g.Sheds) : Sheds P T Node.Bares g.tuplePattern g.tuplePattern :=
  .node rfl <| .bind .ahead fun _ => .bind (.provided .settle) fun _ => .patterns hg

theorem fieldPattern (hg : g.Sheds) : Sheds P T Node.Bares g.fieldPattern g.fieldPattern :=
  .bind .flush fun _ => .isAt (.node rfl .consume) <| .node rfl <| .bind .consumeIf fun _ =>
    .bind .consumeIf fun _ => .look (fun _ _ => rfl) fun _ _ => .choose
      (.bind .memberName fun _ => .bind .consume fun _ => .field hg.parse) .expectName

theorem structPattern (hg : g.Sheds) {path path' : Node} (h : path.Bares path') :
    Sheds P T Node.Bares (g.structPattern path) (g.structPattern path') :=
  .node rfl <| .bind (.pushField h.asType) fun _ =>
    .list (.bind (.attributes hg) fun _ => .child (.fieldPattern hg))

theorem pathPattern (hg : g.Sheds) : Sheds P T Node.Bares g.pathPattern g.pathPattern := by
  refine .draw (.valuePath hg) fun _ _ h => .look (fun _ _ => rfl) fun s _ =>
    .choose (.node rfl ?_) ?_
  · exact .bind (.pushField h) fun _ => .patterns hg
  · exact .choose (.structPattern hg h) (.choose (.macroCall hg h) (.rangeFrom hg h))

theorem referencePattern (hg : g.Sheds) :
    Sheds P T Node.Bares g.referencePattern g.referencePattern :=
  .node rfl <| .isAt (.bind .split fun _ => .bind .consume fun _ => .child hg.parse)
    (.bind .consume fun _ => .bind .consumeIf fun _ => .child hg.parse)

theorem modifiedPattern (hg : g.Sheds) {kind : Kind} (hk : (kind == .macroInvocation) = false) :
    Sheds P T Node.Bares (g.modifiedPattern kind) (g.modifiedPattern kind) :=
  .node hk (.bind .consume fun _ => .child hg.parse)

theorem patternForm (hg : g.Sheds) : Sheds P T Node.Bares g.patternForm g.patternForm := by
  refine .look (fun _ _ => rfl) fun s _ => ?_
  split
  case h_1 => exact .leaf
  case h_2 => exact .choose (.rangeTo hg) (.node rfl .consume)
  case h_3 => exact .rangeTo hg
  case h_4 => exact .tuplePattern hg
  case h_5 => exact .node rfl (.patterns hg)
  case h_6 | h_7 => exact .referencePattern hg
  case h_8 | h_9 => exact .modifiedPattern hg rfl
  case h_10 | h_11 | h_12 | h_13 | h_14 | h_15 | h_16 | h_17 =>
    exact .draw .literalPattern fun _ _ h => .rangeFrom hg h
  case h_18 => exact .choose (.pathPattern hg) .leaf
  case h_27 => exact .bind .reportExpected fun _ => .missing
  all_goals exact .pathPattern hg

theorem singlePattern (hg : g.Sheds) : Sheds P T Node.Bares g.singlePattern g.singlePattern :=
  .bind .flush fun _ => .draw (.guarded (.patternForm hg)) fun _ _ h => .isAt
    (.node rfl <| .bind (.push h) fun _ => .bind .consume fun _ => .child hg.parse) (.give h)

theorem firstAlternative (hg : g.Sheds) :
    Sheds P T Node.Bares g.firstAlternative g.firstAlternative :=
  .isAt (.node rfl (.bind .consume fun _ => .child hg.parse)) hg.parse

theorem alternativeTurn (hg : g.Sheds) {pattern pattern' : Node} (h : pattern.Bares pattern') :
    Sheds P T (Step.Rel Node.Bares Node.Bares) (g.alternativeTurn pattern)
      (g.alternativeTurn pattern') := by
  refine .isAt (.draw (.node rfl ?_) fun _ _ h => .give (.again h)) (.give (.done h))
  exact .bind (.push h) fun _ => .bind .consume fun _ => .child hg.parse

theorem alternatives (hg : g.Sheds) : Sheds P T Node.Bares g.alternatives g.alternatives :=
  .draw (.firstAlternative hg) fun _ _ h => .loop (fun _ _ => .alternativeTurn hg) h

theorem pattern (hg : g.Sheds) : Sheds P T Node.Bares g.pattern g.pattern :=
  .bind .flush fun _ => .guarded (.alternatives hg)

end ConcreteSyntax.Parse.Sheds
