import ConcreteSyntax.Grammar.Statement
import ConcreteSyntax.Proofs.Shelters.Type

/-! # Operators, items and statements that shelter literals

The productions of operators, items and statements shelter literals, if the nonterminals inside them do.
An operand is exposed where its operator is, so the forms around it expose what the place lets them;
arguments and indices stand between delimiters. Items and statements stand between braces or at the top
of a text, where anything may be exposed. -/

namespace ConcreteSyntax.Parse.Shelters

variable {text : List Char} {a : Option Kind} {p : Pledge} {T : Frame} {g : Grammar}

/-! ### Postfix forms -/

theorem expression (hg : g.Shelters text) (hp : p ≠ .nowhere) :
    Shelters text a p T (Node.Fine p) g.expression := hg.expression hp

theorem argument (hg : g.Shelters text) : Shelters text a .anywhere T Anything g.argument :=
  .bind (.attributes hg) fun _ => .child (.expression hg nofun)

theorem arguments (hg : g.Shelters text) : Shelters text a p T (Node.Fine p) g.arguments :=
  .bind .flush fun _ => .node rfl (.unrestricted (.group rfl rfl (.argument hg)))

section Postfix

variable {n : Node}

theorem call (hg : g.Shelters text) (h : n.Fine p) :
    Shelters text a p T (Node.Fine p) (g.call n) :=
  .node rfl <| .bind (.pushField h rfl) fun _ => .field rfl (.arguments hg)

theorem index (hg : g.Shelters text) (h : n.Fine p) :
    Shelters text (some .openBracket) p T (Node.Fine p) (g.index n) :=
  .node rfl <| .pushing h <| .tokenRange fun _ => .enclosed rfl <|
    .bind (.child (.released (.expression hg nofun))) fun _ => .close

theorem question (h : n.Fine p) : Shelters text a p T (Node.Fine p) (Grammar.question n) :=
  .node rfl <| .bind (.push h) fun _ => .consume

theorem fieldName : Shelters text a p T Anything Grammar.fieldName := by
  refine .kind fun c => ?_
  split
  · exact .consumeFieldAs rfl
  · exact .consumeField
  · exact .field rfl .tupleIndex
  · exact .bind .reportExpected fun _ => .pushMissingField rfl

theorem dotted (h : n.Fine p) : Shelters text a p T (Node.Fine p) (Grammar.dotted n) :=
  .ahead fun _ => .choose
    (.node rfl <| .bind (.push h) fun _ => .bind .consume fun _ => .consume)
    (.node rfl <| .bind (.pushField h rfl) fun _ => .bind (.consumeWith nofun ⟨rfl, rfl⟩) fun _ =>
      .fieldName)

theorem methodArguments (hg : g.Shelters text) (h : n.Fine p) :
    Shelters text a p T (Node.Fine p) (g.methodArguments n) :=
  .node rfl <| .bind (.pushField h rfl) fun _ => .bind .consume fun _ => .field rfl (.typeArguments hg)

theorem postfixTurn (hg : g.Shelters text) (h : n.Fine p) :
    Shelters text a p T (Step.Ends (Node.Fine p) (Node.Fine p)) (g.postfixTurn n) := by
  refine .look fun s => ?_
  split
  · exact .draw (.call hg h) fun _ h => .give h
  · next hk =>
    rw [hk]
    exact .draw (.index hg h) fun _ h => .give h
  · exact .draw (.question h) fun _ h => .give h
  · exact .draw (.dotted h) fun _ h => .give h
  · exact .choose (.draw (.methodArguments hg h) fun _ h => .give h) (.give h)
  · exact .give h

theorem postfixForms (hg : g.Shelters text) (h : n.Fine p) :
    Shelters text a p T (Node.Fine p) (g.postfixForms n) :=
  .loop (fun _ h => .postfixTurn hg h) h

/-! ### Infix operators -/

theorem cast (hg : g.Shelters text) (h : n.Fine p) :
    Shelters text a p T (Node.Fine p) (g.cast n) :=
  .node rfl <| .bind (.pushField h rfl) fun _ => .bind .consume fun _ => .field rfl (hg.parse rfl)

theorem rangeAfter (hg : g.Shelters text) (hp : p ≠ .nowhere) (h : n.Fine p) :
    Shelters text a p T (Node.Fine p) (g.rangeAfter n) :=
  .node rfl <| .bind (.push h) fun _ => .bind .consume fun _ =>
    .test .isAtExpression (.child (hg.expression hp)) (.pure _)

theorem infixMark {operator : OperatorClass} :
    Shelters text a p T Anything (Grammar.infixMark operator) :=
  .choose .consume .consumeField

theorem binary (hg : g.Shelters text) (hp : p ≠ .nowhere) {operator : OperatorClass}
    (h : n.Fine p) : Shelters text a p T (Node.Fine p) (g.binary operator n) :=
  .node (by cases operator <;> rfl) <| .bind (.pushField h rfl) fun _ => .bind .infixMark fun _ =>
    .field rfl (hg.expression hp)

theorem infixTurn (hg : g.Shelters text) (hp : p ≠ .nowhere) {min : Precedence} (h : n.Fine p) :
    Shelters text a p T (Step.Ends (Node.Fine p) (Node.Fine p)) (g.infixTurn min n) := by
  refine .bind .operatorKind fun k => ?_
  split
  · exact .give h
  · split
    · exact .give h
    · split
      · exact .draw (.cast hg h) fun _ h => .give h
      · exact .choose (.give h) (.draw (.rangeAfter hg hp h) fun _ h => .give h)
      · exact .draw (.binary hg hp h) fun _ h => .give h

theorem infixForms (hg : g.Shelters text) (hp : p ≠ .nowhere) {min : Precedence} (h : n.Fine p) :
    Shelters text a p T (Node.Fine p) (g.infixForms min n) :=
  .loop (fun _ h => .infixTurn hg hp h) h

end Postfix

theorem statementExpression (hg : g.Shelters text) (hp : p ≠ .nowhere) :
    Shelters text a p T (fun r => r.1.Fine p) g.statementExpression := by
  refine .bind .flush fun _ => .look fun s => .choose ?_ ?_
  · refine .draw (hg.expression hp) fun _ h => .test .isAtAny ?_ (.give h)
    exact .draw (.postfixForms hg h) fun _ h => .draw (.infixForms hg hp h) fun _ h => .give h
  · exact .draw (.expression hg hp) fun _ h => .give h

/-! ### Constants, functions and macros -/

theorem typedValue (hg : g.Shelters text) :
    Shelters text a .anywhere .headless Anything g.typedValue :=
  .bind (.expect rfl) fun _ => .bind (.field rfl (hg.parse rfl)) fun _ =>
    .bind (.ifAt (.bind .consume fun _ => .field rfl (.expression hg nofun))) fun _ => .expect rfl

theorem constItem (hg : g.Shelters text) :
    Shelters text a .anywhere .headless Anything g.constItem :=
  .bind (.setKind rfl) fun _ => .bind .consumeDefault fun _ => .bind .consume fun _ =>
    .bind .markOrName fun _ => .typedValue hg

theorem reportReference : Shelters text a p T Anything Grammar.reportReference :=
  .bind .options fun _ => .provided .reportHere

theorem staticItem (hg : g.Shelters text) :
    Shelters text a .anywhere .headless Anything g.staticItem :=
  .bind (.setKind rfl) fun _ => .bind .consume fun _ =>
    .bind (.ifAt (.bind .reportReference fun _ => .consume)) fun _ => .bind .consumeIf fun _ =>
    .bind (.expectName rfl) fun _ => .typedValue hg

theorem functionEnd (hg : g.Shelters text) : Shelters text a p .headless Anything g.functionEnd := by
  refine .kind fun c => ?_
  split
  · exact .field rfl (hg.parse rfl)
  · exact .bind (.setKind rfl) fun _ => .consume
  · exact .test .absorbBrace (.pure _) .reportExpected

theorem isAtFunctionModifier : Shelters text a p T Anything Grammar.isAtFunctionModifier :=
  .test .isAtAny (.pure _) .isAtWord

theorem functionItem (hg : g.Shelters text) :
    Shelters text a p .headless Anything g.functionItem :=
  .bind (.setKind rfl) fun _ => .bind .isAtFunctionModifier fun _ =>
    .bind (.provided (.child .functionModifiers)) fun _ => .bind (.expect rfl) fun _ =>
    .bind (.expectName rfl) fun _ => .bind (.typeParametersIf hg) fun _ =>
    .bind (.field rfl (.parameters hg)) fun _ => .bind (.returnTypeIf hg) fun _ =>
    .bind (.whereClauseIf hg) fun _ => .functionEnd hg

theorem macroRule (hg : g.Shelters text) : Shelters text a p T (Node.Fine p) g.macroRule :=
  .bind .flush fun _ => .node rfl <| .bind (.field rfl (hg.parse rfl)) fun _ => .bind (.expect rfl) fun _ =>
    .field rfl (hg.parse rfl)

theorem macroEntry (hg : g.Shelters text) {c : Kind} :
    Shelters text a p T Anything (g.macroEntry c) :=
  .choose .consume (.choose (.child (.macroRule hg))
    (.bind .reportUnexpected fun _ => .child .skipGroup))

theorem macroRules (hg : g.Shelters text) {opener closer : Kind} (hc : closer.isHeadless = true)
    {range : Range} : Shelters text a p T Anything (g.macroRules opener closer range) :=
  .repeatWhile <| .bind .flush fun _ => .kind fun _ => .choose
    (.bind (.treeCloser hc) fun _ => .pure _) (.bind (.macroEntry hg) fun _ => .pure _)

theorem macroDefinition (hg : g.Shelters text) :
    Shelters text a p .headless Anything g.macroDefinition := by
  refine .bind (.setKind rfl) fun _ => .bind (.consumeAs rfl) fun _ => .bind (.expect rfl) fun _ =>
    .bind (.expectName rfl) fun _ => .bind .flush fun _ => .kind fun c => ?_
  split
  · exact .reportExpected
  · next closer hcloser =>
    refine .tokenRange fun _ => .bind .consume fun _ => ?_
    exact .bind (.macroRules hg (isHeadless_of_closer hcloser)) fun _ => .choose (.pure _) (.expect rfl)

/-! ### Traits and implementations -/

theorem declarations (hg : g.Shelters text) : Shelters text a p T Anything g.declarations :=
  .field rfl (hg.parse rfl)

theorem traitItem (hg : g.Shelters text) : Shelters text a p .headless Anything g.traitItem :=
  .bind (.setKind rfl) fun _ => .bind .consumeIf fun _ => .bind .isAtWord fun _ =>
    .bind (.provided (.consumeAs rfl)) fun _ =>
    .bind (.expect rfl) fun _ => .bind (.expectName rfl) fun _ => .bind (.typeParametersIf hg) fun _ =>
    .bind (.traitBoundsIf hg) fun _ => .bind (.whereClauseIf hg) fun _ => .declarations hg

theorem implementedType (hg : g.Shelters text) :
    Shelters text a p T Anything g.implementedType :=
  .draw (hg.parse rfl) fun _ h => .isAt
    (.bind (.pushField h rfl) fun _ => .bind .consume fun _ => .field rfl (hg.parse rfl)) (.pushField h rfl)

theorem implItem (hg : g.Shelters text) : Shelters text a p .headless Anything g.implItem :=
  .bind (.setKind rfl) fun _ => .bind .consumeDefault fun _ => .bind .consumeIf fun _ =>
    .bind (.expect rfl) fun _ => .bind (.typeParametersIf hg) fun _ => .bind .consumeIf fun _ =>
    .bind (.implementedType hg) fun _ => .bind (.whereClauseIf hg) fun _ =>
    .isAt .consume (.declarations hg)

theorem typeItem (hg : g.Shelters text) : Shelters text a p .headless Anything g.typeItem :=
  .bind (.setKind rfl) fun _ => .bind .consumeDefault fun _ => .bind .consume fun _ =>
    .bind (.expectName rfl) fun _ => .bind (.typeParametersIf hg) fun _ =>
    .bind (.traitBoundsIf hg) fun _ => .bind (.whereClauseIf hg) fun _ =>
    .bind (.ifAt (.bind (.setKind rfl) fun _ => .bind .consume fun _ =>
      .bind (.field rfl (hg.parse rfl)) fun _ => .whereClauseIf hg)) fun _ => .expect rfl

/-! ### Modules and imports -/

theorem modItem (hg : g.Shelters text) : Shelters text a p .headless Anything g.modItem :=
  .bind (.setKind rfl) fun _ => .bind .consume fun _ => .bind (.expectName rfl) fun _ =>
    .isAt .consume (.declarations hg)

theorem foreignModItem (hg : g.Shelters text) :
    Shelters text a p .headless Anything g.foreignModItem :=
  .bind (.setKind rfl) fun _ => .bind .consumeIf fun _ => .bind (.child .externModifier) fun _ =>
    .declarations hg

theorem newName : Shelters text a p T Anything Grammar.newName :=
  .bind .consume fun _ => .markOrName

theorem externCrateDeclaration :
    Shelters text a p .headless Anything Grammar.externCrateDeclaration :=
  .bind (.setKind rfl) fun _ => .bind .consume fun _ => .bind .consume fun _ =>
    .bind .markOrName fun _ => .bind (.ifAt .newName) fun _ => .expect rfl

theorem imports (hg : g.Shelters text) : Shelters text a p T (Node.Fine p) g.imports :=
  .bind .flush fun _ => .node rfl (.list rfl rfl (.child (hg.parse rfl)))

theorem globalImports (hg : g.Shelters text) :
    Shelters text a p T (Node.Fine p) g.globalImports :=
  .node rfl <| .bind .consume fun _ =>
    .isAt (.bind (.setKind rfl) fun _ => .consume) (.field rfl (.imports hg))

theorem importsFrom (hg : g.Shelters text) {path : Node} (h : path.Fine p) :
    Shelters text a p T (Node.Fine p) (g.importsFrom path) := by
  refine .look fun s =>
    .choose (.node rfl ?_) (.choose (.node rfl ?_) (.choose (.node rfl ?_) (.give h)))
  · exact .bind (.pushField h rfl) fun _ => .bind .consume fun _ => .field rfl (.imports hg)
  · exact .bind (.push h) fun _ => .bind .consume fun _ => .consume
  · exact .bind (.pushField h rfl) fun _ => .newName

theorem useClause (hg : g.Shelters text) : Shelters text a p T (Node.Fine p) g.useClause :=
  .bind .flush fun _ => .look fun _ => .choose (.imports hg)
    (.choose (.node rfl .consume) (.choose (.globalImports hg)
      (.draw .simplePath fun _ h => .importsFrom hg h)))

theorem useDeclaration (hg : g.Shelters text) :
    Shelters text a p .headless Anything g.useDeclaration :=
  .bind (.setKind rfl) fun _ => .bind .consume fun _ => .bind (.field rfl (hg.parse rfl)) fun _ =>
    .expect rfl

/-! ### Structures and enumerations -/

theorem fieldDeclaration (hg : g.Shelters text) :
    Shelters text a p T Anything g.fieldDeclaration :=
  .bind (.attributes hg) fun _ => .bind .flush fun _ => .child <| .node rfl <|
    .bind .visibilityIf fun _ => .bind (.expectName rfl) fun _ => .bind (.expect rfl) fun _ =>
    .field rfl (hg.parse rfl)

theorem fieldDeclarations (hg : g.Shelters text) :
    Shelters text a p T (Node.Fine p) g.fieldDeclarations :=
  .bind .flush fun _ => .node rfl (.list rfl rfl (.fieldDeclaration hg))

theorem orderedFieldDeclarations (hg : g.Shelters text) :
    Shelters text a p T (Node.Fine p) g.orderedFieldDeclarations :=
  .bind .flush fun _ => .node rfl <| .list rfl rfl <| .bind (.attributes hg) fun _ =>
    .bind .visibilityIf fun _ => .field rfl (hg.parse rfl)

theorem structureBody (hg : g.Shelters text) {isStruct : Bool} :
    Shelters text a p T Anything (g.structureBody isStruct) := by
  refine .kind fun _ => .choose (.field rfl (.fieldDeclarations hg)) (.choose ?_ ?_)
  · exact .bind (.field rfl (.orderedFieldDeclarations hg)) fun _ => .bind (.whereClauseIf hg) fun _ =>
      .expect rfl
  · exact .choose .consume (.test .absorbBrace (.pure _) .reportExpected)

theorem structItem (hg : g.Shelters text) : Shelters text a p .headless Anything g.structItem :=
  .bind (.setKind rfl) fun _ => .bind .consume fun _ => .bind (.expectName rfl) fun _ =>
    .bind (.typeParametersIf hg) fun _ => .bind (.whereClauseIf hg) fun _ => .structureBody hg

theorem unionItem (hg : g.Shelters text) : Shelters text a p .headless Anything g.unionItem :=
  .bind (.setKind rfl) fun _ => .bind (.consumeAs rfl) fun _ => .bind (.expectName rfl) fun _ =>
    .bind (.typeParametersIf hg) fun _ => .bind (.whereClauseIf hg) fun _ => .structureBody hg

theorem variantFields (hg : g.Shelters text) : Shelters text a p T Anything g.variantFields := by
  refine .kind fun c => ?_
  split
  · exact .field rfl (.fieldDeclarations hg)
  · exact .field rfl (.orderedFieldDeclarations hg)
  · exact .pure _

theorem variant (hg : g.Shelters text) :
    Shelters text a .anywhere T (Node.Fine .anywhere) g.variant :=
  .bind .flush fun _ => .node rfl <| .bind .visibilityIf fun _ => .bind (.expectName rfl) fun _ =>
    .bind (.variantFields hg) fun _ => .ifAt (.bind .consume fun _ =>
      .field rfl (.expression hg nofun))

theorem enumItem (hg : g.Shelters text) : Shelters text a p .headless Anything g.enumItem :=
  .bind (.setKind rfl) fun _ => .bind .consume fun _ => .bind (.expectName rfl) fun _ =>
    .bind (.typeParametersIf hg) fun _ => .bind (.whereClauseIf hg) fun _ => .bind .flush fun _ =>
    .field rfl <| .node rfl <| .group rfl rfl <| .bind (.attributes hg) fun _ => .child (.variant hg)

/-! ### Items -/

theorem notAnItem : Shelters text a p T Anything Grammar.notAnItem :=
  .bind .reportExpected fun _ => .failDraft

section Items

variable {s : Session}

theorem itemAtConst (hg : g.Shelters text) :
    Shelters text a .anywhere .headless Anything (g.itemAtConst s) :=
  .choose (.functionItem hg) (.constItem hg)

theorem itemAtUnsafe (hg : g.Shelters text) :
    Shelters text a .anywhere .headless Anything (g.itemAtUnsafe s) := by
  unfold Grammar.itemAtUnsafe
  split
  · exact .implItem hg
  · exact .traitItem hg
  · exact .bind .textAhead fun _ => .choose (.traitItem hg) (.functionItem hg)
  · exact .choose (.foreignModItem hg) (.functionItem hg)
  · exact .functionItem hg

theorem itemAtExtern (hg : g.Shelters text) :
    Shelters text a .anywhere .headless Anything (g.itemAtExtern s) :=
  .choose .externCrateDeclaration (.choose (.foreignModItem hg) (.functionItem hg))

theorem itemAtDefault (hg : g.Shelters text) :
    Shelters text a .anywhere .headless Anything (g.itemAtDefault s) := by
  unfold Grammar.itemAtDefault
  split
  · exact .implItem hg
  · exact .typeItem hg
  · exact .choose (.functionItem hg) (.constItem hg)
  · exact .functionItem hg

theorem itemAtWord (hg : g.Shelters text) :
    Shelters text a .anywhere .headless Anything (g.itemAtWord s) := by
  refine .bind .tokenText fun word => ?_
  split
  · exact .choose (.unionItem hg) .notAnItem
  · exact .choose (.traitItem hg) .notAnItem
  · exact .choose (.macroDefinition hg) .notAnItem
  · exact .itemAtDefault hg
  · exact .notAnItem

end Items

theorem itemForm (hg : g.Shelters text) :
    Shelters text a .anywhere .headless Anything g.itemForm := by
  refine .look fun s => ?_
  split
  case h_1 | h_2 => exact .functionItem hg
  case h_3 => exact .itemAtConst hg
  case h_4 => exact .itemAtUnsafe hg
  case h_5 => exact .itemAtExtern hg
  case h_6 => exact .staticItem hg
  case h_7 => exact .structItem hg
  case h_8 => exact .enumItem hg
  case h_9 => exact .traitItem hg
  case h_10 => exact .implItem hg
  case h_11 => exact .typeItem hg
  case h_12 => exact .modItem hg
  case h_13 => exact .useDeclaration hg
  case h_14 => exact .itemAtWord hg
  case h_15 => exact .notAnItem

theorem item (hg : g.Shelters text) : Shelters text a .anywhere T Anything g.item := by
  refine .bind .flush fun _ => .isAt (.bind (.child (.attributeItem hg)) fun _ => .pure _) ?_
  refine .test .isAtItem (.bind (.child (.node rfl ?_)) fun _ => .pure _) (.pure _)
  exact .bind .visibilityIf fun _ => .itemForm hg

/-! ### Statements -/

theorem letDeclaration (hg : g.Shelters text) :
    Shelters text a .anywhere T (Node.Fine .anywhere) g.letDeclaration :=
  .node rfl <| .bind .consume fun _ => .bind .consumeIf fun _ => .bind (.field rfl (hg.parse rfl)) fun _ =>
    .bind (.ifAt (.bind .consume fun _ => .field rfl (hg.parse rfl))) fun _ =>
    .bind (.ifAt (.bind .consume fun _ => .field rfl (.expression hg nofun))) fun _ =>
    .bind (.ifAt (.bind .consume fun _ => .field rfl (hg.parse rfl))) fun _ => .expect rfl

theorem expressionStatement (hg : g.Shelters text) :
    Shelters text a .anywhere T Anything g.expressionStatement := by
  refine .draw (.statementExpression hg nofun) fun (n, isBlockLike) h => .kind fun _ => ?_
  refine .choose (.child (.node rfl ?_)) (.choose (.child (.node rfl (.push h))) (.choose (.push h)
    (.child (.node rfl ?_))))
  · exact .bind (.push h) fun _ => .consume
  · exact .bind (.push h) fun _ => .expect rfl

theorem statement (hg : g.Shelters text) : Shelters text a .anywhere T Anything g.statement := by
  refine .bind .flush fun _ => .kind fun c => ?_
  split
  · exact .child (.node rfl .consume)
  · exact .child (.letDeclaration hg)
  · exact .test .isAtItem (.bind (.item hg) fun _ => .pure _)
      (.test .isAtExpression (.expressionStatement hg) (.pure _))

theorem itemStatement (hg : g.Shelters text) :
    Shelters text a .anywhere T Anything g.itemStatement :=
  .bind .isAtMacro fun _ => .bind .isAtItem fun _ => .choose (.expressionStatement hg)
    (.test (.item hg) (.pure _) .recoverUntil)

theorem rowStatement (hg : g.Shelters text) {row : Grammar.Row} :
    Shelters text a .anywhere T Anything (g.rowStatement row) :=
  .choose (.itemStatement hg) (.statement hg)

theorem rowMember (hg : g.Shelters text) {row : Grammar.Row} :
    Shelters text a .anywhere T Anything (g.rowMember row) :=
  .bind .offset fun _ => .bind (.rowStatement hg) fun _ => .look fun _ =>
    .choose .recoverUntil (.pure _)

theorem rowTurn (hg : g.Shelters text) {row : Grammar.Row} :
    Shelters text a .anywhere T Anything (g.rowTurn row) := by
  refine .bind .flush fun _ => .kind fun c => ?_
  split
  · exact .pure _
  · refine .bind .absorbBrace fun _ => .choose (.pure _) (.choose (.pure _) ?_)
    exact .bind .reportUnexpected fun _ => .bind (.child (.node rfl .consume)) fun _ => .pure _
  · exact .bind (.rowMember hg) fun _ => .pure _

theorem statements (hg : g.Shelters text) {row : Grammar.Row} :
    Shelters text a .anywhere T Anything (g.statements row) :=
  .repeatWhile (.rowTurn hg)

theorem braced (hg : g.Shelters text) {row : Grammar.Row} :
    Shelters text a p T Anything (g.braced row) :=
  .isAt (.tokenRange fun _ => .enclosed rfl <| .bind (.statements hg) fun _ => .close)
    (.missingGroup rfl rfl)

theorem blockBody (hg : g.Shelters text) : Shelters text a p T Anything g.blockBody :=
  .unrestricted (.braced hg)

theorem block (hg : g.Shelters text) : Shelters text a p T (Node.Fine p) g.block :=
  .bind .flush fun _ => .guarded (.node rfl (.blockBody hg))

theorem declarationList (hg : g.Shelters text) :
    Shelters text a p T (Node.Fine p) g.declarationList :=
  .bind .flush fun _ => .node rfl (.braced hg)

end ConcreteSyntax.Parse.Shelters
