import ConcreteSyntax.Grammar.Statement
import ConcreteSyntax.Proofs.Rereading.Type

/-! # Operators, items and statements that are composed

The productions of operators, items and statements compose nodes that may be read again, if the
nonterminals inside them do. Only in an operation do the labels count: whatever is no operand of it is
a token or a comment. -/

namespace ConcreteSyntax.Parse.Composes

variable {T : Mould} {g : Grammar}

/-! ### Postfix forms -/

theorem argument (hg : g.Composes) : Composes .plain Anything g.argument :=
  .bind (.attributes hg) fun _ => .child hg.parse

theorem arguments (hg : g.Composes) : Composes T Node.Rereadable g.arguments :=
  .bind .flush fun _ => .node rfl (.unrestricted (.list rfl rfl (.argument hg)))

section Postfix

variable {n : Node}

theorem call (hg : g.Composes) (h : n.Rereadable) : Composes T Node.Rereadable (g.call n) :=
  .node rfl <| .bind (.pushField h) fun _ => .field (.arguments hg)

theorem index (hg : g.Composes) (h : n.Rereadable) : Composes T Node.Rereadable (g.index n) :=
  .node rfl <| .bind (.push h) fun _ => .tokenRange fun _ => .bind .consume fun _ =>
    .bind (.child (.restricted hg.parse)) fun _ => .close

theorem question (h : n.Rereadable) : Composes T Node.Rereadable (Grammar.question n) :=
  .node rfl <| .bind (.push h) fun _ => .consume

theorem fieldName : Composes .plain Anything Grammar.fieldName := by
  refine .kind fun c => ?_
  split
  · exact .consumeFieldAs rfl
  · exact .consumeField
  · exact .field .tupleIndex
  · exact .bind .reportExpected fun _ => .pushMissingField rfl

theorem dotted (h : n.Rereadable) : Composes T Node.Rereadable (Grammar.dotted n) :=
  .ahead fun _ => .choose
    (.node rfl <| .bind (.push h) fun _ => .bind .consume fun _ => .consume)
    (.node rfl <| .bind (.pushField h) fun _ => .bind (.consumeWith readPlain_none) fun _ =>
      .fieldName)

theorem methodArguments (hg : g.Composes) (h : n.Rereadable) :
    Composes T Node.Rereadable (g.methodArguments n) :=
  .nodeOver begins_arguments h rfl <| .bind .consume fun _ => .part rfl (.typeArguments hg)

theorem postfixTurn (hg : g.Composes) (h : n.Rereadable) :
    Composes T (Step.Ends Node.Rereadable Node.Rereadable) (g.postfixTurn n) := by
  refine .look fun s => ?_
  split
  · exact .draw (.call hg h) fun _ h => .give h
  · exact .draw (.index hg h) fun _ h => .give h
  · exact .draw (.question h) fun _ h => .give h
  · exact .draw (.dotted h) fun _ h => .give h
  · exact .choose (.draw (.methodArguments hg h) fun _ h => .give h) (.give h)
  · exact .give h

theorem postfixForms (hg : g.Composes) (h : n.Rereadable) :
    Composes T Node.Rereadable (g.postfixForms n) :=
  .loop (fun _ h => .postfixTurn hg h) h

/-! ### Infix operators -/

theorem cast (hg : g.Composes) (h : n.Rereadable) : Composes T Node.Rereadable (g.cast n) :=
  .node rfl <| .bind (.pushField h) fun _ => .bind .consume fun _ => .field hg.parse

theorem rangeAfter (hg : g.Composes) (h : n.Rereadable) :
    Composes T Node.Rereadable (g.rangeAfter n) :=
  .node rfl <| .bind (.push h) fun _ => .bind .consume fun _ =>
    .test .isAtExpression (.child hg.parse) (.pure _)

theorem infixMark {operator : OperatorClass} : Composes T Anything (Grammar.infixMark operator) :=
  .choose .consume .consumeField

/-- An operation begins with its left operand. -/
theorem binary (hg : g.Composes) {operator : OperatorClass} (h : n.Rereadable) :
    Composes T Node.Rereadable (g.binary operator n) := by
  have hkind : operator.nodeKind.isRejoined = false ∨ operator.nodeKind = .binaryExpression := by
    cases operator <;> simp [OperatorClass.nodeKind, Kind.isRejoined]
  rcases hkind with hk | hk
  · exact .node hk <| .bind (.pushField h) fun _ => .bind .infixMark fun _ => .field hg.parse
  · have hbegins : Mould.operation.Holds (.ofKind operator.nodeKind) :=
      ⟨hk, rfl, List.forall_mem_nil _⟩
    exact .nodeOver hbegins h rfl <| .bind .infixMark fun _ => .part rfl hg.parse

theorem infixTurn (hg : g.Composes) {min : Precedence} (h : n.Rereadable) :
    Composes T (Step.Ends Node.Rereadable Node.Rereadable) (g.infixTurn min n) := by
  refine .bind .operatorKind fun k => ?_
  split
  · exact .give h
  · split
    · exact .give h
    · split
      · exact .draw (.cast hg h) fun _ h => .give h
      · exact .choose (.give h) (.draw (.rangeAfter hg h) fun _ h => .give h)
      · exact .draw (.binary hg h) fun _ h => .give h

theorem infixForms (hg : g.Composes) {min : Precedence} (h : n.Rereadable) :
    Composes T Node.Rereadable (g.infixForms min n) :=
  .loop (fun _ h => .infixTurn hg h) h

end Postfix

theorem statementExpression (hg : g.Composes) :
    Composes T (fun r => r.1.Rereadable) g.statementExpression := by
  refine .bind .flush fun _ => .look fun s => .choose ?_ ?_
  · refine .draw hg.parse fun _ h => .test .isAtAny ?_ (.give h)
    exact .draw (.postfixForms hg h) fun _ h => .draw (.infixForms hg h) fun _ h => .give h
  · exact .draw hg.parse fun _ h => .give h

/-! ### Constants, functions and macros -/

theorem typedValue (hg : g.Composes) : Composes .plain Anything g.typedValue :=
  .bind (.expect rfl) fun _ => .bind (.field hg.parse) fun _ =>
    .bind (.ifAt (.bind .consume fun _ => .field hg.parse)) fun _ => .expect rfl

theorem constItem (hg : g.Composes) : Composes .plain Anything g.constItem :=
  .bind (.setKind rfl) fun _ => .bind .consumeDefault fun _ => .bind .consume fun _ =>
    .bind .markOrName fun _ => .typedValue hg

theorem reportReference : Composes .plain Anything Grammar.reportReference :=
  .bind .options fun _ => .provided .reportHere

theorem staticItem (hg : g.Composes) : Composes .plain Anything g.staticItem :=
  .bind (.setKind rfl) fun _ => .bind .consume fun _ =>
    .bind (.ifAt (.bind .reportReference fun _ => .consume)) fun _ => .bind .consumeIf fun _ =>
    .bind (.expectName rfl) fun _ => .typedValue hg

theorem functionEnd (hg : g.Composes) : Composes .plain Anything g.functionEnd := by
  refine .kind fun c => ?_
  split
  · exact .field hg.parse
  · exact .bind (.setKind rfl) fun _ => .consume
  · exact .test .absorbBrace (.pure _) .reportExpected

theorem isAtFunctionModifier : Composes .plain Anything Grammar.isAtFunctionModifier :=
  .test .isAtAny (.pure _) .isAtWord

theorem functionItem (hg : g.Composes) : Composes .plain Anything g.functionItem :=
  .bind (.setKind rfl) fun _ => .bind .isAtFunctionModifier fun _ =>
    .bind (.provided (.child .functionModifiers)) fun _ => .bind (.expect rfl) fun _ =>
    .bind (.expectName rfl) fun _ => .bind (.typeParametersIf hg) fun _ =>
    .bind (.field (.parameters hg)) fun _ => .bind (.returnTypeIf hg) fun _ =>
    .bind (.whereClauseIf hg) fun _ => .functionEnd hg

theorem macroRule (hg : g.Composes) : Composes T Node.Rereadable g.macroRule :=
  .bind .flush fun _ => .node rfl <| .bind (.field hg.parse) fun _ => .bind (.expect rfl) fun _ =>
    .field hg.parse

theorem macroEntry (hg : g.Composes) {c : Kind} : Composes .plain Anything (g.macroEntry c) :=
  .choose .consume (.choose (.child (.macroRule hg))
    (.bind .reportUnexpected fun _ => .child .skipGroup))

theorem macroRules (hg : g.Composes) {opener closer : Kind} (hc : closer.isRejoined = false)
    {range : Range} : Composes .plain Anything (g.macroRules opener closer range) :=
  .repeatWhile <| .bind .flush fun _ => .kind fun _ => .choose
    (.bind (.treeCloser hc) fun _ => .pure _) (.bind (.macroEntry hg) fun _ => .pure _)

theorem macroDefinition (hg : g.Composes) : Composes .plain Anything g.macroDefinition := by
  refine .bind (.setKind rfl) fun _ => .bind (.consumeAs rfl) fun _ => .bind (.expect rfl) fun _ =>
    .bind (.expectName rfl) fun _ => .bind .flush fun _ => .kind fun c => ?_
  split
  · exact .reportExpected
  · next closer hcloser =>
    refine .tokenRange fun _ => .bind .consume fun _ => ?_
    exact .bind (.macroRules hg (isRejoined_closer hcloser)) fun _ =>
      .choose (.pure _) (.expect rfl)

/-! ### Traits and implementations -/

theorem declarations (hg : g.Composes) : Composes .plain Anything g.declarations :=
  .field hg.parse

theorem traitItem (hg : g.Composes) : Composes .plain Anything g.traitItem :=
  .bind (.setKind rfl) fun _ => .bind .consumeIf fun _ => .bind .isAtWord fun _ =>
    .bind (.provided (.consumeAs rfl)) fun _ =>
    .bind (.expect rfl) fun _ => .bind (.expectName rfl) fun _ =>
    .bind (.typeParametersIf hg) fun _ => .bind (.traitBoundsIf hg) fun _ =>
    .bind (.whereClauseIf hg) fun _ => .declarations hg

theorem implementedType (hg : g.Composes) : Composes .plain Anything g.implementedType :=
  .draw hg.parse fun _ h => .isAt
    (.bind (.pushField h) fun _ => .bind .consume fun _ => .field hg.parse) (.pushField h)

theorem implItem (hg : g.Composes) : Composes .plain Anything g.implItem :=
  .bind (.setKind rfl) fun _ => .bind .consumeDefault fun _ => .bind .consumeIf fun _ =>
    .bind (.expect rfl) fun _ => .bind (.typeParametersIf hg) fun _ => .bind .consumeIf fun _ =>
    .bind (.implementedType hg) fun _ => .bind (.whereClauseIf hg) fun _ =>
    .isAt .consume (.declarations hg)

theorem typeItem (hg : g.Composes) : Composes .plain Anything g.typeItem :=
  .bind (.setKind rfl) fun _ => .bind .consumeDefault fun _ => .bind .consume fun _ =>
    .bind (.expectName rfl) fun _ => .bind (.typeParametersIf hg) fun _ =>
    .bind (.traitBoundsIf hg) fun _ => .bind (.whereClauseIf hg) fun _ =>
    .bind (.ifAt (.bind (.setKind rfl) fun _ => .bind .consume fun _ =>
      .bind (.field hg.parse) fun _ => .whereClauseIf hg)) fun _ => .expect rfl

/-! ### Modules and imports -/

theorem modItem (hg : g.Composes) : Composes .plain Anything g.modItem :=
  .bind (.setKind rfl) fun _ => .bind .consume fun _ => .bind (.expectName rfl) fun _ =>
    .isAt .consume (.declarations hg)

theorem foreignModItem (hg : g.Composes) : Composes .plain Anything g.foreignModItem :=
  .bind (.setKind rfl) fun _ => .bind .consumeIf fun _ => .bind (.child .externModifier) fun _ =>
    .declarations hg

theorem newName : Composes .plain Anything Grammar.newName :=
  .bind .consume fun _ => .markOrName

theorem externCrateDeclaration : Composes .plain Anything Grammar.externCrateDeclaration :=
  .bind (.setKind rfl) fun _ => .bind .consume fun _ => .bind .consume fun _ =>
    .bind .markOrName fun _ => .bind (.ifAt .newName) fun _ => .expect rfl

theorem imports (hg : g.Composes) : Composes T Node.Rereadable g.imports :=
  .bind .flush fun _ => .node rfl (.list rfl rfl (.child hg.parse))

theorem globalImports (hg : g.Composes) : Composes T Node.Rereadable g.globalImports :=
  .node rfl <| .bind .consume fun _ =>
    .isAt (.bind (.setKind rfl) fun _ => .consume) (.field (.imports hg))

theorem importsFrom (hg : g.Composes) {path : Node} (h : path.Rereadable) :
    Composes T Node.Rereadable (g.importsFrom path) := by
  refine .look fun s =>
    .choose (.node rfl ?_) (.choose (.node rfl ?_) (.choose (.node rfl ?_) (.give h)))
  · exact .bind (.pushField h) fun _ => .bind .consume fun _ => .field (.imports hg)
  · exact .bind (.push h) fun _ => .bind .consume fun _ => .consume
  · exact .bind (.pushField h) fun _ => .newName

theorem useClause (hg : g.Composes) : Composes T Node.Rereadable g.useClause :=
  .bind .flush fun _ => .look fun _ => .choose (.imports hg)
    (.choose (.node rfl .consume) (.choose (.globalImports hg)
      (.draw .simplePath fun _ h => .importsFrom hg h)))

theorem useDeclaration (hg : g.Composes) : Composes .plain Anything g.useDeclaration :=
  .bind (.setKind rfl) fun _ => .bind .consume fun _ => .bind (.field hg.parse) fun _ =>
    .expect rfl

/-! ### Structures and enumerations -/

theorem fieldDeclaration (hg : g.Composes) : Composes .plain Anything g.fieldDeclaration :=
  .bind (.attributes hg) fun _ => .bind .flush fun _ => .child <| .node rfl <|
    .bind .visibilityIf fun _ => .bind (.expectName rfl) fun _ => .bind (.expect rfl) fun _ =>
    .field hg.parse

theorem fieldDeclarations (hg : g.Composes) : Composes T Node.Rereadable g.fieldDeclarations :=
  .bind .flush fun _ => .node rfl (.list rfl rfl (.fieldDeclaration hg))

theorem orderedFieldDeclarations (hg : g.Composes) :
    Composes T Node.Rereadable g.orderedFieldDeclarations :=
  .bind .flush fun _ => .node rfl <| .list rfl rfl <| .bind (.attributes hg) fun _ =>
    .bind .visibilityIf fun _ => .field hg.parse

theorem structureBody (hg : g.Composes) {isStruct : Bool} :
    Composes .plain Anything (g.structureBody isStruct) := by
  refine .kind fun _ => .choose (.field (.fieldDeclarations hg)) (.choose ?_ ?_)
  · exact .bind (.field (.orderedFieldDeclarations hg)) fun _ => .bind (.whereClauseIf hg) fun _ =>
      .expect rfl
  · exact .choose .consume (.test .absorbBrace (.pure _) .reportExpected)

theorem structItem (hg : g.Composes) : Composes .plain Anything g.structItem :=
  .bind (.setKind rfl) fun _ => .bind .consume fun _ => .bind (.expectName rfl) fun _ =>
    .bind (.typeParametersIf hg) fun _ => .bind (.whereClauseIf hg) fun _ => .structureBody hg

theorem unionItem (hg : g.Composes) : Composes .plain Anything g.unionItem :=
  .bind (.setKind rfl) fun _ => .bind (.consumeAs rfl) fun _ => .bind (.expectName rfl) fun _ =>
    .bind (.typeParametersIf hg) fun _ => .bind (.whereClauseIf hg) fun _ => .structureBody hg

theorem variantFields (hg : g.Composes) : Composes .plain Anything g.variantFields := by
  refine .kind fun c => ?_
  split
  · exact .field (.fieldDeclarations hg)
  · exact .field (.orderedFieldDeclarations hg)
  · exact .pure _

theorem variant (hg : g.Composes) : Composes T Node.Rereadable g.variant :=
  .bind .flush fun _ => .node rfl <| .bind .visibilityIf fun _ => .bind (.expectName rfl) fun _ =>
    .bind (.variantFields hg) fun _ => .ifAt (.bind .consume fun _ =>
      .field hg.parse)

theorem enumItem (hg : g.Composes) : Composes .plain Anything g.enumItem :=
  .bind (.setKind rfl) fun _ => .bind .consume fun _ => .bind (.expectName rfl) fun _ =>
    .bind (.typeParametersIf hg) fun _ => .bind (.whereClauseIf hg) fun _ => .bind .flush fun _ =>
    .field <| .node rfl <| .list rfl rfl <| .bind (.attributes hg) fun _ => .child (.variant hg)

/-! ### Items -/

theorem notAnItem : Composes .plain Anything Grammar.notAnItem :=
  .bind .reportExpected fun _ => .failDraft

section Items

variable {s : Session}

theorem itemAtConst (hg : g.Composes) : Composes .plain Anything (g.itemAtConst s) :=
  .choose (.functionItem hg) (.constItem hg)

theorem itemAtUnsafe (hg : g.Composes) : Composes .plain Anything (g.itemAtUnsafe s) := by
  unfold Grammar.itemAtUnsafe
  split
  · exact .implItem hg
  · exact .traitItem hg
  · exact .bind .textAhead fun _ => .choose (.traitItem hg) (.functionItem hg)
  · exact .choose (.foreignModItem hg) (.functionItem hg)
  · exact .functionItem hg

theorem itemAtExtern (hg : g.Composes) : Composes .plain Anything (g.itemAtExtern s) :=
  .choose .externCrateDeclaration (.choose (.foreignModItem hg) (.functionItem hg))

theorem itemAtDefault (hg : g.Composes) : Composes .plain Anything (g.itemAtDefault s) := by
  unfold Grammar.itemAtDefault
  split
  · exact .implItem hg
  · exact .typeItem hg
  · exact .choose (.functionItem hg) (.constItem hg)
  · exact .functionItem hg

theorem itemAtWord (hg : g.Composes) : Composes .plain Anything (g.itemAtWord s) := by
  refine .bind .tokenText fun word => ?_
  split
  · exact .choose (.unionItem hg) .notAnItem
  · exact .choose (.traitItem hg) .notAnItem
  · exact .choose (.macroDefinition hg) .notAnItem
  · exact .itemAtDefault hg
  · exact .notAnItem

end Items

theorem itemForm (hg : g.Composes) : Composes .plain Anything g.itemForm := by
  refine .look fun s => ?_
  split
  case h_1 | h_2 => exact .functionItem hg
  case h_3 => exact .itemAtConst hg
  case h_4 => exact .itemAtUnsafe hg
  case h_5 => exact .itemAtExtern hg
  case h_6 => exact .staticItem hg
  case h_7 => exact .structItem hg
  case h_8 => exact .enumItem hg
  case h_9 => exact .traitItem hg
  case h_10 => exact .implItem hg
  case h_11 => exact .typeItem hg
  case h_12 => exact .modItem hg
  case h_13 => exact .useDeclaration hg
  case h_14 => exact .itemAtWord hg
  case h_15 => exact .notAnItem

theorem item (hg : g.Composes) : Composes .plain Anything g.item := by
  refine .bind .flush fun _ => .isAt (.bind (.child (.attributeItem hg)) fun _ => .pure _) ?_
  refine .test .isAtItem (.bind (.child (.node rfl ?_)) fun _ => .pure _) (.pure _)
  exact .bind .visibilityIf fun _ => .itemForm hg

/-! ### Statements -/

theorem letDeclaration (hg : g.Composes) : Composes T Node.Rereadable g.letDeclaration :=
  .node rfl <| .bind .consume fun _ => .bind .consumeIf fun _ => .bind (.field hg.parse) fun _ =>
    .bind (.ifAt (.bind .consume fun _ => .field hg.parse)) fun _ =>
    .bind (.ifAt (.bind .consume fun _ => .field hg.parse)) fun _ =>
    .bind (.ifAt (.bind .consume fun _ => .field hg.parse)) fun _ => .expect rfl

theorem expressionStatement (hg : g.Composes) : Composes .plain Anything g.expressionStatement := by
  refine .draw (.statementExpression hg) fun (n, isBlockLike) h => .kind fun _ => ?_
  refine .choose (.child (.node rfl ?_)) (.choose (.child (.node rfl (.push h))) (.choose (.push h)
    (.child (.node rfl ?_))))
  · exact .bind (.push h) fun _ => .consume
  · exact .bind (.push h) fun _ => .expect rfl

theorem statement (hg : g.Composes) : Composes .plain Anything g.statement := by
  refine .bind .flush fun _ => .kind fun c => ?_
  split
  · exact .child (.node rfl .consume)
  · exact .child (.letDeclaration hg)
  · exact .test .isAtItem (.bind (.item hg) fun _ => .pure _)
      (.test .isAtExpression (.expressionStatement hg) (.pure _))

theorem itemStatement (hg : g.Composes) : Composes .plain Anything g.itemStatement :=
  .bind .isAtMacro fun _ => .bind .isAtItem fun _ => .choose (.expressionStatement hg)
    (.test (.item hg) (.pure _) .recoverUntil)

theorem rowStatement (hg : g.Composes) {row : Grammar.Row} :
    Composes .plain Anything (g.rowStatement row) :=
  .choose (.itemStatement hg) (.statement hg)

theorem rowMember (hg : g.Composes) {row : Grammar.Row} :
    Composes .plain Anything (g.rowMember row) :=
  .bind .offset fun _ => .bind (.rowStatement hg) fun _ => .look fun _ =>
    .choose .recoverUntil (.pure _)

theorem rowTurn (hg : g.Composes) {row : Grammar.Row} :
    Composes .plain Anything (g.rowTurn row) := by
  refine .bind .flush fun _ => .kind fun c => ?_
  split
  · exact .pure _
  · refine .bind .absorbBrace fun _ => .choose (.pure _) (.choose (.pure _) ?_)
    exact .bind .reportUnexpected fun _ => .bind (.child (.node rfl .consume)) fun _ => .pure _
  · exact .bind (.rowMember hg) fun _ => .pure _

theorem statements (hg : g.Composes) {row : Grammar.Row} :
    Composes .plain Anything (g.statements row) :=
  .repeatWhile (.rowTurn hg)

theorem braced (hg : g.Composes) {row : Grammar.Row} : Composes .plain Anything (g.braced row) :=
  .isAt (.tokenRange fun _ => .bind .consume fun _ => .bind (.statements hg) fun _ => .close)
    (.missingGroup rfl rfl)

theorem blockBody (hg : g.Composes) : Composes .plain Anything g.blockBody :=
  .unrestricted (.braced hg)

theorem block (hg : g.Composes) : Composes T Node.Rereadable g.block :=
  .bind .flush fun _ => .guarded (.node rfl (.blockBody hg))

theorem declarationList (hg : g.Composes) : Composes T Node.Rereadable g.declarationList :=
  .bind .flush fun _ => .node rfl (.braced hg)

end ConcreteSyntax.Parse.Composes
