import ConcreteSyntax.Proofs.Sheds.Type

/-! # Items and statements without comments

The productions of operators, items and statements shed comments, if the nonterminals inside them do.
Where a statement needs no semicolon because it is the call of a macro between braces, it needs none
without comments either. -/

namespace ConcreteSyntax.Parse.Sheds

variable {P : Scanner → Prop} {T : Draft.Trait} {g : Grammar}

/-! ### Postfix forms -/

theorem expression (hg : g.Sheds) : Sheds P T Node.Bares g.expression g.expression := hg.parse

theorem argument (hg : g.Sheds) : Sheds P T Eq g.argument g.argument :=
  .bind (.attributes hg) fun _ => .child (.expression hg)

theorem arguments (hg : g.Sheds) : Sheds P T Node.Bares g.arguments g.arguments :=
  .bind .flush fun _ => .node rfl (.unrestricted (.list (.argument hg)))

section Postfix

variable {n m : Node}

theorem call (hg : g.Sheds) (h : n.Bares m) : Sheds P T Node.Bares (g.call n) (g.call m) :=
  .node rfl <| .bind (.pushField h) fun _ => .field (.arguments hg)

theorem index (hg : g.Sheds) (h : n.Bares m) : Sheds P T Node.Bares (g.index n) (g.index m) :=
  .node rfl <| .bind (.push h) fun _ => .bind .tokenRange fun _ => .bind .consume fun _ =>
    .bind (.child (.unrestricted (.expression hg))) fun _ => .close

theorem question (h : n.Bares m) :
    Sheds P T Node.Bares (Grammar.question n) (Grammar.question m) :=
  .node rfl <| .bind (.push h) fun _ => .consume

theorem fieldName : Sheds P T Eq Grammar.fieldName Grammar.fieldName := by
  refine .kind fun c => ?_
  split
  · exact .consumeFieldAs
  · exact .consumeField
  · exact .field .tupleIndex
  · exact .bind .reportExpected fun _ => .pushMissingField

theorem dotted (h : n.Bares m) : Sheds P T Node.Bares (Grammar.dotted n) (Grammar.dotted m) :=
  .bind .ahead fun _ => .choose
    (.node rfl <| .bind (.push h) fun _ => .bind .consume fun _ => .consume)
    (.node rfl <| .bind (.pushField h) fun _ => .bind .consumeWith fun _ => .fieldName)

theorem methodArguments (hg : g.Sheds) (h : n.Bares m) :
    Sheds P T Node.Bares (g.methodArguments n) (g.methodArguments m) :=
  .node rfl <| .bind (.pushField h) fun _ => .bind .consume fun _ => .field (.typeArguments hg)

theorem postfixTurn (hg : g.Sheds) (h : n.Bares m) :
    Sheds P T (Step.Rel Node.Bares Node.Bares) (g.postfixTurn n) (g.postfixTurn m) := by
  unfold Grammar.postfixTurn
  rw [h.kind]
  refine .look (fun _ _ => rfl) fun s _ => ?_
  split
  · exact .draw (.call hg h) fun _ _ h => .give (.again h)
  · exact .draw (.index hg h) fun _ _ h => .give (.again h)
  · exact .draw (.question h) fun _ _ h => .give (.again h)
  · exact .draw (.dotted h) fun _ _ h => .give (.again h)
  · exact .choose (.draw (.methodArguments hg h) fun _ _ h => .give (.again h)) (.give (.done h))
  · exact .give (.done h)

theorem postfixForms (hg : g.Sheds) (h : n.Bares m) :
    Sheds P T Node.Bares (g.postfixForms n) (g.postfixForms m) :=
  .loop (fun _ _ => .postfixTurn hg) h

/-! ### Infix operators -/

theorem cast (hg : g.Sheds) (h : n.Bares m) : Sheds P T Node.Bares (g.cast n) (g.cast m) :=
  .node rfl <| .bind (.pushField h) fun _ => .bind .consume fun _ => .field hg.parse

theorem rangeAfter (hg : g.Sheds) (h : n.Bares m) :
    Sheds P T Node.Bares (g.rangeAfter n) (g.rangeAfter m) :=
  .node rfl <| .bind (.push h) fun _ => .bind .consume fun _ =>
    .test .isAtExpression (.child hg.parse) (.pure _)

theorem infixMark {operator : OperatorClass} :
    Sheds P T Eq (Grammar.infixMark operator) (Grammar.infixMark operator) :=
  .choose .consume .consumeField

theorem binary (hg : g.Sheds) {operator : OperatorClass} (h : n.Bares m) :
    Sheds P T Node.Bares (g.binary operator n) (g.binary operator m) :=
  .node (by cases operator <;> rfl) <| .bind (.pushField h) fun _ => .bind .infixMark fun _ =>
    .field hg.parse

theorem infixTurn (hg : g.Sheds) {min : Precedence} (h : n.Bares m) :
    Sheds P T (Step.Rel Node.Bares Node.Bares) (g.infixTurn min n) (g.infixTurn min m) := by
  refine .bind .operatorKind fun k => ?_
  rw [h.kind]
  split
  · exact .give (.done h)
  · split
    · exact .give (.done h)
    · split
      · exact .draw (.cast hg h) fun _ _ h => .give (.again h)
      · exact .choose (.give (.done h)) (.draw (.rangeAfter hg h) fun _ _ h => .give (.again h))
      · exact .draw (.binary hg h) fun _ _ h => .give (.again h)

theorem infixForms (hg : g.Sheds) {min : Precedence} (h : n.Bares m) :
    Sheds P T Node.Bares (g.infixForms min n) (g.infixForms min m) :=
  .loop (fun _ _ => .infixTurn hg) h

end Postfix

/-- The expressions of a statement, which end there alike. -/
def Ends (r r' : Node × Bool) : Prop := r.1.Bares r'.1 ∧ r'.2 = r.2

theorem statementExpression (hg : g.Sheds) :
    Sheds P T Ends g.statementExpression g.statementExpression := by
  refine .bind .flush fun _ => .look (fun _ _ => rfl) fun s _ => .choose ?_ ?_
  · refine .draw hg.parse fun _ _ h => .test .isAtAny ?_ (.give ⟨h, rfl⟩)
    exact .draw (.postfixForms hg h) fun _ _ h => .draw (.infixForms hg h) fun _ _ h => .give ⟨h, rfl⟩
  · exact .draw (.expression hg) fun _ _ h => .give ⟨h, rfl⟩

/-! ### Constants, functions and macros -/

theorem typedValue (hg : g.Sheds) : Sheds P T Eq g.typedValue g.typedValue :=
  .bind .expect fun _ => .bind (.field hg.parse) fun _ =>
    .bind (.ifAt (.bind .consume fun _ => .field (.expression hg))) fun _ => .expect

theorem constItem (hg : g.Sheds) : Sheds P T Eq g.constItem g.constItem :=
  .bind (.setKind rfl) fun _ => .bind .consumeDefault fun _ => .bind .consume fun _ =>
    .bind .markOrName fun _ => .typedValue hg

theorem reportReference : Sheds P T Eq Grammar.reportReference Grammar.reportReference :=
  .options (fun _ => rfl) fun _ => .provided .reportHere

theorem staticItem (hg : g.Sheds) : Sheds P T Eq g.staticItem g.staticItem :=
  .bind (.setKind rfl) fun _ => .bind .consume fun _ =>
    .bind (.ifAt (.bind .reportReference fun _ => .consume)) fun _ => .bind .consumeIf fun _ =>
    .bind .expectName fun _ => .typedValue hg

theorem functionEnd (hg : g.Sheds) : Sheds P T Eq g.functionEnd g.functionEnd := by
  refine .kind fun c => ?_
  split
  · exact .field hg.parse
  · exact .bind (.setKind rfl) fun _ => .consume
  · exact .test .absorbBrace (.pure _) .reportExpected

theorem isAtFunctionModifier :
    Sheds P T Eq Grammar.isAtFunctionModifier Grammar.isAtFunctionModifier :=
  .test .isAtAny (.pure _) .isAtWord

theorem functionItem (hg : g.Sheds) : Sheds P T Eq g.functionItem g.functionItem :=
  .bind (.setKind rfl) fun _ => .bind .isAtFunctionModifier fun _ =>
    .bind (.provided (.child .functionModifiers)) fun _ => .bind .expect fun _ =>
    .bind .expectName fun _ => .bind (.typeParametersIf hg) fun _ =>
    .bind (.field (.parameters hg)) fun _ => .bind (.returnTypeIf hg) fun _ =>
    .bind (.whereClauseIf hg) fun _ => .functionEnd hg

theorem macroRule (hg : g.Sheds) : Sheds P T Node.Bares g.macroRule g.macroRule :=
  .bind .flush fun _ => .node rfl <| .bind (.field hg.parse) fun _ => .bind .expect fun _ =>
    .field hg.parse

theorem macroEntry (hg : g.Sheds) {c : Kind} : Sheds P T Eq (g.macroEntry c) (g.macroEntry c) :=
  .choose .consume (.choose (.child (.macroRule hg))
    (.bind .reportUnexpected fun _ => .child .skipGroup))

theorem macroRules (hg : g.Sheds) {opener closer : Kind} {range : Range} :
    Sheds P T Eq (g.macroRules opener closer range) (g.macroRules opener closer range) :=
  .repeatWhile <| .bind .flush fun _ => .kind fun _ => .choose
    (.bind .treeCloser fun _ => .pure _) (.bind (.macroEntry hg) fun _ => .pure _)

theorem macroDefinition (hg : g.Sheds) : Sheds P T Eq g.macroDefinition g.macroDefinition := by
  refine .bind (.setKind rfl) fun _ => .bind .consumeAs fun _ => .bind .expect fun _ =>
    .bind .expectName fun _ => .bind .flush fun _ => .kind fun c => ?_
  split
  · exact .reportExpected
  · exact .bind .tokenRange fun _ => .bind .consume fun _ => .bind (.macroRules hg) fun _ =>
      .choose (.pure _) .expect

/-! ### Traits and implementations -/

theorem declarations (hg : g.Sheds) : Sheds P T Eq g.declarations g.declarations :=
  .field hg.parse

theorem traitItem (hg : g.Sheds) : Sheds P T Eq g.traitItem g.traitItem :=
  .bind (.setKind rfl) fun _ => .bind .consumeIf fun _ => .bind .isAtWord fun _ =>
    .bind (.provided .consumeAs) fun _ =>
    .bind .expect fun _ => .bind .expectName fun _ => .bind (.typeParametersIf hg) fun _ =>
    .bind (.traitBoundsIf hg) fun _ => .bind (.whereClauseIf hg) fun _ => .declarations hg

theorem implementedType (hg : g.Sheds) : Sheds P T Eq g.implementedType g.implementedType :=
  .draw hg.parse fun _ _ h => .isAt
    (.bind (.pushField h) fun _ => .bind .consume fun _ => .field hg.parse) (.pushField h)

theorem implItem (hg : g.Sheds) : Sheds P T Eq g.implItem g.implItem :=
  .bind (.setKind rfl) fun _ => .bind .consumeDefault fun _ => .bind .consumeIf fun _ =>
    .bind .expect fun _ => .bind (.typeParametersIf hg) fun _ => .bind .consumeIf fun _ =>
    .bind (.implementedType hg) fun _ => .bind (.whereClauseIf hg) fun _ =>
    .isAt .consume (.declarations hg)

theorem typeItem (hg : g.Sheds) : Sheds P T Eq g.typeItem g.typeItem :=
  .bind (.setKind rfl) fun _ => .bind .consumeDefault fun _ => .bind .consume fun _ =>
    .bind .expectName fun _ => .bind (.typeParametersIf hg) fun _ =>
    .bind (.traitBoundsIf hg) fun _ => .bind (.whereClauseIf hg) fun _ =>
    .bind (.ifAt (.bind (.setKind rfl) fun _ => .bind .consume fun _ => .bind (.field hg.parse) fun _ =>
      .whereClauseIf hg)) fun _ => .expect

/-! ### Modules and imports -/

theorem modItem (hg : g.Sheds) : Sheds P T Eq g.modItem g.modItem :=
  .bind (.setKind rfl) fun _ => .bind .consume fun _ => .bind .expectName fun _ =>
    .isAt .consume (.declarations hg)

theorem foreignModItem (hg : g.Sheds) : Sheds P T Eq g.foreignModItem g.foreignModItem :=
  .bind (.setKind rfl) fun _ => .bind .consumeIf fun _ => .bind (.child .externModifier) fun _ =>
    .declarations hg

theorem newName : Sheds P T Eq Grammar.newName Grammar.newName :=
  .bind .consume fun _ => .markOrName

theorem externCrateDeclaration :
    Sheds P T Eq Grammar.externCrateDeclaration Grammar.externCrateDeclaration :=
  .bind (.setKind rfl) fun _ => .bind .consume fun _ => .bind .consume fun _ =>
    .bind .markOrName fun _ => .bind (.ifAt .newName) fun _ => .expect

theorem imports (hg : g.Sheds) : Sheds P T Node.Bares g.imports g.imports :=
  .bind .flush fun _ => .node rfl (.list (.child hg.parse))

theorem globalImports (hg : g.Sheds) : Sheds P T Node.Bares g.globalImports g.globalImports :=
  .node rfl <| .bind .consume fun _ =>
    .isAt (.bind (.setKind rfl) fun _ => .consume) (.field (.imports hg))

theorem importsFrom (hg : g.Sheds) {path path' : Node} (h : path.Bares path') :
    Sheds P T Node.Bares (g.importsFrom path) (g.importsFrom path') := by
  refine .look (fun _ _ => rfl) fun s _ =>
    .choose (.node rfl ?_) (.choose (.node rfl ?_) (.choose (.node rfl ?_) (.give h)))
  · exact .bind (.pushField h) fun _ => .bind .consume fun _ => .field (.imports hg)
  · exact .bind (.push h) fun _ => .bind .consume fun _ => .consume
  · exact .bind (.pushField h) fun _ => .newName

theorem useClause (hg : g.Sheds) : Sheds P T Node.Bares g.useClause g.useClause :=
  .bind .flush fun _ => .look (fun _ _ => rfl) fun _ _ => .choose (.imports hg)
    (.choose (.node rfl .consume) (.choose (.globalImports hg)
      (.draw .simplePath fun _ _ h => .importsFrom hg h)))

theorem useDeclaration (hg : g.Sheds) : Sheds P T Eq g.useDeclaration g.useDeclaration :=
  .bind (.setKind rfl) fun _ => .bind .consume fun _ => .bind (.field hg.parse) fun _ => .expect

/-! ### Structures and enumerations -/

theorem fieldDeclaration (hg : g.Sheds) : Sheds P T Eq g.fieldDeclaration g.fieldDeclaration :=
  .bind (.attributes hg) fun _ => .bind .flush fun _ => .child <| .node rfl <|
    .bind .visibilityIf fun _ => .bind .expectName fun _ => .bind .expect fun _ => .field hg.parse

theorem fieldDeclarations (hg : g.Sheds) :
    Sheds P T Node.Bares g.fieldDeclarations g.fieldDeclarations :=
  .bind .flush fun _ => .node rfl (.list (.fieldDeclaration hg))

theorem orderedFieldDeclarations (hg : g.Sheds) :
    Sheds P T Node.Bares g.orderedFieldDeclarations g.orderedFieldDeclarations :=
  .bind .flush fun _ => .node rfl <| .list <| .bind (.attributes hg) fun _ =>
    .bind .visibilityIf fun _ => .field hg.parse

theorem structureBody (hg : g.Sheds) {isStruct : Bool} :
    Sheds P T Eq (g.structureBody isStruct) (g.structureBody isStruct) := by
  refine .kind fun _ => .choose (.field (.fieldDeclarations hg)) (.choose ?_ ?_)
  · exact .bind (.field (.orderedFieldDeclarations hg)) fun _ => .bind (.whereClauseIf hg) fun _ =>
      .expect
  · exact .choose .consume (.test .absorbBrace (.pure _) .reportExpected)

theorem structItem (hg : g.Sheds) : Sheds P T Eq g.structItem g.structItem :=
  .bind (.setKind rfl) fun _ => .bind .consume fun _ => .bind .expectName fun _ =>
    .bind (.typeParametersIf hg) fun _ => .bind (.whereClauseIf hg) fun _ => .structureBody hg

theorem unionItem (hg : g.Sheds) : Sheds P T Eq g.unionItem g.unionItem :=
  .bind (.setKind rfl) fun _ => .bind .consumeAs fun _ => .bind .expectName fun _ =>
    .bind (.typeParametersIf hg) fun _ => .bind (.whereClauseIf hg) fun _ => .structureBody hg

theorem variantFields (hg : g.Sheds) : Sheds P T Eq g.variantFields g.variantFields := by
  refine .kind fun c => ?_
  split
  · exact .field (.fieldDeclarations hg)
  · exact .field (.orderedFieldDeclarations hg)
  · exact .pure _

theorem variant (hg : g.Sheds) : Sheds P T Node.Bares g.variant g.variant :=
  .bind .flush fun _ => .node rfl <| .bind .visibilityIf fun _ => .bind .expectName fun _ =>
    .bind (.variantFields hg) fun _ => .ifAt (.bind .consume fun _ => .field (.expression hg))

theorem enumItem (hg : g.Sheds) : Sheds P T Eq g.enumItem g.enumItem :=
  .bind (.setKind rfl) fun _ => .bind .consume fun _ => .bind .expectName fun _ =>
    .bind (.typeParametersIf hg) fun _ => .bind (.whereClauseIf hg) fun _ => .bind .flush fun _ =>
    .field <| .node rfl <| .list <| .bind (.attributes hg) fun _ => .child (.variant hg)

/-! ### Items -/

theorem notAnItem : Sheds P T Eq Grammar.notAnItem Grammar.notAnItem :=
  .bind .reportExpected fun _ => .failDraft

section Items

variable {s : Session}

theorem itemAtConst (hg : g.Sheds) : Sheds P T Eq (g.itemAtConst s) (g.itemAtConst s) :=
  .choose (.functionItem hg) (.constItem hg)

theorem itemAtUnsafe (hg : g.Sheds) : Sheds P T Eq (g.itemAtUnsafe s) (g.itemAtUnsafe s) := by
  unfold Grammar.itemAtUnsafe
  split
  · exact .implItem hg
  · exact .traitItem hg
  · exact .bind .textAhead fun _ => .choose (.traitItem hg) (.functionItem hg)
  · exact .choose (.foreignModItem hg) (.functionItem hg)
  · exact .functionItem hg

theorem itemAtExtern (hg : g.Sheds) : Sheds P T Eq (g.itemAtExtern s) (g.itemAtExtern s) :=
  .choose .externCrateDeclaration (.choose (.foreignModItem hg) (.functionItem hg))

theorem itemAtDefault (hg : g.Sheds) : Sheds P T Eq (g.itemAtDefault s) (g.itemAtDefault s) := by
  unfold Grammar.itemAtDefault
  split
  · exact .implItem hg
  · exact .typeItem hg
  · exact .choose (.functionItem hg) (.constItem hg)
  · exact .functionItem hg

theorem itemAtWord (hg : g.Sheds) : Sheds P T Eq (g.itemAtWord s) (g.itemAtWord s) := by
  refine .bind .tokenText fun word => ?_
  split
  · exact .choose (.unionItem hg) .notAnItem
  · exact .choose (.traitItem hg) .notAnItem
  · exact .choose (.macroDefinition hg) .notAnItem
  · exact .itemAtDefault hg
  · exact .notAnItem

end Items

theorem itemForm (hg : g.Sheds) : Sheds P T Eq g.itemForm g.itemForm := by
  refine .look (fun _ _ => rfl) fun s _ => ?_
  split
  case h_1 | h_2 => exact .functionItem hg
  case h_3 => exact .itemAtConst hg
  case h_4 => exact .itemAtUnsafe hg
  case h_5 => exact .itemAtExtern hg
  case h_6 => exact .staticItem hg
  case h_7 => exact .structItem hg
  case h_8 => exact .enumItem hg
  case h_9 => exact .traitItem hg
  case h_10 => exact .implItem hg
  case h_11 => exact .typeItem hg
  case h_12 => exact .modItem hg
  case h_13 => exact .useDeclaration hg
  case h_14 => exact .itemAtWord hg
  case h_15 => exact .notAnItem

theorem item (hg : g.Sheds) : Sheds P T Eq g.item g.item := by
  refine .bind .flush fun _ => .isAt (.bind (.child (.attributeItem hg)) fun _ => .pure _) ?_
  refine .test .isAtItem (.bind (.child (.node rfl ?_)) fun _ => .pure _) (.pure _)
  exact .bind .visibilityIf fun _ => .itemForm hg

/-! ### Statements -/

theorem letDeclaration (hg : g.Sheds) : Sheds P T Node.Bares g.letDeclaration g.letDeclaration :=
  .node rfl <| .bind .consume fun _ => .bind .consumeIf fun _ => .bind (.field hg.parse) fun _ =>
    .bind (.ifAt (.bind .consume fun _ => .field hg.parse)) fun _ =>
    .bind (.ifAt (.bind .consume fun _ => .field (.expression hg))) fun _ =>
    .bind (.ifAt (.bind .consume fun _ => .field hg.parse)) fun _ => .expect

theorem expressionStatement (hg : g.Sheds) :
    Sheds P T Eq g.expressionStatement g.expressionStatement := by
  refine .draw (.statementExpression hg) fun (n, isBlockLike) (m, isBlockLike') ⟨h, hends⟩ => ?_
  obtain rfl : isBlockLike' = isBlockLike := hends
  refine .kind fun _ => ?_
  rw [h.isBraceCall]
  refine .choose (.child (.node rfl ?_)) (.choose (.child (.node rfl (.push h))) (.choose (.push h)
    (.child (.node rfl ?_))))
  · exact .bind (.push h) fun _ => .consume
  · exact .bind (.push h) fun _ => .expect

theorem statement (hg : g.Sheds) : Sheds P T Eq g.statement g.statement := by
  refine .bind .flush fun _ => .kind fun c => ?_
  split
  · exact .child (.node rfl .consume)
  · exact .child (.letDeclaration hg)
  · exact .test .isAtItem (.bind (.item hg) fun _ => .pure _)
      (.test .isAtExpression (.expressionStatement hg) (.pure _))

theorem itemStatement (hg : g.Sheds) : Sheds P T Eq g.itemStatement g.itemStatement :=
  .bind .isAtMacro fun _ => .bind .isAtItem fun _ => .choose (.expressionStatement hg)
    (.test (.item hg) (.pure _) .recoverUntil)

theorem rowStatement (hg : g.Sheds) {row : Grammar.Row} :
    Sheds P T Eq (g.rowStatement row) (g.rowStatement row) :=
  .choose (.itemStatement hg) (.statement hg)

theorem rowMember (hg : g.Sheds) {row : Grammar.Row} :
    Sheds P T Eq (g.rowMember row) (g.rowMember row) :=
  .bind .offset fun _ => .bind (.rowStatement hg) fun _ => .look (fun _ _ => rfl) fun _ _ =>
    .choose .recoverUntil (.pure _)

theorem rowTurn (hg : g.Sheds) {row : Grammar.Row} :
    Sheds P T Eq (g.rowTurn row) (g.rowTurn row) := by
  refine .bind .flush fun _ => .kind fun c => ?_
  split
  · exact .pure _
  · refine .bind .absorbBrace fun _ => .choose (.pure _) (.choose (.pure _) ?_)
    exact .bind .reportUnexpected fun _ => .bind (.child (.node rfl .consume)) fun _ => .pure _
  · exact .bind (.rowMember hg) fun _ => .pure _

theorem statements (hg : g.Sheds) {row : Grammar.Row} :
    Sheds P T Eq (g.statements row) (g.statements row) :=
  .repeatWhile (.rowTurn hg)

theorem braced (hg : g.Sheds) {row : Grammar.Row} : Sheds P T Eq (g.braced row) (g.braced row) :=
  .isAt (.bind .tokenRange fun _ => .bind .consume fun _ => .bind (.statements hg) fun _ => .close)
    .missingGroup

theorem blockBody (hg : g.Sheds) : Sheds P T Eq g.blockBody g.blockBody :=
  .unrestricted (.braced hg)

theorem block (hg : g.Sheds) : Sheds P T Node.Bares g.block g.block :=
  .bind .flush fun _ => .guarded (.node rfl (.blockBody hg))

theorem declarationList (hg : g.Sheds) :
    Sheds P T Node.Bares g.declarationList g.declarationList :=
  .bind .flush fun _ => .node rfl (.braced hg)

end ConcreteSyntax.Parse.Sheds
