import ConcreteSyntax.Grammar.Statement
import ConcreteSyntax.Proofs.Excerpt.Closing

/-! # Items and statements keep step

The productions of operators, items and statements track themselves over a longer text, if the
nonterminals inside them do. -/

namespace ConcreteSyntax

open Parse

theorem Grammar.isBraceCall_shift {k : Nat} (n : Node) :
    Grammar.isBraceCall (n.shift k) = Grammar.isBraceCall n := by
  unfold Grammar.isBraceCall
  rw [Node.shift_kind, Node.shift_children, List.getLast?_map]
  cases n.children.getLast? with
  | none => rfl
  | some c =>
    obtain ⟨label, tree⟩ := c
    simp [Child.shift, Node.child?, Option.any_map]

namespace Parse.Follows

variable {E : Excerpt} {pre : List Child} {a : Option Kind} {g g' : Grammar} {closes : Bool}

/-! ### Postfix forms -/

theorem argument (hg : g.Tracks E g') : Tracks E pre a id g.argument g'.argument :=
  .bind (.attributes hg) fun _ => .child hg

theorem arguments (hg : g.Tracks E g') :
    Tracks E pre a (Node.shift E.shift) g.arguments g'.arguments :=
  .bind .flush fun _ => .node (.unrestricted (.list (.argument hg)))

theorem call (hg : g.Tracks E g') {function : Node} : Tracks E pre a (Node.shift E.shift)
    (g.call function) (g'.call (function.shift E.shift)) :=
  .node <| .bind .pushField fun _ => .field (.arguments hg)

theorem index (hg : g.Tracks E g') {indexed : Node} : Tracks E pre a (Node.shift E.shift)
    (g.index indexed) (g'.index (indexed.shift E.shift)) :=
  .node <| .bind .push fun _ => .bind .tokenRange fun _ => .bind .consume fun _ =>
    .bind (.child (.unrestricted hg)) fun _ => .close

theorem question {body : Node} : Tracks E pre a (Node.shift E.shift) (Grammar.question body)
    (Grammar.question (body.shift E.shift)) :=
  .node <| .bind .push fun _ => .consume

theorem tupleIndex : Tracks E pre (some .integerToken) (Node.shift E.shift) Parse.tupleIndex
    Parse.tupleIndex :=
  .node <| .consumeNumber fun c hc => by
    rw [hc _ rfl]
    exact .inr (.inl ⟨rfl, .inr rfl⟩)

theorem fieldName : Tracks E pre a id Grammar.fieldName Grammar.fieldName := by
  refine .kind fun c _ => ?_
  split
  · exact .consumeFieldAs
  · exact .consumeField
  · exact .field .tupleIndex
  · exact .bind .reportExpected fun _ => .pushMissingField

/-- What stands behind a dot. -/
theorem dotted {value : Node} : Tracks E pre (some .dot) (Node.shift E.shift) (Grammar.dotted value)
    (Grammar.dotted (value.shift E.shift)) := by
  show Tracks E pre _ _ (get >>= fun s => if (s.ahead 1 == .awaitKw) = true then _ else _)
    (get >>= fun s => if (s.ahead 1 == .awaitKw) = true then _ else _)
  refine .lookAt (fun s hs => ?_) fun hk hf halike => by rw [halike.awaits hf (hk _ rfl)]
  rw [hs _ rfl]
  refine .choose (.node ?_) (.node ?_)
  · exact .bind .push fun _ => .bind .consume fun _ => .consume
  · refine .bindAt (b := some .dot) .pushField (fun hk h => ?_) fun _ =>
      .bind (.consumeWith fun c hc => ?_) fun _ =>
      .fieldName
    · obtain ⟨-, rfl⟩ := Prod.mk.inj (Option.some.inj h)
      exact hk
    · rw [hc _ rfl]
      exact .inr (.inl ⟨rfl, .inl rfl⟩)

theorem methodArguments (hg : g.Tracks E g') {method : Node} : Tracks E pre a (Node.shift E.shift)
    (g.methodArguments method) (g'.methodArguments (method.shift E.shift)) :=
  .node <| .bind .pushField fun _ => .bind .consume fun _ => .field (.typeArguments hg)

theorem postfixTurn (hg : g.Tracks E g') {operand : Node} :
    Tracks E pre a (mapStep (Node.shift E.shift) (Node.shift E.shift)) (g.postfixTurn operand)
      (g'.postfixTurn (operand.shift E.shift)) := by
  refine .lookAt (fun s _ => ?_) fun {s s'} _ hf halike => ?_
  · rw [Node.shift_kind]
    split
    · exact .bind (.call hg) fun _ => .pure _
    · exact .bind (.index hg) fun _ => .pure _
    · exact .bind .question fun _ => .pure _
    · next hk => exact hk ▸ .bind .dotted fun _ => .pure _
    · exact .choose (.bind (.methodArguments hg) fun _ => .pure _) (.pure _)
    · exact .pure _
  · rw [halike.kind]
    split
    case h_5 hk =>
      unfold Session.nextIsAngle
      rw [halike.ahead_one hf (by rw [hk]; rfl)]
    all_goals rfl

theorem postfixForms (hg : g.Tracks E g') {operand : Node} : Tracks E pre a (Node.shift E.shift)
    (g.postfixForms operand) (g'.postfixForms (operand.shift E.shift)) :=
  .loop (Node.shift E.shift) fun _ => .postfixTurn hg

/-! ### Infix operators -/

theorem cast (hg : g.Tracks E g') {value : Node} : Tracks E pre a (Node.shift E.shift)
    (g.cast value) (g'.cast (value.shift E.shift)) :=
  .node <| .bind .pushField fun _ => .bind .consume fun _ => .field hg

theorem rangeAfter (hg : g.Tracks E g') {left : Node} : Tracks E pre a (Node.shift E.shift)
    (g.rangeAfter left) (g'.rangeAfter (left.shift E.shift)) :=
  .node <| .bind .push fun _ => .bind .consume fun _ => .test .isAtExpression (.child hg) (.pure _)

theorem infixMark {operator : OperatorClass} :
    Tracks E pre a id (Grammar.infixMark operator) (Grammar.infixMark operator) :=
  .choose .consume .consumeField

theorem binary (hg : g.Tracks E g') {operator : OperatorClass} {left : Node} :
    Tracks E pre a (Node.shift E.shift) (g.binary operator left)
      (g'.binary operator (left.shift E.shift)) :=
  .node <| .bind .pushField fun _ => .bind .infixMark fun _ => .field hg

theorem infixTurn (hg : g.Tracks E g') {min : Precedence} {left : Node} :
    Tracks E pre a (mapStep (Node.shift E.shift) (Node.shift E.shift)) (g.infixTurn min left)
      (g'.infixTurn min (left.shift E.shift)) := by
  refine .bind .operatorKind fun k => ?_
  rw [Node.shift_kind]
  dsimp only [id]
  split
  · exact .pure _
  · split
    · exact .pure _
    · split
      · exact .bind (.cast hg) fun _ => .pure _
      · exact .choose (.pure _) (.bind (.rangeAfter hg) fun _ => .pure _)
      · exact .bind (.binary hg) fun _ => .pure _

theorem infixForms (hg : g.Tracks E g') {min : Precedence} {operand : Node} :
    Tracks E pre a (Node.shift E.shift) (g.infixForms min operand)
      (g'.infixForms min (operand.shift E.shift)) :=
  .loop (Node.shift E.shift) fun _ => .infixTurn hg

theorem statementExpression (hg : g.Tracks E g') :
    Tracks E pre a (Prod.map (Node.shift E.shift) id) g.statementExpression
      g'.statementExpression := by
  refine .bind .flush fun _ => .lookAt (fun s _ => .choose ?_ ?_) fun _ hf halike => by
    rw [halike.isAtBlockLike hf]
  · refine .bind hg fun _ => .test .isAtAny ?_ (.pure _)
    exact .bind (.postfixForms hg) fun _ => .bind (.infixForms hg) fun _ => .pure _
  · exact .bind hg fun _ => .pure _

/-! ### Constants, functions and macros -/

theorem typedValue (hg : g.Tracks E g') : Closes closes E pre a id g.typedValue g'.typedValue :=
  .bind .expect fun _ => .bind (.field hg) fun _ =>
    .bind (.ifAt (.bind .consume fun _ => .field hg)) fun _ => closing_expect rfl

theorem constItem (hg : g.Tracks E g') : Closes closes E pre a id g.constItem g'.constItem :=
  .bind .setKind fun _ => .bind .consumeDefault fun _ => .bind .consume fun _ =>
    .bind .markOrName fun _ => .typedValue hg

theorem reportReference :
    Tracks E pre a id Grammar.reportReference Grammar.reportReference :=
  .bind .options fun o => .provided (c := !o.allowStaticRef) .reportHere

theorem staticItem (hg : g.Tracks E g') : Closes closes E pre a id g.staticItem g'.staticItem :=
  .bind .setKind fun _ => .bind .consume fun _ =>
    .bind (.ifAt (.bind .reportReference fun _ => .consume)) fun _ => .bind .consumeIf fun _ =>
    .bind .expectName fun _ => .typedValue hg

theorem functionEnd (hg : g.Closes closes E g') :
    Closes closes E pre a id g.functionEnd g'.functionEnd := by
  refine .kind fun c _ => ?_
  split
  · exact closing_field hg.block
  · exact .bindAt .setKind kind_of_modifyDraft fun _ => closing_consume rfl
  · exact closing_absorbBrace .reportExpected .reportExpected

theorem isAtFunctionModifier :
    Tracks E pre a id Grammar.isAtFunctionModifier Grammar.isAtFunctionModifier :=
  .test .isAtAny (.pure _) .isAtWord

theorem functionItem (hg : g.Closes closes E g') :
    Closes closes E pre a id g.functionItem g'.functionItem :=
  .bind .setKind fun _ => .bind .isAtFunctionModifier fun _ =>
    .bind (.provided (.child .functionModifiers)) fun _ => .bind .expect fun _ =>
    .bind .expectName fun _ => .bind (.typeParametersIf hg.tracks) fun _ =>
    .bind (.field (.parameters hg.tracks)) fun _ => .bind (.returnTypeIf hg.tracks) fun _ =>
    .bind (.whereClauseIf hg.tracks) fun _ => .functionEnd hg

theorem macroRule (hg : g.Tracks E g') :
    Tracks E pre a (Node.shift E.shift) g.macroRule g'.macroRule :=
  .bind .flush fun _ => .node <| .bind (.field hg) fun _ => .bind .expect fun _ => .field hg

theorem macroEntry (hg : g.Tracks E g') {c : Kind} :
    Tracks E pre a id (g.macroEntry c) (g'.macroEntry c) :=
  .choose .consume (.choose (.child (.macroRule hg))
    (.bind .reportUnexpected fun _ => .child .skipGroup))

theorem macroRules (hg : g.Tracks E g') {opener closer : Kind} {range : Range} :
    Tracks E pre a id (g.macroRules opener closer range)
      (g'.macroRules opener closer (range.shift E.shift)) :=
  .repeatWhile <| .bind .flush fun _ => .kind fun _ _ => .choose
    (.bind .treeCloser fun _ => .pure _) (.bind (.macroEntry hg) fun _ => .pure _)

/-- The rules between braces. -/
theorem closing_macroRules (hg : g.Tracks E g') {opener closer : Kind} (hcloser : closer.isEnd = true)
    {range : Range} : Closes closes E pre a id (g.macroRules opener closer range)
      (g'.macroRules opener closer (range.shift E.shift)) := by
  refine closing_repeatWhile (.bind .flush fun _ => .kind fun _ _ => .choose
    (.bind .treeCloser fun _ => .pure _) (.bind (.macroEntry hg) fun _ => .pure _)) ?_
  refine .bind .flush fun _ => .kind fun _ _ => .choose ?_ (.never fun {σ s r t} h he => ?_)
  · have hclosed : Closes closes E pre none id
        (Grammar.treeCloser opener closer range >>= fun _ => Pure.pure false)
        (Grammar.treeCloser opener closer (range.shift E.shift) >>= fun _ => Pure.pure false) :=
      .settling (closing_treeCloser hcloser) fun _ => settles_pure false
    exact (hclosed.ending (·.2)).anywhere
  · obtain ⟨_, _, -, h⟩ := bind_eq_some.1 h
    obtain ⟨rfl, -⟩ := pure_eq_some.1 h
    exact nomatch he.1

theorem macroDefinition (hg : g.Tracks E g') :
    Closes closes E pre a id g.macroDefinition g'.macroDefinition := by
  refine .bind .setKind fun _ => .bind .consumeAs fun _ => .bind .expect fun _ =>
    .bind .expectName fun _ => .bind .flush fun _ => .kind fun c _ => ?_
  split
  · exact closing_error .reportExpected .reportExpected
  · next closer hcloser =>
    refine .bind .tokenRange fun _ => .bind .consume fun _ => ?_
    by_cases hc : c = .openBrace
    · have hbrace : closer = .closeBrace := by
        rw [hc] at hcloser
        exact (Option.some.inj hcloser).symm
      rw [hbrace, beq_iff_eq.2 hc]
      exact .settling (closing_macroRules hg rfl) fun _ => settles_pure ()
    · rw [beq_eq_false_iff_ne.2 hc]
      exact .bind (.macroRules hg) fun _ => closing_expect rfl

/-! ### Traits and implementations -/

theorem declarations (hg : g.Closes closes E g') :
    Closes closes E pre a id g.declarations g'.declarations :=
  closing_field hg.declarationList

theorem traitItem (hg : g.Closes closes E g') :
    Closes closes E pre a id g.traitItem g'.traitItem :=
  .bind .setKind fun _ => .bind .consumeIf fun _ => .bind .isAtWord fun _ =>
    .bind (.provided .consumeAs) fun _ => .bind .expect fun _ => .bind .expectName fun _ =>
    .bind (.typeParametersIf hg.tracks) fun _ => .bind (.traitBoundsIf hg.tracks) fun _ =>
    .bind (.whereClauseIf hg.tracks) fun _ => .declarations hg

theorem implementedType (hg : g.Tracks E g') :
    Tracks E pre a id g.implementedType g'.implementedType :=
  .bind hg fun _ => .isAt (.bind .pushField fun _ => .bind .consume fun _ => .field hg) .pushField

theorem implItem (hg : g.Closes closes E g') : Closes closes E pre a id g.implItem g'.implItem :=
  .bind .setKind fun _ => .bind .consumeDefault fun _ => .bind .consumeIf fun _ =>
    .bind .expect fun _ => .bind (.typeParametersIf hg.tracks) fun _ => .bind .consumeIf fun _ =>
    .bind (.implementedType hg.tracks) fun _ => .bind (.whereClauseIf hg.tracks) fun _ =>
    .isAt (closing_consume rfl) (.declarations hg)

theorem typeItem (hg : g.Tracks E g') : Closes closes E pre a id g.typeItem g'.typeItem :=
  .bind .setKind fun _ => .bind .consumeDefault fun _ => .bind .consume fun _ =>
    .bind .expectName fun _ => .bind (.typeParametersIf hg) fun _ =>
    .bind (.traitBoundsIf hg) fun _ => .bind (.whereClauseIf hg) fun _ =>
    .bind (.ifAt (.bind .setKind fun _ => .bind .consume fun _ => .bind (.field hg) fun _ =>
      .whereClauseIf hg)) fun _ => closing_expect rfl

/-! ### Modules and imports -/

theorem modItem (hg : g.Closes closes E g') : Closes closes E pre a id g.modItem g'.modItem :=
  .bind .setKind fun _ => .bind .consume fun _ => .bind .expectName fun _ =>
    .isAt (closing_consume rfl) (.declarations hg)

theorem foreignModItem (hg : g.Closes closes E g') :
    Closes closes E pre a id g.foreignModItem g'.foreignModItem :=
  .bind .setKind fun _ => .bind .consumeIf fun _ => .bind (.child .externModifier) fun _ =>
    .declarations hg

theorem newName : Tracks E pre a id Grammar.newName Grammar.newName :=
  .bind .consume fun _ => .markOrName

theorem externCrateDeclaration : Closes closes E pre a id Grammar.externCrateDeclaration
    Grammar.externCrateDeclaration :=
  .bind .setKind fun _ => .bind .consume fun _ => .bind .consume fun _ => .bind .markOrName fun _ =>
    .bind (.ifAt .newName) fun _ => closing_expect rfl

theorem imports (hg : g.Tracks E g') :
    Tracks E pre a (Node.shift E.shift) g.imports g'.imports :=
  .bind .flush fun _ => .node (.list (.child hg))

theorem globalImports (hg : g.Tracks E g') :
    Tracks E pre a (Node.shift E.shift) g.globalImports g'.globalImports :=
  .node <| .bind .consume fun _ => .isAt (.bind .setKind fun _ => .consume) (.field (.imports hg))

theorem importsFrom (hg : g.Tracks E g') {path : Node} : Tracks E pre a (Node.shift E.shift)
    (g.importsFrom path) (g'.importsFrom (path.shift E.shift)) := by
  refine .lookAt (fun s _ => .choose (.node ?_) (.choose (.node ?_) (.choose (.node ?_) (.pure _))))
    fun {s s'} _ hf halike => ?_
  · exact .bind .pushField fun _ => .bind .consume fun _ => .field (.imports hg)
  · exact .bind .push fun _ => .bind .consume fun _ => .consume
  · exact .bind .pushField fun _ => .newName
  · rw [halike.isAt, halike.isAt]
    cases hk : s.isAt .colonColon with
    | false => rfl
    | true => rw [halike.ahead_one hf (by rw [show s.kind = _ from eq_of_beq hk]; rfl)]

theorem useClause (hg : g.Tracks E g') :
    Tracks E pre a (Node.shift E.shift) g.useClause g'.useClause := by
  refine .bind .flush fun _ => .lookAt (fun s _ => .choose (.imports hg)
    (.choose (.node .consume) (.choose (.globalImports hg) ?_))) fun {s s'} _ hf halike => ?_
  · exact .bind .simplePath fun _ => .importsFrom hg
  · rw [halike.isAt, halike.isAt, halike.isAt]
    cases hk : s.isAt .colonColon with
    | false => rfl
    | true => rw [halike.ahead_one hf (by rw [show s.kind = _ from eq_of_beq hk]; rfl)]

theorem useDeclaration (hg : g.Tracks E g') :
    Closes closes E pre a id g.useDeclaration g'.useDeclaration :=
  .bind .setKind fun _ => .bind .consume fun _ => .bind (.field hg) fun _ => closing_expect rfl

/-! ### Structures and enumerations -/

theorem fieldDeclaration (hg : g.Tracks E g') :
    Tracks E pre a id g.fieldDeclaration g'.fieldDeclaration :=
  .bind (.attributes hg) fun _ => .bind .flush fun _ => .child <| .node <|
    .bind .visibilityIf fun _ => .bind .expectName fun _ => .bind .expect fun _ => .field hg

theorem fieldDeclarations (hg : g.Tracks E g') :
    Closes closes E pre a (Node.shift E.shift) g.fieldDeclarations g'.fieldDeclarations :=
  .bind .flush fun _ => closing_node (closing_list rfl (.fieldDeclaration hg))

theorem orderedFieldDeclarations (hg : g.Tracks E g') :
    Tracks E pre a (Node.shift E.shift) g.orderedFieldDeclarations g'.orderedFieldDeclarations :=
  .bind .flush fun _ => .node <| .list <| .bind (.attributes hg) fun _ => .bind .visibilityIf fun _ =>
    .field hg

theorem structureBody (hg : g.Tracks E g') {isStruct : Bool} :
    Closes closes E pre a id (g.structureBody isStruct) (g'.structureBody isStruct) := by
  refine .kind fun c _ => .choose (closing_field (.fieldDeclarations hg)) (.choose ?_ ?_)
  · exact .bind (.field (.orderedFieldDeclarations hg)) fun _ => .bind (.whereClauseIf hg) fun _ =>
      closing_expect rfl
  · refine .chooseThat (fun hc => ?_) fun _ => closing_absorbBrace .reportExpected .reportExpected
    rw [eq_of_beq (Bool.and_eq_true_iff.1 hc).2]
    exact closing_consume rfl

theorem structItem (hg : g.Tracks E g') : Closes closes E pre a id g.structItem g'.structItem :=
  .bind .setKind fun _ => .bind .consume fun _ => .bind .expectName fun _ =>
    .bind (.typeParametersIf hg) fun _ => .bind (.whereClauseIf hg) fun _ => .structureBody hg

theorem unionItem (hg : g.Tracks E g') : Closes closes E pre a id g.unionItem g'.unionItem :=
  .bind .setKind fun _ => .bind .consumeAs fun _ => .bind .expectName fun _ =>
    .bind (.typeParametersIf hg) fun _ => .bind (.whereClauseIf hg) fun _ => .structureBody hg

theorem variantFields (hg : g.Tracks E g') :
    Tracks E pre a id g.variantFields g'.variantFields := by
  refine .kind fun c _ => ?_
  split
  · exact .field (.tracks (.fieldDeclarations hg))
  · exact .field (.orderedFieldDeclarations hg)
  · exact .pure _

theorem variant (hg : g.Tracks E g') :
    Tracks E pre a (Node.shift E.shift) g.variant g'.variant :=
  .bind .flush fun _ => .node <| .bind .visibilityIf fun _ => .bind .expectName fun _ =>
    .bind (.variantFields hg) fun _ => .ifAt (.bind .consume fun _ => .field hg)

theorem enumItem (hg : g.Tracks E g') : Closes closes E pre a id g.enumItem g'.enumItem :=
  .bind .setKind fun _ => .bind .consume fun _ => .bind .expectName fun _ =>
    .bind (.typeParametersIf hg) fun _ => .bind (.whereClauseIf hg) fun _ => .bind .flush fun _ =>
    closing_field <| closing_node <| closing_list rfl <| .bind (.attributes hg) fun _ =>
      .child (.variant hg)

/-! ### Items -/

theorem notAnItem : Closes closes E [] a id Grammar.notAnItem Grammar.notAnItem :=
  closing_error (.bind .reportExpected fun _ => .failDraft) <|
    .settling .reportExpected fun _ => .modifyDraft

theorem itemAtUnsafe (hg : g.Closes closes E g') {s : Session} :
    Closes closes E pre (some .unsafeKw) id (g.itemAtUnsafe s) (g'.itemAtUnsafe s) := by
  unfold Grammar.itemAtUnsafe
  split
  · exact .implItem hg
  · exact .traitItem hg
  · exact .bind (.textAhead_one rfl) fun word => .choose (c := word == "auto") (.traitItem hg)
      (.functionItem hg)
  · exact .choose (.foreignModItem hg) (.functionItem hg)
  · exact .functionItem hg

theorem itemAtExtern (hg : g.Closes closes E g') {s : Session} :
    Closes closes E pre a id (g.itemAtExtern s) (g'.itemAtExtern s) :=
  .choose .externCrateDeclaration (.choose (.foreignModItem hg) (.functionItem hg))

theorem itemAtDefault (hg : g.Closes closes E g') {s : Session} :
    Closes closes E pre a id (g.itemAtDefault s) (g'.itemAtDefault s) := by
  unfold Grammar.itemAtDefault
  split
  · exact .implItem hg
  · exact .typeItem hg.tracks
  · exact .choose (.functionItem hg) (.constItem hg.tracks)
  · exact .functionItem hg

theorem itemAtWord (hg : g.Closes closes E g') {s : Session} :
    Closes closes E [] a id (g.itemAtWord s) (g'.itemAtWord s) := by
  refine .bind .tokenText fun word => ?_
  dsimp only [id]
  split
  · exact .choose (.unionItem hg.tracks) .notAnItem
  · exact .choose (.traitItem hg) .notAnItem
  · exact .choose (.macroDefinition hg.tracks) .notAnItem
  · exact .itemAtDefault hg
  · exact .notAnItem

/-- Where an item begins with a word, the same few tokens follow in both sessions. -/
theorem itemAt_agree {s s' : Session} (halike : s.Alike E pre s') (hf : s.Fair E)
    (hguide : s.kind.isGuide = true) :
    g'.itemAtConst s' = g'.itemAtConst s ∧ g'.itemAtUnsafe s' = g'.itemAtUnsafe s ∧
      g'.itemAtExtern s' = g'.itemAtExtern s ∧ g'.itemAtWord s' = g'.itemAtWord s := by
  have hahead := halike.ahead_one hf hguide
  have hface : (s.scannerAhead 1).Abreast E (s'.scannerAhead 1) := (halike.abreast hf).next hguide
  have hforeign (hk : s.ahead 1 = .externKw) : s'.foreignAhead 2 = s.foreignAhead 2 :=
    Session.Alike.foreignAhead
      (hface.next (by rw [show (s.scannerAhead 1).kind = _ from hk]; rfl))
  have hdefault : g'.itemAtDefault s' = g'.itemAtDefault s := by
    unfold Grammar.itemAtDefault
    rw [hahead]
    split
    case h_3 hk => rw [halike.ahead_two hf hguide (by rw [hk]; rfl)]
    all_goals rfl
  refine ⟨?_, ?_, ?_, ?_⟩
  · unfold Grammar.itemAtConst
    rw [hahead]
  · unfold Grammar.itemAtUnsafe
    rw [hahead]
    split
    case h_4 hk => rw [hforeign hk]
    all_goals rfl
  · unfold Grammar.itemAtExtern
    rw [hahead, Session.Alike.foreignAhead hface]
  · unfold Grammar.itemAtWord
    rw [hahead, hdefault]

theorem itemForm (hg : g.Closes closes E g') : Closes closes E [] a id g.itemForm g'.itemForm := by
  refine .lookAt (fun s _ => ?_) fun {s s'} _ hf halike => ?_
  · split
    case h_1 | h_2 => exact .functionItem hg
    case h_3 => exact .choose (.functionItem hg) (.constItem hg.tracks)
    case h_4 hk => exact hk ▸ .itemAtUnsafe hg
    case h_5 => exact .itemAtExtern hg
    case h_6 => exact .staticItem hg.tracks
    case h_7 => exact .structItem hg.tracks
    case h_8 => exact .enumItem hg.tracks
    case h_9 => exact .traitItem hg
    case h_10 => exact .implItem hg
    case h_11 => exact .typeItem hg.tracks
    case h_12 => exact .modItem hg
    case h_13 => exact .useDeclaration hg.tracks
    case h_14 => exact .itemAtWord hg
    case h_15 => exact .notAnItem
  · rw [halike.kind]
    split
    case h_3 hk => exact (itemAt_agree halike hf (by rw [hk]; rfl)).1
    case h_4 hk => exact (itemAt_agree halike hf (by rw [hk]; rfl)).2.1
    case h_5 hk => exact (itemAt_agree halike hf (by rw [hk]; rfl)).2.2.1
    case h_14 hk => exact (itemAt_agree halike hf (by rw [hk]; rfl)).2.2.2
    all_goals rfl

theorem item (hg : g.Tracks E g') : Tracks E pre a id g.item g'.item := by
  refine .bind .flush fun _ => .isAt (.bind (.child (.attributeItem hg)) fun _ => .pure _) ?_
  refine .test .isAtItem (.bind (.child (.node ?_)) fun _ => .pure _) (.pure _)
  exact .bind .visibilityIf fun _ => .itemForm hg.closes

/-! ### Statements -/

theorem letDeclaration (hg : g.Tracks E g') :
    Closes closes E pre a (Node.shift E.shift) g.letDeclaration g'.letDeclaration :=
  closing_node <| .bind .consume fun _ => .bind .consumeIf fun _ => .bind (.field hg) fun _ =>
    .bind (.ifAt (.bind .consume fun _ => .field hg)) fun _ =>
    .bind (.ifAt (.bind .consume fun _ => .field hg)) fun _ =>
    .bind (.ifAt (.bind .consume fun _ => .field hg)) fun _ => closing_expect rfl

theorem expressionStatement (hg : g.Tracks E g') :
    Tracks E pre a id g.expressionStatement g'.expressionStatement := by
  refine .bind (.statementExpression hg) fun (n, isBlockLike) => ?_
  show Tracks E pre none id _ (Parse.kind >>= fun c => if (c == .semicolon) = true then _
    else if (isBlockLike || Grammar.isBraceCall (n.shift E.shift)) = true then _ else _)
  rw [Grammar.isBraceCall_shift]
  refine .kind fun _ _ => .choose (.child (.node ?_)) (.choose (.child (.node .push)) (.choose .push
    (.child (.node ?_))))
  · exact .bind .push fun _ => .consume
  · exact .bind .push fun _ => .expect

theorem statement (hg : g.Tracks E g') : Tracks E pre a id g.statement g'.statement := by
  refine .bind .flush fun _ => .kind fun c _ => ?_
  split
  · exact .child (.node .consume)
  · exact .child (.tracks (.letDeclaration hg))
  · exact .test .isAtItem (.bind (.item hg) fun _ => .pure _)
      (.test .isAtExpression (.expressionStatement hg) (.pure _))

theorem itemStatement (hg : g.Tracks E g') : Tracks E pre a id g.itemStatement g'.itemStatement :=
  .bind .isAtMacro fun m => .bind .isAtItem fun i => .choose (c := m && !i) (.expressionStatement hg)
    (.test (.item hg) (.pure _) .recoverUntil)

theorem rowStatement (hg : g.Tracks E g') {row : Grammar.Row} :
    Tracks E pre a id (g.rowStatement row) (g'.rowStatement row) :=
  .choose (.itemStatement hg) (.statement hg)

theorem rowMember (hg : g.Tracks E g') {row : Grammar.Row} :
    Tracks E pre a id (g.rowMember row) (g'.rowMember row) := by
  refine .bind .offset fun before => .bind (.rowStatement hg) fun _ => .look (fun s =>
    if (s.offset == before && !s.isAt .endOfFile) = true then Parse.recoverStatement else Pure.pure ())
    (fun _ _ => .choose .recoverUntil (.pure _)) fun {s s'} _ _ halike => ?_
  have hoffset : (s.offset + E.shift == before + E.shift) = (s.offset == before) := by simp
  rw [halike.offset, hoffset, halike.isAt]

theorem rowTurn (hg : g.Tracks E g') {row : Grammar.Row} :
    Tracks E pre a id (g.rowTurn row) (g'.rowTurn row) := by
  refine .bind .flush fun _ => .kind fun c _ => ?_
  split
  · exact .pure _
  · refine .test .absorbBrace (.pure _) (.choose (.pure _) ?_)
    exact .bind .reportUnexpected fun _ => .bind (.child (.node .consume)) fun _ => .pure _
  · exact .bind (.rowMember hg) fun _ => .pure _

theorem statements (hg : g.Tracks E g') {row : Grammar.Row} :
    Tracks E pre a id (g.statements row) (g'.statements row) :=
  .repeatWhile (.rowTurn hg)

theorem braced (hg : g.Tracks E g') {row : Grammar.Row} :
    Closes closes E pre a id (g.braced row) (g'.braced row) :=
  .isAt (.bind .tokenRange fun _ => .bind .consume fun _ => .bind (.statements hg) fun _ =>
    closing_close) closing_missingGroup

theorem blockBody (hg : g.Tracks E g') : Closes closes E pre a id g.blockBody g'.blockBody :=
  .unrestricted (.braced hg)

theorem block (hg : g.Tracks E g') :
    Closes closes E pre a (Node.shift E.shift) g.block g'.block :=
  .bind .flush fun _ => closing_guarded (closing_node (.blockBody hg))

theorem declarationList (hg : g.Tracks E g') :
    Closes closes E pre a (Node.shift E.shift) g.declarationList g'.declarationList :=
  .bind .flush fun _ => closing_node (.braced hg)

end Parse.Follows

end ConcreteSyntax
