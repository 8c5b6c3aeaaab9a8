import ConcreteSyntax.Proofs.Sheds.Statement

/-! # The grammar without comments

The productions of expressions shed comments, and so does every nonterminal, to any depth of nesting
(`Grammar.sheds_upTo`). -/

namespace ConcreteSyntax

open Parse

namespace Parse.Sheds

variable {P : Scanner → Prop} {T : Draft.Trait} {g : Grammar}

/-! ### Closures -/

theorem closureParameter (hg : g.Sheds) :
    Sheds P T Node.Bares g.closureParameter g.closureParameter := by
  refine .bind .flush fun _ => .draw hg.parse fun _ _ h => .isAt (.bind .settle fun _ => .node rfl ?_)
    (.bind .settle fun _ => .give h)
  exact .bind (.pushField h) fun _ => .bind .consume fun _ => .field hg.parse

theorem closureParameterTurn (hg : g.Sheds) :
    Sheds P T Eq g.closureParameterTurn g.closureParameterTurn := by
  refine .bind .flush fun _ => .kind fun c => .choose (.bind .expect fun _ => .pure _) ?_
  refine .bind (.attributes hg) fun _ => .bind (.child (.closureParameter hg)) fun _ =>
    .kind fun c => ?_
  split
  · exact .bind .consume fun _ => .pure _
  · exact .pure _
  · exact .bind .expect fun _ => .pure _

theorem closureParameters (hg : g.Sheds) :
    Sheds P T Node.Bares g.closureParameters g.closureParameters :=
  .node rfl <| .isAt (.bind .split fun _ => .bind .consume fun _ => .consume)
    (.bind .expect fun _ => .repeatWhile (.closureParameterTurn hg))

theorem closureBody (hg : g.Sheds) : Sheds P T Eq g.closureBody g.closureBody :=
  .isAt (.bind (.returnTypeIf hg) fun _ => .field hg.parse) (.field (.expression hg))

theorem closure (hg : g.Sheds) : Sheds P T Node.Bares g.closure g.closure :=
  .node rfl <| .bind .consumeIf fun _ => .bind .consumeIf fun _ => .bind .flush fun _ =>
    .bind (.field (.closureParameters hg)) fun _ => .closureBody hg

/-! ### Conditions and branches -/

theorem condition (hg : g.Sheds) {noStructLiteral : Bool} :
    Sheds P T Node.Bares (g.condition noStructLiteral) (g.condition noStructLiteral) :=
  .draw (.restricted (.expression hg)) fun _ _ h => .give h.asLetChain

theorem letCondition (hg : g.Sheds) : Sheds P T Node.Bares g.letCondition g.letCondition :=
  .node rfl <| .bind .consume fun _ => .bind (.field hg.parse) fun _ => .bind .expect fun _ =>
    .bind .restriction fun _ => .field (.restricted hg.parse)

theorem headExpression (hg : g.Sheds) : Sheds P T Node.Bares g.headExpression g.headExpression :=
  .restricted (.expression hg)

theorem elseClause (hg : g.Sheds) : Sheds P T Node.Bares g.elseClause g.elseClause :=
  .node rfl <| .bind .consume fun _ => .isAt (.child hg.parse) (.child hg.parse)

theorem ifExpression (hg : g.Sheds) : Sheds P T Node.Bares g.ifExpression g.ifExpression :=
  .node rfl <| .bind .consume fun _ => .bind (.field (.condition hg)) fun _ =>
    .bind (.field hg.parse) fun _ => .isAt (.field (.elseClause hg)) (.pure _)

theorem elseIf (hg : g.Sheds) : Sheds P T Node.Bares g.elseIf g.elseIf :=
  .bind .flush fun _ => .guarded (.ifExpression hg)

/-! ### Matches -/

theorem armPattern (hg : g.Sheds) : Sheds P T Node.Bares g.armPattern g.armPattern :=
  .node rfl <| .bind (.child hg.parse) fun _ =>
    .isAt (.bind .consume fun _ => .field (.condition hg)) (.pure _)

theorem matchArm (hg : g.Sheds) : Sheds P T Node.Bares g.matchArm g.matchArm := by
  refine .bind .flush fun _ => .node rfl <| .bind (.attributes hg) fun _ => .bind .flush fun _ =>
    .bind (.field (.armPattern hg)) fun _ => .bind .expect fun _ =>
    .draw (.statementExpression hg) fun (n, isBlockLike) (m, isBlockLike') ⟨h, hends⟩ => ?_
  obtain rfl : isBlockLike' = isBlockLike := hends
  exact .bind (.pushField h) fun _ => .look (fun _ _ => rfl) fun _ _ =>
    .choose .consume (.choose (.pure _) .reportHere)

theorem matchEntry (hg : g.Sheds) : Sheds P T Eq g.matchEntry g.matchEntry :=
  .look (fun _ _ => rfl) fun _ _ => .choose
    (.bind (.child (.matchArm hg)) fun _ => .bind .offset fun _ => .provided .recoverUntil)
    .recoverUntil

theorem matchArms (hg : g.Sheds) : Sheds P T Eq g.matchArms g.matchArms := by
  refine .repeatWhile <| .bind .flush fun _ => .kind fun c => ?_
  split
  · exact .pure _
  · exact .absorbBrace
  · exact .bind (.matchEntry hg) fun _ => .pure _

theorem matchBlock (hg : g.Sheds) : Sheds P T Node.Bares g.matchBlock g.matchBlock :=
  .bind .flush fun _ => .node rfl <| .isAt
    (.bind .tokenRange fun _ => .bind .consume fun _ => .bind (.unrestricted (.matchArms hg)) fun _ =>
      .close) .missingGroup

theorem matchExpression (hg : g.Sheds) :
    Sheds P T Node.Bares g.matchExpression g.matchExpression :=
  .node rfl <| .bind .consume fun _ => .bind (.field (.headExpression hg)) fun _ =>
    .field (.matchBlock hg)

/-! ### Loops -/

theorem whileLoop (hg : g.Sheds) : Sheds P T Eq g.whileLoop g.whileLoop :=
  .bind (.setKind rfl) fun _ => .bind .consume fun _ => .bind (.field (.condition hg)) fun _ =>
    .field hg.parse

theorem endlessLoop (hg : g.Sheds) : Sheds P T Eq g.endlessLoop g.endlessLoop :=
  .bind (.setKind rfl) fun _ => .bind .consume fun _ => .field hg.parse

theorem forLoop (hg : g.Sheds) : Sheds P T Eq g.forLoop g.forLoop :=
  .bind (.setKind rfl) fun _ => .bind .consume fun _ => .bind (.field hg.parse) fun _ =>
    .bind .expect fun _ => .bind (.field (.headExpression hg)) fun _ => .field hg.parse

theorem labeled (hg : g.Sheds) : Sheds P T Node.Bares g.labeled g.labeled := by
  refine .draw (.collectBare (Draft.bares_ofKind rfl)
    (.bind (.child (.quotedName rfl)) fun _ => .expect)) fun _ _ h => .kind fun c => ?_
  split
  · exact .resume h (.endlessLoop hg)
  · exact .resume h (.whileLoop hg)
  · exact .resume h (.forLoop hg)
  · exact .guarded (.resume h (.blockBody hg))
  · exact .resume h (.bind .reportExpected fun _ => .failDraft)

/-! ### Primary expressions -/

theorem fieldInitializer (hg : g.Sheds) :
    Sheds P T Node.Bares g.fieldInitializer g.fieldInitializer := by
  refine .bind .flush fun _ => .look (fun _ _ => rfl) fun s _ =>
    .choose (.node rfl ?_) (.choose (.node rfl ?_) (.node rfl ?_))
  · exact .bind .consume fun _ => .child (.expression hg)
  · exact .bind .memberName fun _ => .bind .consume fun _ => .field (.expression hg)
  · exact .choose .consume .expectName

theorem structExpression (hg : g.Sheds) {path path' : Node} (h : path.Bares path') :
    Sheds P T Node.Bares (g.structExpression path) (g.structExpression path') :=
  .node rfl <| .bind (.pushField h.asType) fun _ => .field <| .node rfl <| .unrestricted <| .list <|
    .bind (.attributes hg) fun _ => .child (.fieldInitializer hg)

theorem pathExpression (hg : g.Sheds) :
    Sheds P T Node.Bares g.pathExpression g.pathExpression := by
  refine .draw (.valuePath hg) fun _ _ h => ?_
  rw [h.kind]
  refine .look (fun _ _ => rfl) fun s _ => .choose (.macroCall hg h) (.choose ?_ (.give h))
  exact .bind .restriction fun _ => .choose (.bind .settle fun _ => .give h)
    (.bind .settle fun _ => .structExpression hg h)

theorem furtherElements (hg : g.Sheds) : Sheds P T Eq g.furtherElements g.furtherElements :=
  .repeatWhile <| .isAt (.bind .consume fun _ => .bind .flush fun _ =>
    .test .isAtExpression (.bind (.child (.expression hg)) fun _ => .pure _) (.pure _)) (.pure _)

theorem parenthesized (hg : g.Sheds) : Sheds P T Node.Bares g.parenthesized g.parenthesized := by
  refine .node rfl <| .bind .ahead fun _ => .choose ?_ ?_
  · exact .bind (.setKind rfl) fun _ => .bind .consume fun _ => .consume
  · exact .bind .tokenRange fun _ => .bind .consume fun _ => .bind (.unrestricted <|
      .bind (.child (.expression hg)) fun _ => .bind (.ifAt (.setKind rfl)) fun _ =>
      .furtherElements hg) fun _ => .close

theorem arrayElements (hg : g.Sheds) : Sheds P T Eq g.arrayElements g.arrayElements :=
  .bind .flush fun _ => .test .isAtExpression (.bind (.child (.expression hg)) fun _ => .isAt
    (.bind .settle fun _ => .bind .consume fun _ => .field (.expression hg))
    (.furtherElements hg)) (.pure _)

theorem arrayExpression (hg : g.Sheds) :
    Sheds P T Node.Bares g.arrayExpression g.arrayExpression :=
  .node rfl <| .bind .tokenRange fun _ => .bind .consume fun _ =>
    .bind (.unrestricted (.arrayElements hg)) fun _ => .close

theorem asyncBlock (hg : g.Sheds) : Sheds P T Node.Bares g.asyncBlock g.asyncBlock :=
  .node rfl <| .bind .consume fun _ => .bind .consumeIf fun _ => .child hg.parse

theorem unsafeBlock (hg : g.Sheds) : Sheds P T Node.Bares g.unsafeBlock g.unsafeBlock :=
  .node rfl <| .bind .consume fun _ => .child hg.parse

theorem constBlock (hg : g.Sheds) : Sheds P T Node.Bares g.constBlock g.constBlock :=
  .node rfl <| .bind .consume fun _ => .field hg.parse

theorem noExpression : Sheds P T Node.Bares Grammar.noExpression Grammar.noExpression :=
  .bind .reportExpected fun _ => .kind fun _ => .choose .missing .skipGroup

theorem primary (hg : g.Sheds) : Sheds P T Node.Bares g.primary g.primary := by
  refine .look (fun _ _ => rfl) fun s _ => ?_
  split
  case h_1 | h_2 | h_3 | h_4 | h_5 | h_6 | h_7 => exact .literal
  case h_8 => exact .leaf
  case h_18 => exact .parenthesized hg
  case h_19 => exact .arrayExpression hg
  case h_20 => exact hg.parse
  case h_21 => exact .labeled hg
  case h_22 => exact .choose (.unsafeBlock hg) .noExpression
  case h_23 => exact .asyncBlock hg
  case h_24 => exact .choose (.constBlock hg) .noExpression
  case h_25 => exact .ifExpression hg
  case h_26 => exact .matchExpression hg
  case h_27 => exact .node rfl (.whileLoop hg)
  case h_28 => exact .node rfl (.endlessLoop hg)
  case h_29 => exact .node rfl (.forLoop hg)
  case h_30 => exact .bind .restriction fun _ => .choose (.letCondition hg) .noExpression
  case h_31 => exact .noExpression
  all_goals exact .pathExpression hg

/-! ### Prefix forms -/

theorem unary (hg : g.Sheds) : Sheds P T Node.Bares g.unary g.unary :=
  .node rfl <| .bind .consume fun _ => .child hg.parse

theorem referenceModifier :
    Sheds P T Eq Grammar.referenceModifier Grammar.referenceModifier :=
  .bind .ahead fun _ => .bind .isAtWord fun _ =>
    .choose (.bind .consumeAs fun _ => .consume) .consumeIf

theorem reference (hg : g.Sheds) : Sheds P T Node.Bares g.reference g.reference :=
  .node rfl <| .isAt (.bind .split fun _ => .bind .consume fun _ => .field hg.parse)
    (.bind .consume fun _ => .bind .referenceModifier fun _ => .field hg.parse)

theorem rangeBefore (hg : g.Sheds) : Sheds P T Node.Bares g.rangeBefore g.rangeBefore :=
  .node rfl <| .bind .consume fun _ => .test .isAtExpression (.child hg.parse) (.pure _)

theorem jumpValue (hg : g.Sheds) : Sheds P T Eq g.jumpValue g.jumpValue :=
  .test .isAtExpression (.child (.expression hg)) (.pure _)

theorem resultJump (hg : g.Sheds) {kind : Kind} (hk : (kind == .macroInvocation) = false) :
    Sheds P T Node.Bares (g.resultJump kind) (g.resultJump kind) :=
  .node hk (.bind .consume fun _ => .jumpValue hg)

theorem labelIf : Sheds P T Eq Grammar.labelIf Grammar.labelIf := .ifAt (.child (.quotedName rfl))

theorem breakExpression (hg : g.Sheds) :
    Sheds P T Node.Bares g.breakExpression g.breakExpression :=
  .node rfl <| .bind .consume fun _ => .bind .labelIf fun _ => .jumpValue hg

theorem continueExpression :
    Sheds P T Node.Bares Grammar.continueExpression Grammar.continueExpression :=
  .node rfl <| .bind .consume fun _ => .labelIf

theorem postfixed (hg : g.Sheds) : Sheds P T Node.Bares g.postfixed g.postfixed :=
  .draw (.primary hg) fun _ _ h => .postfixForms hg h

theorem prefixed (hg : g.Sheds) : Sheds P T Node.Bares g.prefixed g.prefixed := by
  refine .look (fun _ _ => rfl) fun s _ => ?_
  split
  case h_1 | h_2 | h_3 => exact .unary hg
  case h_4 | h_5 => exact .reference hg
  case h_6 | h_7 => exact .rangeBefore hg
  case h_8 | h_9 | h_10 => exact .closure hg
  case h_11 => exact .choose (.closure hg) (.postfixed hg)
  case h_12 | h_13 => exact .resultJump hg rfl
  case h_14 => exact .breakExpression hg
  case h_15 => exact .continueExpression
  case h_16 => exact .postfixed hg

theorem expressionFrom (hg : g.Sheds) {min : Precedence} :
    Sheds P T Node.Bares (g.expressionFrom min) (g.expressionFrom min) :=
  .bind .flush fun _ => .guarded <| .draw (.prefixed hg) fun _ _ h => .infixForms hg h

theorem operand (hg : g.Sheds) : Sheds P T Node.Bares g.operand g.operand :=
  .bind .flush fun _ => .guarded (.prefixed hg)

/-! ### Nonterminals -/

theorem production (hg : g.Sheds) {nonterminal : Nonterminal} :
    Sheds P T Node.Bares (g.production nonterminal) (g.production nonterminal) := by
  cases nonterminal with
  | type => exact .type hg
  | innerReferenceType => exact .guarded (.referenceType hg)
  | pattern => exact .pattern hg
  | singlePattern => exact .singlePattern hg
  | innerReferencePattern => exact .guarded (.referencePattern hg)
  | expression min => exact .expressionFrom hg
  | operand => exact .operand hg
  | innerReference => exact .guarded (.reference hg)
  | blockLike => exact .guarded (.primary hg)
  | block => exact .block hg
  | elseIf => exact .elseIf hg
  | tokenTree form => exact (Sheds.tokenTree hg).mono (fun _ => id) fun _ _ h => h.toBares
  | repetition form => exact .repetition hg
  | useClause => exact .useClause hg
  | declarationList => exact .declarationList hg

/-- What a reading that watches has open is the same in both sessions. -/
theorem opening {R : Node → Node → Prop} {nonterminal : Nonterminal} {m m' : Parse Node}
    (h : Sheds P T R m m') :
    Sheds P T R (Parse.opening nonterminal m) (Parse.opening nonterminal m') := by
  refine .setting (fun _ => rfl) fun σ => .choose ?_ h
  refine .look (fun _ _ => rfl) fun s _ => .choose .outOfTurns ?_
  exact ⟨fun {σ s w} hσ hs hP => ⟨fun hrun =>
    (h.follow (σ := { σ with opened := _ :: σ.opened }) hσ hs hP).run hrun⟩⟩

end Parse.Sheds

/-- Every nonterminal sheds comments, to any depth of nesting. -/
theorem Grammar.sheds_upTo (n : Nat) : (upTo n).Sheds := by
  induction n with
  | zero => exact ⟨.outOfTurns, .outOfTurns⟩
  | succ n ih => exact ⟨.opening (.production ih), .opening (.tokenTree ih)⟩

end ConcreteSyntax
