import ConcreteSyntax.Proofs.Reading.Run
import ConcreteSyntax.Proofs.Rereading.Statement

/-! # The grammar composes nodes that may be read again

The productions of expressions compose nodes that may be read again, and so does every nonterminal,
to any depth of nesting (`Grammar.composes_upTo`). -/

namespace ConcreteSyntax

open Parse

namespace Parse.Composes

variable {T : Mould} {g : Grammar}

/-! ### Closures -/

theorem closureParameter (hg : g.Composes) : Composes T Node.Rereadable g.closureParameter := by
  refine .bind .flush fun _ => .draw hg.parse fun _ h => .isAt (.bind .settle fun _ => .node rfl ?_)
    (.bind .settle fun _ => .give h)
  exact .bind (.pushField h) fun _ => .bind .consume fun _ => .field hg.parse

theorem closureParameterTurn (hg : g.Composes) :
    Composes .plain Anything g.closureParameterTurn := by
  refine .bind .flush fun _ => .kind fun c => .choose (.bind (.expect rfl) fun _ => .pure _) ?_
  refine .bind (.attributes hg) fun _ => .bind (.child (.closureParameter hg)) fun _ =>
    .kind fun c => ?_
  split
  · exact .bind .consume fun _ => .pure _
  · exact .pure _
  · exact .bind (.expect rfl) fun _ => .pure _

theorem closureParameters (hg : g.Composes) : Composes T Node.Rereadable g.closureParameters :=
  .node rfl <| .isAt
    (.bind (.split rfl) fun _ => .bind .consume fun _ => .consume)
    (.bind (.expect rfl) fun _ => .repeatWhile (.closureParameterTurn hg))

theorem closureBody (hg : g.Composes) : Composes .plain Anything g.closureBody :=
  .isAt (.bind (.returnTypeIf hg) fun _ => .field hg.parse) (.field hg.parse)

theorem closure (hg : g.Composes) : Composes T Node.Rereadable g.closure :=
  .node rfl <| .bind .consumeIf fun _ => .bind .consumeIf fun _ => .bind .flush fun _ =>
    .bind (.field (.closureParameters hg)) fun _ => .closureBody hg

/-! ### Heads -/

theorem condition (hg : g.Composes) {noStructLiteral : Bool} :
    Composes T Node.Rereadable (g.condition noStructLiteral) :=
  .draw (.restricted hg.parse) fun _ h => .give h.asLetChain

theorem headExpression (hg : g.Composes) : Composes T Node.Rereadable g.headExpression :=
  .restricted hg.parse

theorem letCondition (hg : g.Composes) : Composes T Node.Rereadable g.letCondition :=
  .node rfl <| .bind .consume fun _ => .bind (.field hg.parse) fun _ => .bind (.expect rfl) fun _ =>
    .restriction fun _ => .field (.restricted hg.parse)

/-! ### Branches -/

theorem elseClause (hg : g.Composes) : Composes T Node.Rereadable g.elseClause :=
  .node rfl <| .bind .consume fun _ => .isAt (.child hg.parse) (.child hg.parse)

theorem ifExpression (hg : g.Composes) : Composes T Node.Rereadable g.ifExpression :=
  .node rfl <| .bind .consume fun _ => .bind (.field (.condition hg)) fun _ =>
    .bind (.field hg.parse) fun _ => .isAt (.field (.elseClause hg)) (.pure _)

theorem elseIf (hg : g.Composes) : Composes T Node.Rereadable g.elseIf :=
  .bind .flush fun _ => .guarded (.ifExpression hg)

/-! ### Matches -/

theorem armPattern (hg : g.Composes) : Composes T Node.Rereadable g.armPattern :=
  .node rfl <| .bind (.child hg.parse) fun _ =>
    .isAt (.bind .consume fun _ => .field (.condition hg)) (.pure _)

theorem matchArm (hg : g.Composes) : Composes T Node.Rereadable g.matchArm := by
  refine .bind .flush fun _ => .node rfl <| .bind (.attributes hg) fun _ => .bind .flush fun _ =>
    .bind (.field (.armPattern hg)) fun _ => .bind (.expect rfl) fun _ =>
    .draw (.statementExpression hg) fun (n, isBlockLike) h => ?_
  exact .bind (.pushField h) fun _ => .look fun _ =>
    .choose .consume (.choose (.pure _) .reportHere)

theorem matchEntry (hg : g.Composes) : Composes .plain Anything g.matchEntry :=
  .look fun _ => .choose
    (.bind (.child (.matchArm hg)) fun _ => .bind .offset fun _ => .provided .recoverUntil)
    .recoverUntil

theorem matchArms (hg : g.Composes) : Composes .plain Anything g.matchArms := by
  refine .repeatWhile <| .bind .flush fun _ => .kind fun c => ?_
  split
  · exact .pure _
  · exact .absorbBrace
  · exact .bind (.matchEntry hg) fun _ => .pure _

theorem matchBlock (hg : g.Composes) : Composes T Node.Rereadable g.matchBlock :=
  .bind .flush fun _ => .node rfl <| .isAt
    (.tokenRange fun _ => .bind .consume fun _ => .bind (.restricted (.matchArms hg))
      fun _ => .close) (.missingGroup rfl rfl)

theorem matchExpression (hg : g.Composes) : Composes T Node.Rereadable g.matchExpression :=
  .node rfl <| .bind .consume fun _ => .bind (.field (.headExpression hg)) fun _ =>
    .field (.matchBlock hg)

/-! ### Loops -/

theorem whileLoop (hg : g.Composes) : Composes .plain Anything g.whileLoop :=
  .bind (.setKind rfl) fun _ => .bind .consume fun _ => .bind (.field (.condition hg)) fun _ =>
    .field hg.parse

theorem endlessLoop (hg : g.Composes) : Composes .plain Anything g.endlessLoop :=
  .bind (.setKind rfl) fun _ => .bind .consume fun _ => .field hg.parse

theorem forLoop (hg : g.Composes) : Composes .plain Anything g.forLoop :=
  .bind (.setKind rfl) fun _ => .bind .consume fun _ => .bind (.field hg.parse) fun _ =>
    .bind (.expect rfl) fun _ => .bind (.field (.headExpression hg)) fun _ => .field hg.parse

theorem labeled (hg : g.Composes) : Composes T Node.Rereadable g.labeled := by
  refine .draw (.collect (Draft.fits_plain rfl)
    (.bind (.child (.quotedName rfl)) fun _ => .expect rfl)) fun _ h => .kind fun c => ?_
  split
  · exact .resume h (.endlessLoop hg)
  · exact .resume h (.whileLoop hg)
  · exact .resume h (.forLoop hg)
  · exact .guarded (.resume h (.blockBody hg))
  · exact .resume h (.bind .reportExpected fun _ => .failDraft)

/-! ### Primary expressions -/

theorem fieldInitializer (hg : g.Composes) : Composes T Node.Rereadable g.fieldInitializer := by
  refine .bind .flush fun _ => .look fun s =>
    .choose (.node rfl ?_) (.choose (.node rfl ?_) (.node rfl ?_))
  · exact .bind .consume fun _ => .child hg.parse
  · exact .bind .memberName fun _ => .bind .consume fun _ => .field hg.parse
  · exact .choose .consume (.expectName rfl)

theorem structExpression (hg : g.Composes) {path : Node} (h : path.Rereadable) :
    Composes T Node.Rereadable (g.structExpression path) :=
  .node rfl <| .bind (.pushField h.asType) fun _ =>
    .field <| .node rfl <| .unrestricted <| .list rfl rfl <|
      .bind (.attributes hg) fun _ => .child (.fieldInitializer hg)

theorem pathExpression (hg : g.Composes) : Composes T Node.Rereadable g.pathExpression := by
  refine .draw (.valuePath hg) fun _ h => ?_
  refine .look fun s => .choose (.macroCall hg h) (.choose ?_ (.give h))
  exact .restriction fun _ => .choose (.bind .settle fun _ => .give h)
    (.bind .settle fun _ => .structExpression hg h)

theorem furtherElements (hg : g.Composes) : Composes .plain Anything g.furtherElements :=
  .repeatWhile <| .isAt (.bind .consume fun _ => .bind .flush fun _ =>
    .test .isAtExpression (.bind (.child hg.parse) fun _ => .pure _) (.pure _)) (.pure _)

theorem parenthesized (hg : g.Composes) : Composes T Node.Rereadable g.parenthesized := by
  refine .node rfl <| .ahead fun _ => .choose ?_ ?_
  · exact .bind (.setKind rfl) fun _ => .bind .consume fun _ => .consume
  · exact .tokenRange fun _ => .bind .consume fun _ => .bind (.restricted <|
      .bind (.child hg.parse) fun _ => .bind (.ifAt (.setKind rfl)) fun _ =>
      .furtherElements hg) fun _ => .close

theorem arrayElements (hg : g.Composes) : Composes .plain Anything g.arrayElements :=
  .bind .flush fun _ => .test .isAtExpression (.bind (.child hg.parse) fun _ => .isAt
    (.bind .settle fun _ => .bind .consume fun _ => .field hg.parse)
    (.furtherElements hg)) (.pure _)

theorem arrayExpression (hg : g.Composes) : Composes T Node.Rereadable g.arrayExpression :=
  .node rfl <| .tokenRange fun _ => .bind .consume fun _ =>
    .bind (.restricted (.arrayElements hg)) fun _ => .close

theorem asyncBlock (hg : g.Composes) : Composes T Node.Rereadable g.asyncBlock :=
  .node rfl <| .bind .consume fun _ => .bind .consumeIf fun _ => .child hg.parse

theorem unsafeBlock (hg : g.Composes) : Composes T Node.Rereadable g.unsafeBlock :=
  .node rfl <| .bind .consume fun _ => .child hg.parse

theorem constBlock (hg : g.Composes) : Composes T Node.Rereadable g.constBlock :=
  .node rfl <| .bind .consume fun _ => .field hg.parse

theorem noExpression : Composes T Node.Rereadable Grammar.noExpression :=
  .bind .reportExpected fun _ => .kind fun _ => .choose (.standIn rfl) .skipGroup

theorem primary (hg : g.Composes) : Composes T Node.Rereadable g.primary := by
  refine .look fun s => ?_
  split
  case h_1 | h_2 | h_3 | h_4 | h_5 | h_6 | h_7 => exact .literal
  case h_8 => exact .leaf readPlain_none
  case h_18 => exact .parenthesized hg
  case h_19 => exact .arrayExpression hg
  case h_20 => exact hg.parse
  case h_21 => exact .labeled hg
  case h_22 => exact .choose (.unsafeBlock hg) .noExpression
  case h_23 => exact .asyncBlock hg
  case h_24 => exact .choose (.constBlock hg) .noExpression
  case h_25 => exact .ifExpression hg
  case h_26 => exact .matchExpression hg
  case h_27 => exact .node rfl (.whileLoop hg)
  case h_28 => exact .node rfl (.endlessLoop hg)
  case h_29 => exact .node rfl (.forLoop hg)
  case h_30 => exact .restriction fun _ => .choose (.letCondition hg) .noExpression
  case h_31 => exact .noExpression
  all_goals exact .pathExpression hg

/-! ### Prefix forms -/

theorem unary (hg : g.Composes) : Composes T Node.Rereadable g.unary :=
  .node rfl <| .bind .consume fun _ => .child hg.parse

theorem referenceModifier : Composes .plain Anything Grammar.referenceModifier :=
  .ahead fun _ => .bind .isAtWord fun _ =>
    .choose (.bind (.consumeAs rfl) fun _ => .consume) .consumeIf

theorem reference (hg : g.Composes) : Composes T Node.Rereadable g.reference :=
  .node rfl <| .isAt
    (.bind (.split rfl) fun _ => .bind .consume fun _ =>
      .field hg.parse)
    (.bind .consume fun _ => .bind .referenceModifier fun _ => .field hg.parse)

theorem rangeBefore (hg : g.Composes) : Composes T Node.Rereadable g.rangeBefore :=
  .node rfl <| .bind .consume fun _ => .test .isAtExpression (.child hg.parse) (.pure _)

theorem jumpValue (hg : g.Composes) : Composes .plain Anything g.jumpValue :=
  .test .isAtExpression (.child hg.parse) (.pure _)

theorem resultJump (hg : g.Composes) {kind : Kind}
    (hk : kind.isRejoined = false) : Composes T Node.Rereadable (g.resultJump kind) :=
  .node hk (.bind .consume fun _ => .jumpValue hg)

theorem labelIf : Composes .plain Anything Grammar.labelIf :=
  .ifAt (.child (.quotedName rfl))

theorem breakExpression (hg : g.Composes) : Composes T Node.Rereadable g.breakExpression :=
  .node rfl <| .bind .consume fun _ => .bind .labelIf fun _ => .jumpValue hg

theorem continueExpression : Composes T Node.Rereadable Grammar.continueExpression :=
  .node rfl <| .bind .consume fun _ => .labelIf

theorem postfixed (hg : g.Composes) : Composes T Node.Rereadable g.postfixed :=
  .draw (.primary hg) fun _ h => .postfixForms hg h

theorem prefixed (hg : g.Composes) : Composes T Node.Rereadable g.prefixed := by
  refine .look fun s => ?_
  split
  case h_1 | h_2 | h_3 => exact .unary hg
  case h_4 | h_5 => exact .reference hg
  case h_6 | h_7 => exact .rangeBefore hg
  case h_8 | h_9 | h_10 => exact .closure hg
  case h_11 => exact .choose (.closure hg) (.postfixed hg)
  case h_12 | h_13 => exact .resultJump hg rfl
  case h_14 => exact .breakExpression hg
  case h_15 => exact .continueExpression
  case h_16 => exact .postfixed hg

theorem expressionFrom (hg : g.Composes) {min : Precedence} :
    Composes T Node.Rereadable (g.expressionFrom min) :=
  .bind .flush fun _ => .guarded <| .draw (.prefixed hg) fun _ h => .infixForms hg h

theorem operand (hg : g.Composes) : Composes T Node.Rereadable g.operand :=
  .bind .flush fun _ => .guarded (.prefixed hg)

/-! ### Nonterminals -/

theorem production (hg : g.Composes) {nonterminal : Nonterminal} :
    Composes T Node.Rereadable (g.production nonterminal) := by
  cases nonterminal with
  | type => exact .type hg
  | innerReferenceType => exact .guarded (.referenceType hg)
  | pattern => exact .pattern hg
  | singlePattern => exact .singlePattern hg
  | innerReferencePattern => exact .guarded (.referencePattern hg)
  | expression min => exact .expressionFrom hg
  | operand => exact .operand hg
  | innerReference => exact .guarded (.reference hg)
  | blockLike => exact .guarded (.primary hg)
  | block => exact .block hg
  | elseIf => exact .elseIf hg
  | tokenTree form => exact .tokenTree hg
  | repetition form => exact .repetition hg
  | useClause => exact .useClause hg
  | declarationList => exact .declarationList hg

theorem opening {α : Type} {Q : α → Prop} {nonterminal : Nonterminal} {m : Parse α}
    (h : Composes T Q m) : Composes T Q (Parse.opening nonterminal m) := by
  refine ⟨fun {σ _ _ _} hs hrun => ?_⟩
  obtain ⟨opened, hrun⟩ := opening_eq_some hrun
  exact h.follow (σ := σ.watching σ.watches opened) hs hrun

/-- A whole text. -/
theorem sourceFile (hg : g.Composes) : Composes .plain Anything g.sourceFile :=
  .bind .consumeIf fun _ => .bind (.statements hg) fun _ => .flush

end Parse.Composes

/-- **Every nonterminal composes nodes that may be read again**, to any depth of nesting. -/
theorem Grammar.composes_upTo (n : Nat) : (upTo n).Composes := by
  induction n with
  | zero => exact ⟨.outOfTurns⟩
  | succ n ih => exact ⟨.opening (.production ih)⟩

end ConcreteSyntax
