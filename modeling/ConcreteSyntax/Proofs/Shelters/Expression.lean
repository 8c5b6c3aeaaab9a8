import ConcreteSyntax.Proofs.Reading.Run
import ConcreteSyntax.Proofs.Shelters.Statement

/-! # The grammar shelters literals

The productions of expressions shelter literals, and so does every nonterminal, to any depth of nesting
(`Grammar.shelters_upTo`). What is read in the head of an `if`, a `while`, a `match` or a `for` stands
at a place that forbids bare literals, and every expression inside it either stands there too or is
behind a delimiter. -/

namespace ConcreteSyntax

open Parse

namespace Parse.Shelters

variable {text : List Char} {a : Option Kind} {p : Pledge} {T : Frame} {g : Grammar}

/-! ### Closures -/

theorem closureParameter (hg : g.Shelters text) :
    Shelters text a p T (Node.Fine p) g.closureParameter := by
  refine .bind .flush fun _ => .draw (hg.parse rfl) fun _ h => .isAt (.bind .settle fun _ => .node rfl ?_)
    (.bind .settle fun _ => .give h)
  exact .bind (.pushField h rfl) fun _ => .bind .consume fun _ => .field rfl (hg.parse rfl)

theorem closureParameterTurn (hg : g.Shelters text) :
    Shelters text a p T Anything g.closureParameterTurn := by
  refine .bind .flush fun _ => .kind fun c => .choose (.bind (.expect rfl) fun _ => .pure _) ?_
  refine .bind (.attributes hg) fun _ => .bind (.child (.closureParameter hg)) fun _ =>
    .kind fun c => ?_
  split
  · exact .bind .consume fun _ => .pure _
  · exact .pure _
  · exact .bind (.expect rfl) fun _ => .pure _

theorem closureParameters (hg : g.Shelters text) :
    Shelters text a p T (Node.Fine p) g.closureParameters :=
  .node rfl <| .isAt
    (.bind (.split Scanner.splitsInto_pipePipe) fun _ => .bind .consume fun _ => .consume)
    (.bind (.expect rfl) fun _ => .repeatWhile (.closureParameterTurn hg))

theorem closureBody (hg : g.Shelters text) (hp : p ≠ .nowhere) :
    Shelters text a p T Anything g.closureBody :=
  .isAt (.bind (.returnTypeIf hg) fun _ => .field rfl (hg.parse rfl)) (.field rfl (.expression hg hp))

theorem closure (hg : g.Shelters text) (hp : p ≠ .nowhere) :
    Shelters text a p T (Node.Fine p) g.closure :=
  .node rfl <| .bind .consumeIf fun _ => .bind .consumeIf fun _ => .bind .flush fun _ =>
    .bind (.field rfl (.closureParameters hg)) fun _ => .closureBody hg hp

/-! ### Heads -/

/-- **The condition of an `if` or a `while` exposes no literal.** -/
theorem condition (hg : g.Shelters text) :
    Shelters text a p T (Node.Fine .nowhere) (g.condition true) :=
  .draw (.forbidden rfl (.expression hg nofun))
    fun _ h => .give (h.of_binds fun _ => nofun).asLetChain

/-- The guard of an arm may expose some. -/
theorem guardCondition (hg : g.Shelters text) :
    Shelters text a .anywhere T (Node.Fine .anywhere) (g.condition false) :=
  .draw (.released (.expression hg nofun)) fun _ h => .give h.asLetChain

/-- **The value of a `match` and the sequence of a `for` expose no literal.** -/
theorem headExpression (hg : g.Shelters text) :
    Shelters text a p T (Node.Fine .nowhere) g.headExpression :=
  .mono (.forbidden rfl (.expression hg nofun))
    fun _ h => h.of_binds fun _ => nofun

/-- The value that a `let` matches exposes what the place of the condition lets it. -/
theorem letCondition (hg : g.Shelters text) (hp : p ≠ .nowhere) :
    Shelters text a p T (Node.Fine p) g.letCondition :=
  .node rfl <| .bind .consume fun _ => .bind (.field rfl (hg.parse rfl)) fun _ => .bind (.expect rfl) fun _ =>
    .restriction fun _ hr => .field rfl (.restricted (hg.expression hp) id hr)

/-- A head is put under its label. -/
theorem head {label : Field} {body : Parse Node}
    (h : Shelters text a p T (Node.Fine .nowhere) body) :
    Shelters text a p T Anything (Parse.field label body) :=
  .draw h fun _ hn => .pushHead hn

/-! ### Branches -/

theorem elseClause (hg : g.Shelters text) : Shelters text a p T (Node.Fine p) g.elseClause :=
  .node rfl <| .bind .consume fun _ => .isAt (.child (hg.parse rfl)) (.child (hg.parse rfl))

theorem ifExpression (hg : g.Shelters text) : Shelters text a p T (Node.Fine p) g.ifExpression :=
  .headed nofun <| .bind .consume fun _ => .bind (.head (.condition hg)) fun _ =>
    .bind (.field rfl (hg.parse rfl)) fun _ => .isAt (.field rfl (.elseClause hg)) (.pure _)

theorem elseIf (hg : g.Shelters text) : Shelters text a p T (Node.Fine p) g.elseIf :=
  .bind .flush fun _ => .guarded (.ifExpression hg)

/-! ### Matches -/

theorem armPattern (hg : g.Shelters text) :
    Shelters text a .anywhere T (Node.Fine .anywhere) g.armPattern :=
  .node rfl <| .bind (.child (hg.parse rfl)) fun _ =>
    .isAt (.bind .consume fun _ => .field rfl (.guardCondition hg)) (.pure _)

theorem matchArm (hg : g.Shelters text) :
    Shelters text a .anywhere T (Node.Fine .anywhere) g.matchArm := by
  refine .bind .flush fun _ => .node rfl <| .bind (.attributes hg) fun _ => .bind .flush fun _ =>
    .bind (.field rfl (.armPattern hg)) fun _ => .bind (.expect rfl) fun _ =>
    .draw (.statementExpression hg nofun) fun (n, isBlockLike) h => ?_
  exact .bind (.pushField h rfl) fun _ => .look fun _ =>
    .choose .consume (.choose (.pure _) .reportHere)

theorem matchEntry (hg : g.Shelters text) : Shelters text a .anywhere T Anything g.matchEntry :=
  .look fun _ => .choose
    (.bind (.child (.matchArm hg)) fun _ => .bind .offset fun _ => .provided .recoverUntil)
    .recoverUntil

theorem matchArms (hg : g.Shelters text) : Shelters text a .anywhere T Anything g.matchArms := by
  refine .repeatWhile <| .bind .flush fun _ => .kind fun c => ?_
  split
  · exact .pure _
  · exact .absorbBrace
  · exact .bind (.matchEntry hg) fun _ => .pure _

/-- The arms of a match stand between braces. -/
theorem matchBlock (hg : g.Shelters text) : Shelters text a p T (Node.Fine p) g.matchBlock :=
  .bind .flush fun _ => .node rfl <| .isAt
    (.tokenRange fun _ => .enclosed rfl <| .bind (.released (.matchArms hg)) fun _ => .close)
    (.missingGroup rfl rfl)

theorem matchExpression (hg : g.Shelters text) :
    Shelters text a p T (Node.Fine p) g.matchExpression :=
  .headed nofun <| .bind .consume fun _ => .bind (.head (.headExpression hg)) fun _ =>
    .field rfl (.matchBlock hg)

/-! ### Loops -/

theorem whileLoop (hg : g.Shelters text) : Shelters text a p .sheltered Anything g.whileLoop :=
  .bind (.setKind rfl) fun _ => .bind .consume fun _ => .bind (.head (.condition hg)) fun _ =>
    .field rfl (hg.parse rfl)

theorem endlessLoop (hg : g.Shelters text) : Shelters text a p .sheltered Anything g.endlessLoop :=
  .bind (.setKind rfl) fun _ => .bind .consume fun _ => .field rfl (hg.parse rfl)

theorem forLoop (hg : g.Shelters text) : Shelters text a p .sheltered Anything g.forLoop :=
  .bind (.setKind rfl) fun _ => .bind .consume fun _ => .bind (.field rfl (hg.parse rfl)) fun _ =>
    .bind (.expect rfl) fun _ => .bind (.head (.headExpression hg)) fun _ => .field rfl (hg.parse rfl)

theorem labeled (hg : g.Shelters text) : Shelters text a p T (Node.Fine p) g.labeled := by
  refine .draw (.collect (Draft.fine_ofKind (by decide))
    (.bind (.child (.quotedName rfl)) fun _ => .expect rfl)) fun _ h => .kind fun c => ?_
  split
  · exact .resume h (.endlessLoop hg)
  · exact .resume h (.whileLoop hg)
  · exact .resume h (.forLoop hg)
  · exact .guarded (.resume h (.blockBody hg))
  · exact .resume h (.bind .reportExpected fun _ => .failDraft)

/-! ### Primary expressions -/

theorem fieldInitializer (hg : g.Shelters text) :
    Shelters text a .anywhere T (Node.Fine .anywhere) g.fieldInitializer := by
  refine .bind .flush fun _ => .look fun s =>
    .choose (.node rfl ?_) (.choose (.node rfl ?_) (.node rfl ?_))
  · exact .bind .consume fun _ => .child (.expression hg nofun)
  · exact .bind (.memberName rfl) fun _ => .bind .consume fun _ => .field rfl (.expression hg nofun)
  · exact .choose .consume (.expectName rfl)

/-- A literal is exposed itself; its fields stand between braces. -/
theorem structExpression (hg : g.Shelters text) {path : Node} (h : path.Fine .anywhere) :
    Shelters text a .anywhere T (Node.Fine .anywhere) (g.structExpression path) :=
  .nodeIn .headless rfl (fun hb => absurd rfl hb) <| .bind (.pushField h.asType rfl) fun _ =>
    .field rfl <| .node rfl <| .unrestricted <| .group rfl rfl <|
      .bind (.attributes hg) fun _ => .child (.fieldInitializer hg)

/-- **A path opens a literal only where the place lets it.** -/
theorem pathExpression (hg : g.Shelters text) (hp : p ≠ .nowhere) :
    Shelters text a p T (Node.Fine p) g.pathExpression := by
  refine .draw (.valuePath hg) fun _ h => ?_
  refine .look fun s => .choose (.macroCall hg h) (.choose ?_ (.give h))
  refine .restriction fun restriction hr => ?_
  split
  · exact .bind .settle fun _ => .give h
  · next hfree =>
    -- a place that lets a literal be bare is not one that the pledge depends on
    obtain rfl : p = .anywhere := by
      cases p with
      | anywhere => rfl
      | unlessForbidden => exact absurd (hr rfl) hfree
      | nowhere => exact absurd rfl hp
    exact .bind .settle fun _ => .structExpression hg h

theorem furtherElements (hg : g.Shelters text) :
    Shelters text a .anywhere T Anything g.furtherElements :=
  .repeatWhile <| .isAt (.bind .consume fun _ => .bind .flush fun _ =>
    .test .isAtExpression (.bind (.child (.expression hg nofun)) fun _ => .pure _) (.pure _)) (.pure _)

theorem parenthesized (hg : g.Shelters text) :
    Shelters text (some .openParen) p T (Node.Fine p) g.parenthesized := by
  refine .node rfl <| .ahead fun _ => .choose ?_ ?_
  · exact .bind (.setKind rfl) fun _ => .bind .consume fun _ => .consume
  · exact .tokenRange fun _ => .enclosed rfl <| .bind (.released <|
      .bind (.child (.expression hg nofun)) fun _ => .bind (.ifAt (.setKind rfl)) fun _ =>
      .furtherElements hg) fun _ => .close

theorem arrayElements (hg : g.Shelters text) :
    Shelters text a .anywhere T Anything g.arrayElements :=
  .bind .flush fun _ => .test .isAtExpression (.bind (.child (.expression hg nofun)) fun _ => .isAt
    (.bind .settle fun _ => .bind .consume fun _ => .field rfl (.expression hg nofun))
    (.furtherElements hg)) (.pure _)

theorem arrayExpression (hg : g.Shelters text) :
    Shelters text (some .openBracket) p T (Node.Fine p) g.arrayExpression :=
  .node rfl <| .tokenRange fun _ => .enclosed rfl <|
    .bind (.released (.arrayElements hg)) fun _ => .close

theorem asyncBlock (hg : g.Shelters text) : Shelters text a p T (Node.Fine p) g.asyncBlock :=
  .node rfl <| .bind .consume fun _ => .bind .consumeIf fun _ => .child (hg.parse rfl)

theorem unsafeBlock (hg : g.Shelters text) : Shelters text a p T (Node.Fine p) g.unsafeBlock :=
  .node rfl <| .bind .consume fun _ => .child (hg.parse rfl)

theorem constBlock (hg : g.Shelters text) : Shelters text a p T (Node.Fine p) g.constBlock :=
  .node rfl <| .bind .consume fun _ => .field rfl (hg.parse rfl)

theorem noExpression : Shelters text a p T (Node.Fine p) Grammar.noExpression :=
  .bind .reportExpected fun _ => .kind fun _ => .choose (.missing rfl) .skipGroup

theorem primary (hg : g.Shelters text) (hp : p ≠ .nowhere) :
    Shelters text a p T (Node.Fine p) g.primary := by
  refine .look fun s => ?_
  split
  case h_1 | h_2 | h_3 | h_4 | h_5 | h_6 | h_7 => exact .literal
  case h_8 => exact .leaf nofun
  case h_18 hk => exact hk ▸ .parenthesized hg
  case h_19 hk => exact hk ▸ .arrayExpression hg
  case h_20 => exact hg.parse rfl
  case h_21 => exact .labeled hg
  case h_22 => exact .choose (.unsafeBlock hg) .noExpression
  case h_23 => exact .asyncBlock hg
  case h_24 => exact .choose (.constBlock hg) .noExpression
  case h_25 => exact .ifExpression hg
  case h_26 => exact .matchExpression hg
  case h_27 => exact .headed nofun (.whileLoop hg)
  case h_28 => exact .headed nofun (.endlessLoop hg)
  case h_29 => exact .headed nofun (.forLoop hg)
  case h_30 => exact .restriction fun _ _ => .choose (.letCondition hg hp) .noExpression
  case h_31 => exact .noExpression
  all_goals exact .pathExpression hg hp

/-! ### Prefix forms -/

theorem unary (hg : g.Shelters text) (hp : p ≠ .nowhere) :
    Shelters text a p T (Node.Fine p) g.unary :=
  .node rfl <| .bind .consume fun _ => .child (hg.expression hp)

theorem referenceModifier : Shelters text a p T Anything Grammar.referenceModifier :=
  .ahead fun _ => .bind .isAtWord fun _ =>
    .choose (.bind (.consumeAs rfl) fun _ => .consume) .consumeIf

theorem reference (hg : g.Shelters text) (hp : p ≠ .nowhere) :
    Shelters text a p T (Node.Fine p) g.reference :=
  .node rfl <| .isAt
    (.bind (.split Scanner.splitsInto_ampAmp) fun _ => .bind .consume fun _ =>
      .field rfl (hg.expression hp))
    (.bind .consume fun _ => .bind .referenceModifier fun _ => .field rfl (hg.expression hp))

theorem rangeBefore (hg : g.Shelters text) (hp : p ≠ .nowhere) :
    Shelters text a p T (Node.Fine p) g.rangeBefore :=
  .node rfl <| .bind .consume fun _ => .test .isAtExpression (.child (hg.expression hp)) (.pure _)

theorem jumpValue (hg : g.Shelters text) (hp : p ≠ .nowhere) :
    Shelters text a p T Anything g.jumpValue :=
  .test .isAtExpression (.child (.expression hg hp)) (.pure _)

theorem resultJump (hg : g.Shelters text) (hp : p ≠ .nowhere) {kind : Kind}
    (hk : kind.isHeadless = true) : Shelters text a p T (Node.Fine p) (g.resultJump kind) :=
  .node (Frame.opens_of_isHeadless hk) (.bind .consume fun _ => .jumpValue hg hp)

theorem labelIf : Shelters text a p T Anything Grammar.labelIf :=
  .ifAt (.child (.quotedName rfl))

theorem breakExpression (hg : g.Shelters text) (hp : p ≠ .nowhere) :
    Shelters text a p T (Node.Fine p) g.breakExpression :=
  .node rfl <| .bind .consume fun _ => .bind .labelIf fun _ => .jumpValue hg hp

theorem continueExpression : Shelters text a p T (Node.Fine p) Grammar.continueExpression :=
  .node rfl <| .bind .consume fun _ => .labelIf

theorem postfixed (hg : g.Shelters text) (hp : p ≠ .nowhere) :
    Shelters text a p T (Node.Fine p) g.postfixed :=
  .draw (.primary hg hp) fun _ h => .postfixForms hg h

theorem prefixed (hg : g.Shelters text) (hp : p ≠ .nowhere) :
    Shelters text a p T (Node.Fine p) g.prefixed := by
  refine .look fun s => ?_
  split
  case h_1 | h_2 | h_3 => exact .unary hg hp
  case h_4 | h_5 => exact .reference hg hp
  case h_6 | h_7 => exact .rangeBefore hg hp
  case h_8 | h_9 | h_10 => exact .closure hg hp
  case h_11 => exact .choose (.closure hg hp) (.postfixed hg hp)
  case h_12 | h_13 => exact .resultJump hg hp rfl
  case h_14 => exact .breakExpression hg hp
  case h_15 => exact .continueExpression
  case h_16 => exact .postfixed hg hp

theorem expressionFrom (hg : g.Shelters text) (hp : p ≠ .nowhere) {min : Precedence} :
    Shelters text a p T (Node.Fine p) (g.expressionFrom min) :=
  .bind .flush fun _ => .guarded <| .draw (.prefixed hg hp) fun _ h => .infixForms hg hp h

theorem operand (hg : g.Shelters text) (hp : p ≠ .nowhere) :
    Shelters text a p T (Node.Fine p) g.operand :=
  .bind .flush fun _ => .guarded (.prefixed hg hp)

/-! ### Nonterminals -/

theorem production (hg : g.Shelters text) {nonterminal : Nonterminal}
    (h : nonterminal.mayExpose = true → p ≠ .nowhere) :
    Shelters text a p T (Node.Fine p) (g.production nonterminal) := by
  cases nonterminal with
  | type => exact .type hg
  | innerReferenceType => exact .guarded (.referenceType hg)
  | pattern => exact .pattern hg
  | singlePattern => exact .singlePattern hg
  | innerReferencePattern => exact .guarded (.referencePattern hg)
  | expression min => exact .expressionFrom hg (h rfl)
  | operand => exact .operand hg (h rfl)
  | innerReference => exact .guarded (.reference hg (h rfl))
  | blockLike => exact .guarded (.primary hg (h rfl))
  | block => exact .block hg
  | elseIf => exact .elseIf hg
  | tokenTree form => exact .tokenTree hg
  | repetition form => exact .repetition hg
  | useClause => exact .useClause hg
  | declarationList => exact .declarationList hg

theorem opening {α : Type} {Q : α → Prop} {nonterminal : Nonterminal} {m : Parse α}
    (h : Shelters text a p T Q m) : Shelters text a p T Q (Parse.opening nonterminal m) := by
  refine ⟨fun {σ _ _ _} hp hs hrun => ?_⟩
  obtain ⟨opened, hrun⟩ := opening_eq_some hrun
  exact h.follow (σ := σ.watching σ.watches opened) hp hs hrun

/-- A whole text. -/
theorem sourceFile (hg : g.Shelters text) :
    Shelters text a .anywhere T Anything g.sourceFile :=
  .bind .consumeIf fun _ => .bind (.statements hg) fun _ => .flush

end Parse.Shelters

/-- Every nonterminal shelters literals, to any depth of nesting. -/
theorem Grammar.shelters_upTo (text : List Char) (n : Nat) : (upTo n).Shelters text := by
  induction n with
  | zero => exact ⟨fun _ => .outOfTurns, fun _ => .outOfTurns⟩
  | succ n ih =>
    exact ⟨fun h => .opening (.production ih fun h' => absurd (h.symm.trans h') Bool.false_ne_true),
      fun hp => .opening (.production ih fun _ => hp)⟩

/-- At the start of a text stands a lexeme. -/
theorem Session.stands_start (source : String) : (start source).Stands source.toList none :=
  ⟨sound_start source, Scanner.scan_mem_kinds _ _, nofun⟩

end ConcreteSyntax
