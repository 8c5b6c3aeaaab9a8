import ConcreteSyntax.Grammar.Reading
import ConcreteSyntax.Proofs.Excerpt.Statement
import ConcreteSyntax.Proofs.Excerpt.Type

/-! # The grammar keeps step

The productions of patterns and expressions track themselves over a longer text, and so does every
nonterminal, to any depth of nesting (`Grammar.upTo_tracks`). -/

namespace ConcreteSyntax

open Parse

namespace Parse.Follows

variable {E : Excerpt} {pre : List Child} {a : Option Kind} {g g' : Grammar} {closes : Bool}

/-! ### Paths of values -/

theorem withArguments (hg : g.Tracks E g') {path : Node} : Tracks E pre a (Node.shift E.shift)
    (g.withArguments path) (g'.withArguments (path.shift E.shift)) := by
  refine .lookAt (fun s _ => .choose ?_ (.pure _)) fun _ hf halike => by rw [halike.isAtArguments hf]
  exact .bind .settle fun _ => .node <| .bind .pushField fun _ => .bind .consume fun _ =>
    .field (.typeArguments hg)

theorem valuePathTurn (hg : g.Tracks E g') {scope : Option Draft} :
    Tracks E pre a (mapStep (Option.map (Draft.shift E.shift)) (Node.shift E.shift))
      (g.valuePathTurn scope) (g'.valuePathTurn (scope.map (Draft.shift E.shift))) := by
  refine .bind .segmentIn fun path => .bind (.withArguments hg) fun path =>
    .lookAt (fun s _ => .choose ?_ (.pure _)) fun _ hf halike => by rw [halike.isAtSegment hf]
  rw [Node.shift_kind, Node.asType_shift, ← apply_ite (Node.shift E.shift)]
  exact .bind .scopeAfter fun _ => .pure _

theorem valuePath (hg : g.Tracks E g') :
    Tracks E pre a (Node.shift E.shift) g.valuePath g'.valuePath :=
  .bind .flush fun _ => .bind (.pathScope hg) fun _ =>
    .loop (Option.map (Draft.shift E.shift)) fun _ => .valuePathTurn hg

/-! ### Patterns -/

theorem literalPattern :
    Tracks E pre a (Node.shift E.shift) Grammar.literalPattern Grammar.literalPattern :=
  .isAt .negativeLiteral .literal

theorem rangeBound (hg : g.Tracks E g') :
    Tracks E pre a (Node.shift E.shift) g.rangeBound g'.rangeBound := by
  refine .bind .flush fun _ => .kind fun c _ => ?_
  split
  case h_13 => exact .bind .reportExpected fun _ => .missing
  all_goals first | exact .literalPattern | exact .valuePath hg

theorem rangeTo (hg : g.Tracks E g') :
    Tracks E pre a (Node.shift E.shift) g.rangeTo g'.rangeTo :=
  .node <| .bind .consume fun _ => .field (.rangeBound hg)

theorem rangeFrom (hg : g.Tracks E g') {left : Node} : Tracks E pre a (Node.shift E.shift)
    (g.rangeFrom left) (g'.rangeFrom (left.shift E.shift)) := by
  refine .kind fun c _ => .choose (.node ?_) (.pure _)
  exact .bind .pushField fun _ => .bind .consume fun _ => .kind fun k _ =>
    .choose (.field (.rangeBound hg)) (.pure _)

theorem patterns (hg : g.Tracks E g') {opener closer : Kind} :
    Tracks E [] a id (g.patterns opener closer) (g'.patterns opener closer) :=
  .list (.child hg)

/-- A tuple begins with a parenthesis. -/
theorem tuplePattern (hg : g.Tracks E g') :
    Tracks E pre (some .openParen) (Node.shift E.shift) g.tuplePattern g'.tuplePattern :=
  .node <| .bind (.ahead_one rfl) fun k => .bind (.provided (c := k == .closeParen) .settle) fun _ =>
    .patterns hg

theorem fieldPattern (hg : g.Tracks E g') :
    Tracks E pre a (Node.shift E.shift) g.fieldPattern g'.fieldPattern := by
  refine .bind .flush fun _ => .isAt (.node .consume) <| .node <| .bind .consumeIf fun _ =>
    .bind .consumeIf fun _ => .lookAt (fun s _ => .choose ?_ .expectName) fun {s s'} _ hf halike => ?_
  · exact .bind .memberName fun _ => .bind .consume fun _ => .field hg
  · rw [halike.isAtAny]
    cases hk : s.isAtAny [.identifier, .integerToken] with
    | false => simp only [Bool.and_false]
    | true => rw [halike.named_colon hf hk]

theorem structPattern (hg : g.Tracks E g') {path : Node} : Tracks E pre a (Node.shift E.shift)
    (g.structPattern path) (g'.structPattern (path.shift E.shift)) := by
  refine .node ?_
  rw [Node.asType_shift]
  exact .bind .pushField fun _ => .list (.bind (.attributes hg) fun _ => .child (.fieldPattern hg))

theorem pathPattern (hg : g.Tracks E g') :
    Tracks E pre a (Node.shift E.shift) g.pathPattern g'.pathPattern := by
  refine .bind (.valuePath hg) fun path => .lookAt (fun s _ => ?_) fun _ hf halike => ?_
  · refine .choose (.node ?_) (.choose (.structPattern hg) (.choose (.macroCall hg) (.rangeFrom hg)))
    exact .bind .pushField fun _ => .patterns hg
  · rw [halike.isAt, halike.isAt, halike.isAtCall hf]

theorem referencePattern (hg : g.Tracks E g') :
    Tracks E pre a (Node.shift E.shift) g.referencePattern g'.referencePattern := by
  refine .node <| .isAt ?_ ?_
  · exact .bind (.split Scanner.splitsInto_ampAmp) fun _ => .bind .consume fun _ => .child hg
  · exact .bind .consume fun _ => .bind .consumeIf fun _ => .child hg

theorem modifiedPattern (hg : g.Tracks E g') {kind : Kind} :
    Tracks E pre a (Node.shift E.shift) (g.modifiedPattern kind) (g'.modifiedPattern kind) :=
  .node <| .bind .consume fun _ => .child hg

theorem patternForm (hg : g.Tracks E g') :
    Tracks E pre a (Node.shift E.shift) g.patternForm g'.patternForm := by
  refine .lookAt (fun s _ => ?_) fun {s s'} _ hf halike => ?_
  · split
    case h_1 => exact .leaf
    case h_2 => exact .choose (.rangeTo hg) (.node .consume)
    case h_3 => exact .rangeTo hg
    case h_4 hk => exact hk ▸ .tuplePattern hg
    case h_5 => exact .node (.patterns hg)
    case h_6 | h_7 => exact .referencePattern hg
    case h_8 | h_9 => exact .modifiedPattern hg
    case h_10 | h_11 | h_12 | h_13 | h_14 | h_15 | h_16 | h_17 =>
      exact .bind .literalPattern fun _ => .rangeFrom hg
    case h_18 => exact .choose (.pathPattern hg) .leaf
    case h_27 => exact .bind .reportExpected fun _ => .missing
    all_goals exact .pathPattern hg
  · rw [halike.kind]
    split
    case h_2 hk => rw [halike.ahead_one hf (by rw [hk]; rfl)]
    case h_18 hk => rw [halike.ahead_one hf (by rw [hk]; rfl)]
    all_goals rfl

theorem singlePattern (hg : g.Tracks E g') :
    Tracks E pre a (Node.shift E.shift) g.singlePattern g'.singlePattern := by
  refine .bind .flush fun _ => .bind (.guarded (.patternForm hg)) fun _ =>
    .isAt (.node ?_) (.pure _)
  exact .bind .push fun _ => .bind .consume fun _ => .child hg

theorem firstAlternative (hg : g.Tracks E g') :
    Tracks E pre a (Node.shift E.shift) g.firstAlternative g'.firstAlternative :=
  .isAt (.node (.bind .consume fun _ => .child hg)) hg

theorem alternativeTurn (hg : g.Tracks E g') {pattern : Node} :
    Tracks E pre a (mapStep (Node.shift E.shift) (Node.shift E.shift)) (g.alternativeTurn pattern)
      (g'.alternativeTurn (pattern.shift E.shift)) := by
  refine .isAt (.bind (.node ?_) fun _ => .pure _) (.pure _)
  exact .bind .push fun _ => .bind .consume fun _ => .child hg

theorem alternatives (hg : g.Tracks E g') :
    Tracks E pre a (Node.shift E.shift) g.alternatives g'.alternatives :=
  .bind (.firstAlternative hg) fun _ => .loop (Node.shift E.shift) fun _ => .alternativeTurn hg

theorem pattern (hg : g.Tracks E g') :
    Tracks E pre a (Node.shift E.shift) g.pattern g'.pattern :=
  .bind .flush fun _ => .guarded (.alternatives hg)

/-! ### Closures -/

theorem closureParameter (hg : g.Tracks E g') :
    Tracks E pre a (Node.shift E.shift) g.closureParameter g'.closureParameter := by
  refine .bind .flush fun _ => .bind hg fun _ => .isAt (.bind .settle fun _ => .node ?_)
    (.bind .settle fun _ => .pure _)
  exact .bind .pushField fun _ => .bind .consume fun _ => .field hg

theorem closureParameterTurn (hg : g.Tracks E g') :
    Tracks E pre a id g.closureParameterTurn g'.closureParameterTurn := by
  refine .bind .flush fun _ => .kind fun c _ => .choose (.bind .expect fun _ => .pure _) ?_
  refine .bind (.attributes hg) fun _ => .bind (.child (.closureParameter hg)) fun _ => .kind fun c _ => ?_
  split
  · exact .bind .consume fun _ => .pure _
  · exact .pure _
  · exact .bind .expect fun _ => .pure _

theorem closureParameters (hg : g.Tracks E g') :
    Tracks E pre a (Node.shift E.shift) g.closureParameters g'.closureParameters := by
  refine .node <| .isAt ?_ (.bind .expect fun _ => .repeatWhile (.closureParameterTurn hg))
  exact .bind (.split Scanner.splitsInto_pipePipe) fun _ => .bind .consume fun _ => .consume

theorem closureBody (hg : g.Tracks E g') : Tracks E pre a id g.closureBody g'.closureBody :=
  .isAt (.bind (.returnTypeIf hg) fun _ => .field hg) (.field hg)

theorem closure (hg : g.Tracks E g') :
    Tracks E pre a (Node.shift E.shift) g.closure g'.closure :=
  .node <| .bind .consumeIf fun _ => .bind .consumeIf fun _ => .bind .flush fun _ =>
    .bind (.field (.closureParameters hg)) fun _ => .closureBody hg

/-! ### Conditions and branches -/

theorem condition (hg : g.Tracks E g') {noStructLiteral : Bool} : Tracks E pre a (Node.shift E.shift)
    (g.condition noStructLiteral) (g'.condition noStructLiteral) :=
  .bind (.restricted hg) fun c => .give (Node.asLetChain_shift c)

theorem letCondition (hg : g.Tracks E g') :
    Tracks E pre a (Node.shift E.shift) g.letCondition g'.letCondition :=
  .node <| .bind .consume fun _ => .bind (.field hg) fun _ => .bind .expect fun _ =>
    .bind .restriction fun _ => .field (.restricted hg)

theorem headExpression (hg : g.Tracks E g') :
    Tracks E pre a (Node.shift E.shift) g.headExpression g'.headExpression :=
  .restricted hg

theorem elseClause (hg : g.Tracks E g') :
    Tracks E pre a (Node.shift E.shift) g.elseClause g'.elseClause :=
  .node <| .bind .consume fun _ => .isAt (.child hg) (.child hg)

theorem ifExpression (hg : g.Tracks E g') :
    Tracks E pre a (Node.shift E.shift) g.ifExpression g'.ifExpression :=
  .node <| .bind .consume fun _ => .bind (.field (.condition hg)) fun _ => .bind (.field hg) fun _ =>
    .isAt (.field (.elseClause hg)) (.pure _)

theorem elseIf (hg : g.Tracks E g') :
    Tracks E pre a (Node.shift E.shift) g.elseIf g'.elseIf :=
  .bind .flush fun _ => .guarded (.ifExpression hg)

theorem closing_elseClause (hg : g.Closes closes E g') (hE : E.EndsBlocks) :
    Closes closes E pre a (Node.shift E.shift) g.elseClause g'.elseClause :=
  closing_node <| .bind .consume fun _ => .isAt (closing_child (hg.elseIf hE)) (closing_child hg.block)

/-- A branch may be followed by another one, but not where the text ends. -/
theorem closing_ifExpression (hg : g.Closes true E g') (hE : E.EndsBlocks) :
    Closes true E pre a (Node.shift E.shift) g.ifExpression g'.ifExpression := by
  refine closing_node <| .bind .consume fun _ => .bind (.field (.condition hg.tracks)) fun _ => ?_
  show Closes true E [] none id
    (Parse.field .consequence (g.parse .block) >>= fun _ => Parse.kind >>= fun c =>
      if (c == .elseKw) = true then Parse.field .alternative g.elseClause else Pure.pure ())
    (Parse.field .consequence (g'.parse .block) >>= fun _ => Parse.kind >>= fun c =>
      if (c == .elseKw) = true then Parse.field .alternative g'.elseClause else Pure.pure ())
  refine closing_past (P := fun _ => True) (p := (· == .elseKw)) hE (fun c hc => ?_) id
    (.field hg.tracks) ((closing_field hg.block).ending (·.2)) (fun _ c _ => ?_)
    (fun _ _ _ h => absurd trivial h) fun _ _ _ _ => settles_pure ()
  · rw [eq_of_beq hc]
    rfl
  · exact closing_field (closing_elseClause hg hE)

theorem closing_elseIf (hg : g.Closes true E g') (hE : E.EndsBlocks) :
    Closes true E pre a (Node.shift E.shift) g.elseIf g'.elseIf :=
  .bind .flush fun _ => closing_guarded (closing_ifExpression hg hE)

/-! ### Matches -/

theorem armPattern (hg : g.Tracks E g') :
    Tracks E pre a (Node.shift E.shift) g.armPattern g'.armPattern :=
  .node <| .bind (.child hg) fun _ =>
    .isAt (.bind .consume fun _ => .field (.condition hg)) (.pure _)

theorem matchArm (hg : g.Tracks E g') :
    Tracks E pre a (Node.shift E.shift) g.matchArm g'.matchArm := by
  refine .bind .flush fun _ => .node <| .bind (.attributes hg) fun _ => .bind .flush fun _ =>
    .bind (.field (.armPattern hg)) fun _ => .bind .expect fun _ =>
    .bind (.statementExpression hg) fun (value, isBlockLike) => .bind .pushField fun _ => ?_
  refine .lookAt (fun s _ => .choose .consume (.choose (.pure _) .reportHere)) fun _ _ halike => ?_
  rw [halike.isAt, halike.isAt]

theorem matchEntry (hg : g.Tracks E g') : Tracks E pre a id g.matchEntry g'.matchEntry := by
  refine .look (fun s => if (s.kind.startsPattern || s.isAt .pound) = true then do
      Parse.child g'.matchArm
      Parse.provided ((← Parse.offset) == s.offset + E.shift) (Parse.recoverUntil .comma)
    else Parse.recoverUntil .comma) (fun s _ => .choose ?_ .recoverUntil) fun _ _ halike => ?_
  · refine .bind (.child (.matchArm hg)) fun _ => .bind .offset fun offset => ?_
    have hoffset : (offset + E.shift == s.offset + E.shift) = (offset == s.offset) := by simp
    rw [hoffset]
    exact .provided .recoverUntil
  · rw [halike.kind, halike.isAt, halike.offset]

theorem matchArms (hg : g.Tracks E g') : Tracks E pre a id g.matchArms g'.matchArms := by
  refine .repeatWhile <| .bind .flush fun _ => .kind fun c _ => ?_
  split
  · exact .pure _
  · exact .absorbBrace
  · exact .bind (.matchEntry hg) fun _ => .pure _

theorem matchBlock (hg : g.Tracks E g') :
    Closes closes E pre a (Node.shift E.shift) g.matchBlock g'.matchBlock := by
  refine .bind .flush fun _ => closing_node <| .isAt ?_ closing_missingGroup
  exact .bind .tokenRange fun _ => .bind .consume fun _ => .bind (.unrestricted (.matchArms hg)) fun _ =>
    closing_close

theorem matchExpression (hg : g.Tracks E g') :
    Closes closes E pre a (Node.shift E.shift) g.matchExpression g'.matchExpression :=
  closing_node <| .bind .consume fun _ => .bind (.field (.headExpression hg)) fun _ =>
    closing_field (.matchBlock hg)

/-! ### Loops -/

theorem whileLoop (hg : g.Closes closes E g') : Closes closes E pre a id g.whileLoop g'.whileLoop :=
  .bind .setKind fun _ => .bind .consume fun _ => .bind (.field (.condition hg.tracks)) fun _ =>
    closing_field hg.block

theorem endlessLoop (hg : g.Closes closes E g') :
    Closes closes E pre a id g.endlessLoop g'.endlessLoop :=
  .bind .setKind fun _ => .bind .consume fun _ => closing_field hg.block

theorem forLoop (hg : g.Closes closes E g') : Closes closes E pre a id g.forLoop g'.forLoop :=
  .bind .setKind fun _ => .bind .consume fun _ => .bind (.field hg.tracks) fun _ => .bind .expect fun _ =>
    .bind (.field (.headExpression hg.tracks)) fun _ => closing_field hg.block

theorem labeled (hg : g.Closes closes E g') :
    Closes closes E pre a (Node.shift E.shift) g.labeled g'.labeled := by
  refine .bind (.collectNew (.bind (.child .quotedName) fun _ => .expect)) fun label => .kind fun c _ => ?_
  split
  · exact closing_resume (.endlessLoop hg)
  · exact closing_resume (.whileLoop hg)
  · exact closing_resume (.forLoop hg)
  · exact closing_guarded (closing_resume (.blockBody hg.tracks))
  · exact closing_resume <| closing_error (.bind .reportExpected fun _ => .failDraft) <|
      .settling .reportExpected fun _ => .modifyDraft

/-! ### Primary expressions -/

theorem fieldInitializer (hg : g.Tracks E g') :
    Tracks E pre a (Node.shift E.shift) g.fieldInitializer g'.fieldInitializer := by
  refine .bind .flush fun _ => .lookAt (fun s _ => .choose (.node ?_) (.choose (.node ?_) (.node ?_)))
    fun {s s'} _ hf halike => ?_
  · exact .bind .consume fun _ => .child hg
  · exact .bind .memberName fun _ => .bind .consume fun _ => .field hg
  · exact .choose .consume .expectName
  · rw [halike.isAt, halike.isAt, halike.isAtAny]
    cases hk : s.isAtAny [.identifier, .integerToken] with
    | false => rfl
    | true => rw [halike.named_colon hf hk]

theorem structExpression (hg : g.Tracks E g') {path : Node} : Tracks E pre a (Node.shift E.shift)
    (g.structExpression path) (g'.structExpression (path.shift E.shift)) := by
  refine .node ?_
  rw [Node.asType_shift]
  exact .bind .pushField fun _ => .field <| .node <| .unrestricted <| .list <|
    .bind (.attributes hg) fun _ => .child (.fieldInitializer hg)

theorem pathExpression (hg : g.Tracks E g') :
    Tracks E pre a (Node.shift E.shift) g.pathExpression g'.pathExpression := by
  refine .bind (.valuePath hg) fun path => ?_
  rw [Node.shift_kind]
  refine .lookAt (fun s _ => .choose (.macroCall hg) (.choose ?_ (.pure _))) fun _ hf halike => ?_
  · refine .bind .restriction fun r => .choose (c := r.noStructLiteral) ?_ ?_
    · exact .bind .settle fun _ => .pure _
    · exact .bind .settle fun _ => .structExpression hg
  · rw [halike.isAtCall hf, halike.isAt]

theorem furtherElements (hg : g.Tracks E g') :
    Tracks E pre a id g.furtherElements g'.furtherElements :=
  .repeatWhile <| .isAt (.bind .consume fun _ => .bind .flush fun _ =>
    .test .isAtExpression (.bind (.child hg) fun _ => .pure _) (.pure _)) (.pure _)

/-- A group begins with a parenthesis. -/
theorem parenthesized (hg : g.Tracks E g') :
    Tracks E pre (some .openParen) (Node.shift E.shift) g.parenthesized g'.parenthesized := by
  refine .node <| .bind (.ahead_one rfl) fun k => .choose (c := k == .closeParen) ?_ ?_
  · exact .bind .setKind fun _ => .bind .consume fun _ => .consume
  · refine .bind .tokenRange fun _ => .bind .consume fun _ => .bind (.unrestricted <| .bind (.child hg)
      fun _ => .bind (.ifAt .setKind) fun _ => .furtherElements hg) fun _ => .close

theorem arrayElements (hg : g.Tracks E g') :
    Tracks E pre a id g.arrayElements g'.arrayElements := by
  refine .bind .flush fun _ => .test .isAtExpression (.bind (.child hg) fun _ => .isAt ?_
    (.furtherElements hg)) (.pure _)
  exact .bind .settle fun _ => .bind .consume fun _ => .field hg

theorem arrayExpression (hg : g.Tracks E g') :
    Tracks E pre a (Node.shift E.shift) g.arrayExpression g'.arrayExpression :=
  .node <| .bind .tokenRange fun _ => .bind .consume fun _ =>
    .bind (.unrestricted (.arrayElements hg)) fun _ => .close

theorem asyncBlock (hg : g.Closes closes E g') :
    Closes closes E pre a (Node.shift E.shift) g.asyncBlock g'.asyncBlock :=
  closing_node <| .bind .consume fun _ => .bind .consumeIf fun _ => closing_child hg.block

theorem unsafeBlock (hg : g.Closes closes E g') :
    Closes closes E pre a (Node.shift E.shift) g.unsafeBlock g'.unsafeBlock :=
  closing_node <| .bind .consume fun _ => closing_child hg.block

theorem constBlock (hg : g.Closes closes E g') :
    Closes closes E pre a (Node.shift E.shift) g.constBlock g'.constBlock :=
  closing_node <| .bind .consume fun _ => closing_field hg.block

theorem noExpression :
    Tracks E pre a (Node.shift E.shift) Grammar.noExpression Grammar.noExpression :=
  .bind .reportExpected fun _ => .kind fun _ _ => .choose .missing .skipGroup

theorem primary (hg : g.Tracks E g') :
    Tracks E pre a (Node.shift E.shift) g.primary g'.primary := by
  refine .lookAt (fun s _ => ?_) fun {s s'} _ hf halike => ?_
  · split
    case h_1 | h_2 | h_3 | h_4 | h_5 | h_6 | h_7 => exact .literal
    case h_8 => exact .leaf
    case h_18 hk => exact hk ▸ .parenthesized hg
    case h_19 => exact .arrayExpression hg
    case h_20 => exact hg
    case h_21 => exact .tracks (.labeled hg.closes)
    case h_22 => exact .choose (.tracks (.unsafeBlock hg.closes)) .noExpression
    case h_23 => exact .tracks (.asyncBlock hg.closes)
    case h_24 => exact .choose (.tracks (.constBlock hg.closes)) .noExpression
    case h_25 => exact .ifExpression hg
    case h_26 => exact .tracks (.matchExpression hg)
    case h_27 => exact .node (.tracks (.whileLoop hg.closes))
    case h_28 => exact .node (.tracks (.endlessLoop hg.closes))
    case h_29 => exact .node (.tracks (.forLoop hg.closes))
    case h_30 =>
      exact .bind .restriction fun r => .choose (c := r.allowLet) (.letCondition hg) .noExpression
    case h_31 => exact .noExpression
    all_goals exact .pathExpression hg
  · rw [halike.kind]
    split
    case h_22 hk => rw [halike.ahead_one hf (by rw [hk]; rfl)]
    case h_24 hk => rw [halike.ahead_one hf (by rw [hk]; rfl)]
    all_goals rfl

/-- An expression that ends with a block, from its first token. -/
theorem closing_primary (hg : g.Closes true E g') (hE : E.EndsBlocks) {c : Kind}
    (hc : c.startsBlockLike = true) :
    Closes true E pre (some c) (Node.shift E.shift) g.primary g'.primary := by
  have hnone {a : Option Kind} : Closes true E pre a (Node.shift E.shift) Grammar.noExpression
      Grammar.noExpression := closing_error .noExpression .noExpression
  refine .lookAt (fun s hs => ?_) fun {s s'} _ hf halike => ?_
  · have hk : s.kind.startsBlockLike = true := hs c rfl ▸ hc
    split
    case h_20 => exact hg.block
    case h_21 => exact .labeled hg
    case h_22 => exact .choose (.unsafeBlock hg) hnone
    case h_23 => exact .asyncBlock hg
    case h_24 => exact .choose (.constBlock hg) hnone
    case h_25 => exact closing_ifExpression hg hE
    case h_26 => exact .matchExpression hg.tracks
    case h_27 => exact closing_node (.whileLoop hg)
    case h_28 => exact closing_node (.endlessLoop hg)
    case h_29 => exact closing_node (.forLoop hg)
    case h_31 => exact hnone
    all_goals next heq => rw [heq] at hk; exact nomatch hk
  · rw [halike.kind]
    split
    case h_22 hk => rw [halike.ahead_one hf (by rw [hk]; rfl)]
    case h_24 hk => rw [halike.ahead_one hf (by rw [hk]; rfl)]
    all_goals rfl

/-! ### Prefix forms -/

theorem unary (hg : g.Tracks E g') :
    Tracks E pre a (Node.shift E.shift) g.unary g'.unary :=
  .node <| .bind .consume fun _ => .child hg

/-- The token behind is only asked for at a name. -/
theorem referenceModifier_eq : Grammar.referenceModifier = (do
    if ← Parse.isAt .identifier then
      let next ← Parse.ahead 1
      let word ← Parse.tokenText
      if word == "raw" && (next == .constKw || next == .mutKw) then
        Parse.consumeAs .rawKw
        Parse.consume
      else Parse.consumeIf .mutKw
    else Parse.consumeIf .mutKw) := by
  funext σ s
  show (if s.isAt .identifier = true then _ else _ : Parse Bool) σ s >>= _ =
    (if s.isAt .identifier = true then _ else _ : Parse Unit) σ s
  split <;> rfl

theorem referenceModifier :
    Tracks E pre a id Grammar.referenceModifier Grammar.referenceModifier := by
  rw [referenceModifier_eq]
  refine .isAt (.bindAt (b := some .identifier) (.ahead_one rfl) (fun hk h => ?_) fun next =>
    .bind .tokenText fun word => ?_) .consumeIf
  · obtain ⟨-, rfl⟩ := Prod.mk.inj (Option.some.inj h)
    exact hk
  · exact .choose (.bind .consumeAs fun _ => .consume) .consumeIf

theorem reference (hg : g.Tracks E g') :
    Tracks E pre a (Node.shift E.shift) g.reference g'.reference := by
  refine .node <| .isAt ?_ ?_
  · exact .bind (.split Scanner.splitsInto_ampAmp) fun _ => .bind .consume fun _ => .field hg
  · exact .bind .consume fun _ => .bind .referenceModifier fun _ => .field hg

theorem rangeBefore (hg : g.Tracks E g') :
    Tracks E pre a (Node.shift E.shift) g.rangeBefore g'.rangeBefore :=
  .node <| .bind .consume fun _ => .test .isAtExpression (.child hg) (.pure _)

theorem jumpValue (hg : g.Tracks E g') : Tracks E pre a id g.jumpValue g'.jumpValue :=
  .test .isAtExpression (.child hg) (.pure _)

theorem resultJump (hg : g.Tracks E g') {kind : Kind} :
    Tracks E pre a (Node.shift E.shift) (g.resultJump kind) (g'.resultJump kind) :=
  .node <| .bind .consume fun _ => .jumpValue hg

theorem labelIf : Tracks E pre a id Grammar.labelIf Grammar.labelIf := .ifAt (.child .quotedName)

theorem breakExpression (hg : g.Tracks E g') :
    Tracks E pre a (Node.shift E.shift) g.breakExpression g'.breakExpression :=
  .node <| .bind .consume fun _ => .bind .labelIf fun _ => .jumpValue hg

theorem continueExpression :
    Tracks E pre a (Node.shift E.shift) Grammar.continueExpression Grammar.continueExpression :=
  .node <| .bind .consume fun _ => .labelIf

theorem postfixed (hg : g.Tracks E g') :
    Tracks E pre a (Node.shift E.shift) g.postfixed g'.postfixed :=
  .bind (.primary hg) fun _ => .postfixForms hg

theorem prefixed (hg : g.Tracks E g') :
    Tracks E pre a (Node.shift E.shift) g.prefixed g'.prefixed := by
  refine .lookAt (fun s _ => ?_) fun {s s'} _ hf halike => ?_
  · split
    case h_1 | h_2 | h_3 => exact .unary hg
    case h_4 | h_5 => exact .reference hg
    case h_6 | h_7 => exact .rangeBefore hg
    case h_8 | h_9 | h_10 => exact .closure hg
    case h_11 => exact .choose (.closure hg) (.postfixed hg)
    case h_12 | h_13 => exact .resultJump hg
    case h_14 => exact .breakExpression hg
    case h_15 => exact .continueExpression
    case h_16 => exact .postfixed hg
  · rw [halike.kind]
    split
    case h_11 hk => rw [halike.isAtAsyncClosure hf hk]
    all_goals rfl

theorem expressionFrom (hg : g.Tracks E g') {min : Precedence} :
    Tracks E pre a (Node.shift E.shift) (g.expressionFrom min) (g'.expressionFrom min) :=
  .bind .flush fun _ => .guarded <| .bind (.prefixed hg) fun _ => .infixForms hg

theorem operand (hg : g.Tracks E g') :
    Tracks E pre a (Node.shift E.shift) g.operand g'.operand :=
  .bind .flush fun _ => .guarded (.prefixed hg)

/-! ### Nonterminals -/

theorem production (hg : g.Tracks E g') {nonterminal : Nonterminal} : Tracks E pre a
    (Node.shift E.shift) (g.production nonterminal) (g'.production nonterminal) := by
  cases nonterminal with
  | type => exact .type hg
  | innerReferenceType => exact .guarded (.referenceType hg)
  | pattern => exact .pattern hg
  | singlePattern => exact .singlePattern hg
  | innerReferencePattern => exact .guarded (.referencePattern hg)
  | expression min => exact .expressionFrom hg
  | operand => exact .operand hg
  | innerReference => exact .guarded (.reference hg)
  | blockLike => exact .guarded (.primary hg)
  | block => exact .tracks (.block hg)
  | elseIf => exact .elseIf hg
  | tokenTree form => exact .tokenTree hg
  | repetition form => exact .repetition hg
  | useClause => exact .useClause hg
  | declarationList => exact .tracks (.declarationList hg)

/-- Where no reading watches, a nonterminal is read by its production. -/
theorem opening {closes : Bool} {nonterminal : Nonterminal} {m m' : Parse Node}
    (h : Closes closes E pre a (Node.shift E.shift) m m') :
    Closes closes E pre a (Node.shift E.shift) (Parse.opening nonterminal m)
      (Parse.opening nonterminal m') :=
  .ask fun hσ => by
    rw [hσ.unwatched.1, hσ.unwatched.2]
    exact h

end Parse.Follows

/-- Nonterminals track one another to any depth of nesting; the text needs no more than the whole. -/
theorem Grammar.upTo_tracks {E : Excerpt} {n : Nat} :
    ∀ {n' : Nat}, n ≤ n' → (upTo n).Tracks E (upTo n') := by
  induction n with
  | zero => exact fun _ _ _ _ => ⟨fun _ _ h => nomatch h⟩
  | succ n ih =>
    intro n' hn
    obtain ⟨m, rfl⟩ : ∃ m, n' = m + 1 := ⟨n' - 1, by omega⟩
    intro pre a nonterminal
    have hproduction : Parse.Closes false E pre a (Node.shift E.shift)
        ((upTo n).production nonterminal) ((upTo m).production nonterminal) :=
      .production (ih (Nat.le_of_succ_le_succ hn))
    exact .opening hproduction

/-- Where a block ends, the grammar of the whole stops as well, if nothing behind goes on with it. -/
theorem Grammar.upTo_closes {E : Excerpt} {n : Nat} :
    ∀ {n' : Nat}, n ≤ n' → (upTo n).Closes true E (upTo n') := by
  induction n with
  | zero =>
    exact fun hn => ⟨upTo_tracks hn, ⟨fun _ _ h => nomatch h⟩, ⟨fun _ _ h => nomatch h⟩,
      fun _ => ⟨fun _ _ h => nomatch h⟩, fun _ _ => ⟨fun _ _ h => nomatch h⟩⟩
  | succ n ih =>
    intro n' hn
    obtain ⟨m, rfl⟩ : ∃ m, n' = m + 1 := ⟨n' - 1, by omega⟩
    have hg : (upTo n).Closes true E (upTo m) := ih (Nat.le_of_succ_le_succ hn)
    exact {
      tracks := upTo_tracks hn
      block := .opening (.block hg.tracks)
      declarationList := .opening (.declarationList hg.tracks)
      elseIf := fun hE => .opening (.closing_elseIf hg hE)
      blockLike := fun hE hc => .opening (.closing_guarded (.closing_primary hg hE hc)) }

end ConcreteSyntax
