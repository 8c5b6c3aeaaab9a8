import ConcreteSyntax.Grammar.Expression.Closure
import ConcreteSyntax.Proofs.Grammar.Pattern

/-! # Operators and closures are orderly

Every turn of the loops over postfix forms and infix operators takes the mark of the operator. A
turn over the parameters of a closure that ends at its bar has moved on, since no parameter begins
with a bar or with what a bar is made of (`closureParameterTurn_lt`). -/

namespace ConcreteSyntax

open Parse

theorem Grammar.steady_argumentList : Grammar.argumentList.Steady := ⟨rfl, rfl, rfl, by decide⟩

theorem OperatorClass.isFree_nodeKind (operator : OperatorClass) :
    operator.nodeKind.isFree = true := by
  cases operator <;> rfl

theorem Kind.eq_pipePipe_of_reshapes {c : Kind} (h : Kind.pipe ∈ c.reshapes) : c = .pipePipe := by
  unfold Kind.reshapes at h
  split at h
  all_goals simp_all

namespace Orderly

variable {text : List Char} {g : Grammar} {k : Nat} {f : Bool} {a : Option Kind} {m o : Bool} {F : Standing}

/-! ### Postfix forms -/

theorem argumentsAt :
    Orderly text g k f ⟨.empty, some .openParen, m, o, F⟩ g.arguments
      fun n => ⟨.node n, none, true, o, F⟩ :=
  .bind .flush fun _ => .fairNode rfl <| .unrestricted <| .listAt Grammar.steady_argumentList <|
    .bind .attributes fun _ => .child (.call (.inl rfl) rfl)

theorem fieldName :
    Orderly text g k f ⟨.empty, a, m, o, .proper⟩ Grammar.fieldName
      fun _ => ⟨.empty, none, m, o, .proper⟩ := by
  refine .kind fun c _ => ?_
  split
  · exact .consumeFieldAs rfl
  · exact .consumeField
  · exact .field .tupleIndex
  · exact .forget <| .forgive <| .bind (.report (aside_reportExpected _)) fun _ => .pushMissingField rfl

theorem dottedAt {value : Node} :
    Orderly text g k f ⟨.node value, some .dot, m, o, F⟩ (Grammar.dotted value)
      fun n => ⟨.node n, none, true, o, F⟩ := by
  refine .bind (.beside (aside_ahead 1)) fun _ => ?_
  split
  · exact .node rfl <| .bind .push fun _ => .bind (.consumeAt nofun) fun _ => .consume
  · exact .node rfl <| .bind .pushField fun _ =>
      .bind (.consumeWithAt nofun (.inl rfl) readAs_none ⟨rfl, rfl⟩) fun _ => .fieldName

theorem postfixTurn {operand : Node} :
    Orderly text g k f ⟨.node operand, none, false, o, F⟩ (g.postfixTurn operand)
      (afterTurn (fun n => ⟨.node n, none, false, o, F⟩)
        fun n => ⟨.node n, none, false, o, F⟩) := by
  refine .look (fun _ _ => rfl) fun s _ => ?_
  split
  · next hk =>
    refine hk ▸ .bind ?_ fun _ => .pure (.refl _)
    exact .node rfl <| .bind .pushField fun _ => .field .argumentsAt
  · next hk =>
    refine hk ▸ .bind ?_ fun _ => .pure (.refl _)
    exact .node rfl <| .bind .push fun _ => .bind (.beside aside_tokenRange) fun _ =>
      .bind (.consumeAt nofun) fun _ => .freely <|
      .bind (.child (.unrestricted (.call (.inl rfl) rfl))) fun _ => .close
  · next hk =>
    refine hk ▸ .bind ?_ fun _ => .pure (.refl _)
    exact .node rfl <| .bind .push fun _ => .consumeAt nofun
  · next hk => exact hk ▸ .bind .dottedAt fun _ => .pure (.refl _)
  · next hk =>
    rw [hk]
    split
    · refine .bind ?_ fun _ => .pure (.refl _)
      exact .node rfl <| .bind .pushField fun _ => .bind (.consumeAt nofun) fun _ =>
        .field .typeArguments
    · exact .pure .forget
  · exact .pure .forget

theorem postfixForms {operand : Node} :
    Orderly text g k f ⟨.node operand, a, m, o, F⟩ (g.postfixForms operand)
      fun n => ⟨.node n, none, m, o, F⟩ :=
  .turns .node fun _ => .postfixTurn

/-! ### Infix operators -/

theorem castAt {value : Node} {c : Kind} (hc : c ≠ .endOfFile) :
    Orderly text g k f ⟨.node value, some c, m, o, F⟩ (g.cast value)
      fun n => ⟨.node n, none, true, o, F⟩ :=
  .node rfl <| .bind .pushField fun _ => .bind (.consumeAt hc) fun _ =>
    .field (.call (.inr (.inl rfl)) rfl)

/-- The right end of a range, which may be left out. -/
theorem rangeEnd :
    Orderly text g k f ⟨.empty, none, true, o, F⟩
      (do if ← isAtExpression then
            Parse.child (g.parse (.expression OperatorClass.range.precedence.next)))
      fun _ => ⟨.empty, none, true, o, F⟩ := by
  refine .bind (.beside aside_isAtExpression) fun _ => ?_
  split
  · exact .child (.call (.inr (.inl rfl)) rfl)
  · exact .pure (.refl _)

theorem rangeAfterAt {left : Node} {c : Kind} (hc : c ≠ .endOfFile) :
    Orderly text g k f ⟨.node left, some c, m, o, F⟩ (g.rangeAfter left)
      fun n => ⟨.node n, none, true, o, F⟩ :=
  .node rfl <| .bind .push fun _ => .bind (.consumeAt hc) fun _ => .rangeEnd

theorem binaryAt {operator : OperatorClass} {left : Node} {c : Kind} (hc : c ≠ .endOfFile) :
    Orderly text g k f ⟨.node left, some c, m, o, F⟩ (g.binary operator left)
      fun n => ⟨.node n, none, true, o, F⟩ := by
  have hmark : Orderly text g k f ⟨.empty, some c, m, o, .proper⟩ (Grammar.infixMark operator)
      fun _ => ⟨.empty, none, true, o, .proper⟩ := by
    unfold Grammar.infixMark
    split
    · exact .consumeAt hc
    · exact .consumeFieldAt hc
  exact .node operator.isFree_nodeKind <| .bind .pushField fun _ => .bind hmark fun _ =>
    .field (.call (.inr (.inl rfl)) rfl)

theorem infixTurn {min : Precedence} {left : Node} :
    Orderly text g k f ⟨.node left, none, false, o, F⟩ (g.infixTurn min left)
      (afterTurn (fun n => ⟨.node n, none, false, o, F⟩)
        fun n => ⟨.node n, none, false, o, F⟩) := by
  refine .bind .operatorKind fun c => ?_
  split
  · exact .pure .forget
  · next operator hoperator =>
    have hc : c ≠ .endOfFile := by
      rintro rfl
      exact nomatch hoperator
    split
    · exact .pure .forget
    · split
      · exact .bind (.castAt hc) fun _ => .pure (.refl _)
      · split
        · exact .pure .forget
        · exact .bind (.rangeAfterAt hc) fun _ => .pure (.refl _)
      · exact .bind (.binaryAt hc) fun _ => .pure (.refl _)

theorem infixForms {min : Precedence} {operand : Node} :
    Orderly text g k f ⟨.node operand, a, m, o, F⟩ (g.infixForms min operand)
      fun n => ⟨.node n, none, m, o, F⟩ :=
  .turns .node fun _ => .infixTurn

/-- What may follow an expression that begins with a block. -/
theorem afterBlockLike {head : Node} :
    Orderly text g k f ⟨.node head, a, m, o, F⟩
      (do
        if ← Parse.isAtAny [.dot, .question] then
          return (← g.infixForms .closure (← g.postfixForms head), false)
        else return (head, true))
      fun r => ⟨.node r.1, none, m, o, F⟩ := by
  refine .bind (.beside (aside_isAtAny _)) fun _ => ?_
  split
  · exact .bind .postfixForms fun _ => .bind .infixForms fun _ => .pure (.refl _)
  · exact .pure .forget

theorem statementExpression :
    Orderly text g k true ⟨.empty, a, m, o, F⟩ g.statementExpression
      fun r => ⟨.node r.1, none, m, o, F⟩ := by
  refine .bind .flush fun _ => .look (fun _ _ => rfl) fun s _ => ?_
  split
  · exact .bind (.call (.inl rfl) rfl) fun _ => .afterBlockLike
  · exact .bind (.call (.inl rfl) rfl) fun _ => .pure (.refl _)

/-! ### Closures -/

theorem closureParameter :
    Orderly text g k true ⟨.empty, a, m, o, F⟩ g.closureParameter
      fun n => ⟨.node n, none, m, o, F⟩ :=
  .bind .flush fun _ => .bind (.call (.inl rfl) rfl) fun _ => .isAt
    (.bind (.beside (aside_settle _ _)) fun _ => .node rfl <| .bind .pushField fun _ =>
      .bind .consume fun _ => .field (.call (.inl rfl) rfl))
    (.bind (.beside (aside_settle _ _)) fun _ => .pure (.refl _))

/-- What follows a parameter. -/
theorem closureMark :
    Orderly text g k true ⟨.empty, a, m, o, F⟩
      (do
        match ← Parse.kind with
        | .comma =>
          Parse.consume
          return true
        | .pipe => return true
        | _ =>
          Parse.expect .pipe
          return false)
      fun _ => ⟨.empty, none, m, o, F⟩ := by
  refine .kind fun c _ => ?_
  split
  · exact .bind .consume fun _ => .pure (.refl _)
  · exact .pure .forget
  · exact .bind (.expect rfl) fun _ => .pure (.refl _)

/-- A parameter and what follows it, if one begins here. -/
theorem closureParameterTurn_unmoved :
    Orderly text g k true ⟨.empty, none, false, o, F⟩ g.closureParameterTurn
      fun _ => ⟨.empty, none, false, o, F⟩ := by
  refine .bind .flush fun _ => .kind fun c _ => ?_
  split
  · exact .bind (.expect rfl) fun _ => .pure (.refl _)
  · exact .bind .attributes fun _ => .bind (.child .closureParameter) fun _ => .closureMark

/-- A turn after which more parameters may follow has moved on. -/
theorem closureParameterTurn_lt (hg : g.Leads text) {σ : Setting} {s s' : Session}
    (hs : s.Sound text) (hrun : g.closureParameterTurn σ s = some (true, s')) :
    s.offset < s'.offset := by
  obtain ⟨_, _, h₁, hrun⟩ := bind_eq_some.1 hrun
  obtain ⟨rfl, rfl⟩ := Prod.mk.inj (Option.some.inj ((flush_run σ s).symm.trans h₁))
  obtain ⟨c, _, h₂, hrun⟩ := bind_eq_some.1 hrun
  obtain ⟨rfl, rfl⟩ := Prod.mk.inj (Option.some.inj h₂)
  split at hrun
  · obtain ⟨_, _, -, hrun⟩ := bind_eq_some.1 hrun
    exact nomatch (pure_eq_some.1 hrun).1
  · next hbegins =>
    obtain ⟨_, t₁, hattributes, hrun⟩ := bind_eq_some.1 hrun
    obtain ⟨_, t, hparameter, hrun⟩ := bind_eq_some.1 hrun
    have hread : Orderly text g 0 true ⟨.empty, none, false, false, .proper⟩
        (do g.attributes; Parse.child g.closureParameter)
        fun _ => ⟨.empty, none, false, false, .proper⟩ :=
      .bind .attributes fun _ => .child .closureParameter
    have ht := (hs.onward_flushed σ).trans (hread.arrives hg (hs.onward_flushed σ).sound
      ⟨nofun, nofun⟩ (bind_eq_some.2 ⟨_, t₁, hattributes, hparameter⟩)).onward
    have hle := ht.le
    obtain ⟨c, _, h₃, hrun⟩ := bind_eq_some.1 hrun
    obtain ⟨hk, rfl⟩ := Prod.mk.inj (Option.some.inj h₃)
    split at hrun
    · have hcomma : t.kind = .comma := hk
      have hconsume : Orderly text g 0 true ⟨.empty, some .comma, false, false, .proper⟩
          (do Parse.consume; return true) fun _ => ⟨.empty, none, true, false, .proper⟩ :=
        .bind (.consumeAt nofun) fun _ => .pure (.refl _)
      have hfit : Stage.Fits ⟨.empty, some .comma, false, false, .proper⟩ t :=
        ⟨fun c hc => hcomma.trans (Option.some.inj hc), nofun⟩
      have hlt := ((hconsume.arrives hg ht.sound hfit hrun).moved rfl).resolve_left nofun
      omega
    · have hpipe : t.kind = .pipe := hk
      obtain ⟨-, rfl⟩ := pure_eq_some.1 hrun
      -- at the same token the bar would have been there before, or half of a doubled one
      refine Nat.lt_of_le_of_ne hle fun heq => hbegins ?_
      show (s.kind == .pipe || !(s.kind.startsPattern || s.kind == .pound)) = true
      rcases ht.steady heq.symm with hk | hk
      · rw [← hk, hpipe]
        rfl
      · have hdouble : Kind.pipe ∈ s.kind.reshapes := hpipe ▸ hk
        rw [Kind.eq_pipePipe_of_reshapes hdouble]
        rfl
    · obtain ⟨_, _, -, hrun⟩ := bind_eq_some.1 hrun
      exact nomatch (pure_eq_some.1 hrun).1

theorem closureParameterTurn :
    Orderly text g k true ⟨.empty, none, false, o, F⟩ g.closureParameterTurn
      fun b => ⟨.empty, none, b, o, F⟩ :=
  .after (.moves (fun b => b) .closureParameterTurn_unmoved fun hg hs _ hrun hb => by
    subst hb
    exact closureParameterTurn_lt hg hs hrun) fun _ => .less (.inr rfl) id id (.same _)

theorem closureParameters :
    Orderly text g k true ⟨.empty, a, m, o, F⟩ g.closureParameters
      fun n => ⟨.node n, none, m, o, F⟩ :=
  .node rfl <| .isAt
    (.bind (.split Scanner.splitsInto_pipePipe) fun _ => .bind .consume fun _ => .consume)
    (.bind (.expect rfl) fun _ => .repeatWhile .closureParameterTurn)

/-- The parameters of a closure take the bar that they begin with. -/
theorem closureParametersAt {c : Kind} (hc : c = .pipe ∨ c = .pipePipe) :
    Orderly text g k f ⟨.empty, some c, m, o, F⟩ g.closureParameters
      fun n => ⟨.node n, none, true, o, F⟩ := by
  refine .node rfl ?_
  rcases hc with rfl | rfl
  · exact .isOther nofun <| .bind (.expectAt nofun) fun _ =>
      .past (.repeatWhile .closureParameterTurn)
  · exact .isThere <| .bind (.split Scanner.splitsInto_pipePipe) fun _ =>
      .bind (.consumeAt nofun) fun _ => .consume

theorem closureBody :
    Orderly text g k true ⟨.empty, a, m, o, .proper⟩ g.closureBody
      fun _ => ⟨.empty, none, m, o, .proper⟩ :=
  .isAt (.bind .returnTypeIf fun _ => .field (.call (.inl rfl) rfl)) (.field (.call (.inl rfl) rfl))

end Orderly

end ConcreteSyntax
