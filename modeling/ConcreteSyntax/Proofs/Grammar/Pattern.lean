import ConcreteSyntax.Grammar.Pattern
import ConcreteSyntax.Proofs.Grammar.Type

/-! # Paths of values and patterns are orderly -/

namespace ConcreteSyntax

open Parse

theorem Grammar.steady_patternList {opener closer : Kind} (ho : opener.isStandIn = true)
    (hc : closer.isReshaped = false) (hc' : closer.isStandIn = true) :
    (Grammar.patternList opener closer).Steady :=
  ⟨ho, hc, hc', show ∀ c ∈ [Kind.semicolon, .closeBrace, .fatArrow, .eq], c.isReshaped = false by decide⟩

theorem Grammar.steady_fieldPatternList : Grammar.fieldPatternList.Steady :=
  ⟨rfl, rfl, rfl, by decide⟩

namespace Orderly

variable {text : List Char} {g : Grammar} {k : Nat} {f : Bool} {a : Option Kind} {m o : Bool} {F : Standing}

/-! ### Paths of values -/

theorem withArguments {path : Node} :
    Orderly text g k f ⟨.node path, a, m, o, F⟩ (g.withArguments path)
      fun n => ⟨.node n, none, m, o, F⟩ := by
  refine .look (fun _ _ => rfl) fun s _ => ?_
  split
  · exact .bind (.beside (aside_settle _ _)) fun _ => .node rfl <| .bind .pushField fun _ =>
      .bind .consume fun _ => .field .typeArguments
  · exact .pure .forget

theorem valuePathTurn {scope : Option Draft} :
    Orderly text g k f ⟨.ofScope scope, none, false, o, F⟩ (g.valuePathTurn scope)
      (afterTurn (fun d => ⟨.ofScope d, none, false, o, F⟩)
        fun n => ⟨.node n, none, false, o, F⟩) := by
  refine .bind (.segmentIn rfl) fun _ => .bind .withArguments fun path =>
    .look (fun _ _ => rfl) fun s _ => ?_
  split
  · next hs =>
    have hk : s.kind = .colonColon := eq_of_beq (Bool.and_eq_true_iff.1 hs).1
    rw [hk]
    split
    · exact .recast (.type path) <| .bind .scopeAfterAt fun _ => .pure (.refl _)
    · exact .bind .scopeAfterAt fun _ => .pure (.refl _)
  · exact .pure .halt

theorem valuePath :
    Orderly text g k f ⟨.empty, a, m, o, F⟩ g.valuePath fun n => ⟨.node n, none, m, o, F⟩ :=
  .bind .flush fun _ => .bind .pathScope fun _ => .turns .ofScope fun _ => .valuePathTurn

/-! ### Literals and ranges -/

theorem literalPattern :
    Orderly text g k f ⟨.empty, a, m, o, F⟩ Grammar.literalPattern
      fun n => ⟨.node n, none, m, o, F⟩ :=
  .isAt .negativeLiteral .literal

theorem rangeBound :
    Orderly text g k f ⟨.empty, a, m, o, F⟩ g.rangeBound fun n => ⟨.node n, none, m, o, F⟩ := by
  refine .bind .flush fun _ => .kind fun c _ => ?_
  split
  case h_1 | h_2 | h_3 | h_4 | h_5 | h_6 => exact .literalPattern
  case h_13 =>
    exact .forget <| .forgive <| .bind (.report (aside_reportExpected _)) fun _ => .missing rfl
  all_goals exact .valuePath

theorem rangeTo :
    Orderly text g k f ⟨.empty, a, m, o, F⟩ g.rangeTo fun n => ⟨.node n, none, m, o, F⟩ :=
  .node rfl <| .bind .consume fun _ => .field .rangeBound

theorem rangeFrom {left : Node} :
    Orderly text g k f ⟨.node left, a, m, o, F⟩ (g.rangeFrom left)
      fun n => ⟨.node n, none, m, o, F⟩ := by
  refine .kind fun c _ => ?_
  split
  · refine .node rfl <| .bind .pushField fun _ => .bind .consume fun _ => ?_
    refine .kind fun c' _ => ?_
    split
    · exact .field .rangeBound
    · exact .pure .forget
  · exact .pure .forget

/-! ### Lists -/

theorem patterns {opener closer : Kind} (ho : opener.isStandIn = true)
    (hc : closer.isReshaped = false) (hc' : closer.isStandIn = true) :
    Orderly text g k f ⟨.empty, a, m, o, .proper⟩ (g.patterns opener closer)
      fun _ => ⟨.empty, none, m, o, .fair⟩ :=
  .list (Grammar.steady_patternList ho hc hc') (.child (.call (.inl rfl) rfl))

theorem fieldPattern :
    Orderly text g k true ⟨.empty, a, m, o, F⟩ g.fieldPattern
      fun n => ⟨.node n, none, m, o, F⟩ := by
  refine .bind .flush fun _ => .isAt (.node rfl .consume) <| .node rfl <|
    .bind .consumeIf fun _ => .bind .consumeIf fun _ => .look (fun _ _ => rfl) fun s _ => ?_
  split
  · exact .bind .memberName fun _ => .bind .consume fun _ => .field (.call (.inl rfl) rfl)
  · exact .expectName rfl

theorem structPattern {path : Node} :
    Orderly text g k f ⟨.node path, a, m, o, F⟩ (g.structPattern path)
      fun n => ⟨.node n, none, m, o, F⟩ :=
  .recast (.type path) <| .fairNode rfl <| .bind .pushField fun _ =>
    .list Grammar.steady_fieldPatternList (.bind .attributes fun _ => .child .fieldPattern)

/-! ### Paths and references -/

theorem pathPattern :
    Orderly text g k f ⟨.empty, a, m, o, F⟩ g.pathPattern fun n => ⟨.node n, none, m, o, F⟩ := by
  refine .bind .valuePath fun path => .look (fun _ _ => rfl) fun s _ => ?_
  split
  · exact .fairNode rfl <| .bind .pushField fun _ => .patterns rfl rfl rfl
  · split
    · exact .structPattern
    · split
      · next hs =>
        have hk : s.kind = .bang := eq_of_beq (Bool.and_eq_true_iff.1 hs).1
        rw [hk]
        exact .perhaps .macroCallAt
      · exact .rangeFrom

/-- The pattern inside a reference inside another one may stand at any token, but it is another
nonterminal. -/
theorem referencePattern (hr : f = true ∨ 0 < k) :
    Orderly text g k f ⟨.empty, a, m, o, F⟩ g.referencePattern
      fun n => ⟨.node n, none, m, o, F⟩ := by
  have hr' : f = true ∨ m = true ∨ Nonterminal.singlePattern.rank < k := hr.imp_right .inr
  refine .node rfl <| .isAt ?_ ?_
  · exact .perhaps <| .bind (.split Scanner.splitsInto_ampAmp) fun _ =>
      .bind (.consumeAt nofun) fun _ => .child (.call (.inr (.inl rfl)) rfl)
  · exact .bind .consume fun _ => .bind .consumeIf fun _ => .child (.call hr' rfl)

theorem referencePatternAt {c : Kind} (hc : c = .amp ∨ c = .ampAmp) :
    Orderly text g k f ⟨.empty, some c, m, o, F⟩ g.referencePattern
      fun n => ⟨.node n, none, true, o, F⟩ := by
  refine .node rfl <| .isAt ?_ ?_
  · exact .bind (.split Scanner.splitsInto_ampAmp) fun _ =>
      .bind (.consumeAt nofun) fun _ => .child (.call (.inr (.inl rfl)) rfl)
  · have hend : c ≠ .endOfFile := by rcases hc with rfl | rfl <;> nofun
    exact .bind (.consumeAt hend) fun _ => .bind .consumeIf fun _ =>
      .child (.call (.inr (.inl rfl)) rfl)

theorem modifiedPatternAt {kind c : Kind} (hk : kind.isFree = true) (hc : c ≠ .endOfFile) :
    Orderly text g k f ⟨.empty, some c, m, o, F⟩ (g.modifiedPattern kind)
      fun n => ⟨.node n, none, true, o, F⟩ :=
  .node hk <| .bind (.consumeAt hc) fun _ => .child (.call (.inr (.inl rfl)) rfl)

/-! ### Any pattern -/

theorem patternForm :
    Orderly text g k f ⟨.empty, a, m, o, F⟩ g.patternForm fun n => ⟨.node n, none, m, o, F⟩ := by
  refine .look (fun _ _ => rfl) fun s _ => ?_
  have hleaf (hk : s.kind ≠ .endOfFile) :
      Orderly text g k f ⟨.empty, some s.kind, m, o, F⟩ Parse.leaf
        fun n => ⟨.node n, none, m, o, F⟩ :=
    .perhaps (.leaf hk readAs_none)
  split
  · next hk => exact hleaf (by rw [hk]; nofun)
  · split
    · exact .rangeTo
    · exact .node rfl .consume
  · exact .rangeTo
  · exact .fairNode rfl <| .bind (.beside (aside_ahead 1)) fun _ =>
      .bind (.provided (.forget (.beside (aside_settle _ _)))) fun _ => .patterns rfl rfl rfl
  · exact .fairNode rfl (.patterns rfl rfl rfl)
  · next hk => exact hk ▸ .perhaps (.referencePatternAt (.inl rfl))
  · next hk => exact hk ▸ .perhaps (.referencePatternAt (.inr rfl))
  · next hk => exact hk ▸ .perhaps (.modifiedPatternAt rfl nofun)
  · next hk => exact hk ▸ .perhaps (.modifiedPatternAt rfl nofun)
  case h_18 hk =>
    split
    · exact .pathPattern
    · exact hleaf (by rw [hk]; nofun)
  case h_10 | h_11 | h_12 | h_13 | h_14 | h_15 | h_16 | h_17 =>
    exact .bind .literalPattern fun _ => .rangeFrom
  case h_27 =>
    exact .forget <| .forgive <| .bind (.report (aside_reportExpected _)) fun _ => .missing rfl
  all_goals exact .pathPattern

theorem singlePattern :
    Orderly text g k f ⟨.empty, a, m, o, F⟩ g.singlePattern
      fun n => ⟨.node n, none, m, o, F⟩ :=
  .bind .flush fun _ => .bind (.deeper .patternForm) fun _ => .isAt
    (.perhaps <| .node rfl <| .bind .push fun _ => .bind (.consumeAt nofun) fun _ =>
      .child (.call (.inr (.inl rfl)) rfl))
    (.pure (.refl _))

theorem alternativeTurn {n : Node} :
    Orderly text g k f ⟨.node n, none, false, o, F⟩ (g.alternativeTurn n)
      (afterTurn (fun n => ⟨.node n, none, false, o, F⟩)
        fun n => ⟨.node n, none, false, o, F⟩) :=
  .isAt
    (.bind (.node rfl <| .bind .push fun _ => .bind (.consumeAt nofun) fun _ =>
      .child (.call (.inr (.inl rfl)) rfl)) fun _ => .pure (.refl _))
    (.pure .forget)

/-- A pattern may begin with a single one, which is another nonterminal. -/
theorem pattern (hr : f = true ∨ 0 < k) :
    Orderly text g k f ⟨.empty, a, m, o, F⟩ g.pattern fun n => ⟨.node n, none, m, o, F⟩ := by
  have hr' : f = true ∨ m = true ∨ Nonterminal.singlePattern.rank < k := hr.imp_right .inr
  have hfirst : Orderly text g k f ⟨.empty, a, m, o, F⟩ g.firstAlternative
      fun n => ⟨.node n, none, m, o, F⟩ :=
    .isAt
      (.perhaps <| .node rfl <| .bind (.consumeAt nofun) fun _ =>
        .child (.call (.inr (.inl rfl)) rfl))
      (.call hr' rfl)
  exact .bind .flush fun _ => .deeper <| .bind hfirst fun _ => .turns .node fun _ => .alternativeTurn

end Orderly

end ConcreteSyntax
