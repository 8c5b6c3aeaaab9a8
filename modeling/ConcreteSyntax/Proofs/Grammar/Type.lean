import ConcreteSyntax.Proofs.Grammar.Generic
import ConcreteSyntax.Proofs.Grammar.TokenTree

/-! # Types are orderly -/

namespace ConcreteSyntax

open Parse

theorem Grammar.steady_tupleTypeList : Grammar.tupleTypeList.Steady := ⟨rfl, rfl, rfl, by decide⟩

namespace Orderly

variable {text : List Char} {g : Grammar} {k : Nat} {f : Bool} {a : Option Kind} {m o : Bool} {F : Standing}

/-! ### Paths -/

theorem typeAsTrait :
    Orderly text g k true ⟨.empty, a, m, o, F⟩ g.typeAsTrait
      fun n => ⟨.node n, none, m, o, F⟩ :=
  .bind (.call (.inl rfl) rfl) fun _ => .isAt
    (.node rfl <| .bind .pushField fun _ => .bind .consume fun _ =>
      .field (.call (.inl rfl) rfl))
    (.pure (.refl _))

theorem bracketedTypeAt {c : Kind} (hc : c.startsAngle = true) :
    Orderly text g k f ⟨.empty, some c, m, o, F⟩ g.bracketedType
      fun n => ⟨.node n, none, true, o, F⟩ := by
  have hrest : Orderly text g k f ⟨.empty, some .lt, m, o, .proper⟩
      (do Parse.consume; Parse.child g.typeAsTrait; Parse.expect .gt)
      fun _ => ⟨.empty, none, true, o, .proper⟩ :=
    .bind (.consumeAt nofun) fun _ => .freely <| .bind (.child .typeAsTrait) fun _ =>
      .expect rfl
  refine .node rfl ?_
  rcases Bool.or_eq_true_iff.1 hc with hc | hc
  · obtain rfl := eq_of_beq hc
    exact .bind (.ifOther nofun) fun _ => hrest
  · obtain rfl := eq_of_beq hc
    exact .bind (.ifThere (.split Scanner.splitsInto_shl)) fun _ => hrest

theorem pathScope :
    Orderly text g k f ⟨.empty, a, m, o, F⟩ g.pathScope
      fun d => ⟨.ofScope d, none, m, o, F⟩ := by
  refine .kind fun c _ => ?_
  split
  · next hc =>
    exact .perhaps <| .bind (.bracketedTypeAt hc) fun _ => .bind .scopeAfter fun _ => .pure (.refl _)
  · split
    · exact .bind .globalScope fun _ => .pure (.refl _)
    · exact .pure .forget

theorem typeName {scope : Option Draft} :
    Orderly text g k f ⟨.ofScope scope, a, m, o, F⟩ (Grammar.typeName scope)
      fun n => ⟨.node n, none, m, o, F⟩ := by
  cases scope with
  | some scope =>
    have hretag : Hand.Becomes o (.ofScope (some scope))
        (.draft (scope.setKind .scopedTypeIdentifier) .proper) := .retag scope rfl
    exact .recast hretag (.resume (.field (.segment rfl)))
  | none =>
    have hprimitive : Grammar.isAtPrimitive.Aside false :=
      .bind (aside_isAt _) fun atName => by
        cases atName
        · exact aside_pure _
        · exact .bind aside_tokenText fun _ => aside_pure _
    refine .bind (.beside hprimitive) fun isPrimitive =>
      .sure _ (fun _ _ hrun => segment_leaf hrun) (.segment rfl) fun name ⟨hleaf, hname⟩ => ?_
    cases isPrimitive
    · exact .pure (.refl _)
    · have hne {c : Kind} (hc : c ≠ .typeIdentifier) (hs : c.startsSegment = false) :
          name.kind ≠ c := by
        rintro rfl
        rcases hname with h | h
        · exact hc h
        · exact nomatch hs.symm.trans h
      have hkind : Hand.Becomes o (.node name) (.node (name.withKind .primitiveType)) :=
        .kind name rfl hleaf (hne nofun rfl) (hne nofun rfl)
      exact .recast hkind (.pure (.refl _))

theorem genericTypeAt {name : Node} {c : Kind} (hc : c.startsAngle = true ∨ c = .colonColon) :
    Orderly text g k f ⟨.node name, some c, m, o, F⟩ (g.genericType name)
      fun n => ⟨.node n, none, true, o, F⟩ := by
  refine .node rfl <| .bind .pushField fun _ => ?_
  rcases hc with hc | rfl
  · have hne : c ≠ .colonColon := by
      rintro rfl
      exact nomatch hc
    exact .bind (.ifOther hne) fun _ => .field (.typeArgumentsAt hc)
  · exact .bind (.consumeIfAt nofun) fun _ => .field .typeArguments

theorem functionTrait {name : Node} :
    Orderly text g k f ⟨.node name, a, m, o, F⟩ (g.functionTrait name)
      fun n => ⟨.node n, none, m, o, F⟩ :=
  .node rfl <| .bind .pushField fun _ => .bind (.field .bareParameters) fun _ => .returnTypeIf

theorem typePathTurn {scope : Option Draft} :
    Orderly text g k f ⟨.ofScope scope, none, false, o, F⟩ (g.typePathTurn scope)
      (afterTurn (fun d => ⟨.ofScope d, none, false, o, F⟩) fun n => ⟨.node n, none, false, o, F⟩) := by
  refine .look (fun _ _ => rfl) fun s _ => ?_
  split
  · next hs =>
    have hsegment : s.kind.startsSegment = true :=
      (Bool.and_eq_true_iff.1 (Bool.and_eq_true_iff.1 hs).1).1
    exact .bind (.segmentInAt rfl hsegment) fun _ => .bind .scopeAfter fun _ =>
      .pure (.refl _)
  · refine .bind .typeName fun name => .look (fun _ _ => rfl) fun s _ => ?_
    split
    · next hs =>
      have hangle : s.kind.startsAngle = true ∨ s.kind = .colonColon :=
        (Bool.or_eq_true_iff.1 hs).imp_right fun h => eq_of_beq (Bool.and_eq_true_iff.1 h).1
      refine .bind (.genericTypeAt hangle) fun _ => .look (fun _ _ => rfl) fun s _ => ?_
      split
      · exact .bind .scopeAfter fun _ => .pure (.refl _)
      · exact .pure .halt
    · split
      · exact .bind .functionTrait fun _ => .pure .halt
      · split
        · next hs =>
          have hk : s.kind = .bang := eq_of_beq (Bool.and_eq_true_iff.1 hs).1
          rw [hk]
          exact .bind (.recast (.path name) .macroCallAt) fun _ => .pure .halt
        · exact .pure .halt

theorem typePath :
    Orderly text g k f ⟨.empty, a, m, o, F⟩ g.typePath fun n => ⟨.node n, none, m, o, F⟩ :=
  .bind .flush fun _ => .bind .pathScope fun _ => .turns .ofScope fun _ => .typePathTurn

/-! ### Other types -/

theorem tupleTypeAt :
    Orderly text g k f ⟨.empty, some .openParen, m, o, F⟩ g.tupleType
      fun n => ⟨.node n, none, true, o, F⟩ := by
  refine .fairNode rfl <| .bind (.beside (aside_ahead 1)) fun _ => ?_
  split
  · exact .bind (.beside (aside_settle _ _)) fun _ => .bind (.setKind nofun rfl) fun _ =>
      .bind (.consumeAt nofun) fun _ => .after .consume fun _ => .fair
  · exact .listAt Grammar.steady_tupleTypeList (.child (.call (.inl rfl) rfl))

theorem arrayTypeAt :
    Orderly text g k f ⟨.empty, some .openBracket, m, o, F⟩ g.arrayType
      fun n => ⟨.node n, none, true, o, F⟩ :=
  .node rfl <| .bind (.consumeAt nofun) fun _ => .freely <|
    .bind (.field (.call (.inl rfl) rfl)) fun _ =>
    .bind (.ifAt <| .bind .consume fun _ => .field (.unrestricted (.call (.inl rfl) rfl))) fun _ =>
    .expect rfl

/-- The reference inside another one may stand at any token, but its type is another nonterminal. -/
theorem referenceType (hr : f = true ∨ 0 < k) :
    Orderly text g k f ⟨.empty, a, m, o, F⟩ g.referenceType
      fun n => ⟨.node n, none, m, o, F⟩ := by
  have hr' : f = true ∨ m = true ∨ Nonterminal.type.rank < k := hr.imp_right .inr
  refine .node rfl <| .isAt ?_ ?_
  · exact .perhaps <| .bind (.split Scanner.splitsInto_ampAmp) fun _ =>
      .bind (.consumeAt nofun) fun _ => .field (.call (.inr (.inl rfl)) rfl)
  · exact .bind .consume fun _ => .bind (.ifAt (.child .lifetime)) fun _ => .bind .consumeIf fun _ =>
      .field (.call hr' rfl)

theorem referenceTypeAt {c : Kind} (hc : c = .amp ∨ c = .ampAmp) :
    Orderly text g k f ⟨.empty, some c, m, o, F⟩ g.referenceType
      fun n => ⟨.node n, none, true, o, F⟩ := by
  refine .node rfl <| .isAt ?_ ?_
  · exact .bind (.split Scanner.splitsInto_ampAmp) fun _ =>
      .bind (.consumeAt nofun) fun _ => .field (.call (.inr (.inl rfl)) rfl)
  · have hend : c ≠ .endOfFile := by rcases hc with rfl | rfl <;> nofun
    exact .bind (.consumeAt hend) fun _ => .bind (.ifAt (.child .lifetime)) fun _ =>
      .bind .consumeIf fun _ => .field (.call (.inr (.inl rfl)) rfl)

theorem pointerTypeAt :
    Orderly text g k f ⟨.empty, some .star, m, o, F⟩ g.pointerType
      fun n => ⟨.node n, none, true, o, F⟩ := by
  have hmodifier : Orderly text g k f ⟨.empty, none, true, o, .proper⟩ Grammar.pointerModifier
      fun _ => ⟨.empty, none, true, o, .proper⟩ := by
    refine .bind (.beside (aside_isAtAny _)) fun _ => ?_
    split
    · exact .consume
    · exact .beside (aside_reportExpected _ |>.weaken nofun)
  exact .node rfl <| .bind (.consumeAt nofun) fun _ => .bind hmodifier fun _ =>
    .field (.call (.inr (.inl rfl)) rfl)

theorem boundSum :
    Orderly text g k true ⟨.empty, a, m, o, F⟩ g.boundSum fun n => ⟨.node n, none, m, o, F⟩ :=
  .bind .bound fun _ => .turns .node fun _ => .isAt
    (.bind (.node rfl <| .bind .push fun _ => .bind (.consumeAt nofun) fun _ => .child .bound)
      fun _ => .pure (.refl _))
    (.pure .forget)

theorem boundedTypeAt {kind c : Kind} (hk : kind.isFree = true) (hc : c ≠ .endOfFile) :
    Orderly text g k f ⟨.empty, some c, m, o, F⟩ (g.boundedType kind)
      fun n => ⟨.node n, none, true, o, F⟩ :=
  .node hk <| .bind (.consumeAt hc) fun _ => .past <| .field .boundSum

theorem functionTypeRest :
    Orderly text g k f ⟨.empty, a, m, o, .proper⟩ g.functionTypeRest
      fun _ => ⟨.empty, none, m, o, .proper⟩ :=
  .bind (.beside (aside_isAtAny _)) fun _ => .bind (.provided (.child .functionModifiers)) fun _ =>
    .bind (.expect rfl) fun _ => .bind (.field .bareParameters) fun _ => .returnTypeIf

theorem boundTypeAt :
    Orderly text g k f ⟨.empty, some .forKw, m, o, F⟩ g.boundType
      fun n => ⟨.node n, none, true, o, F⟩ := by
  refine .bind .forBinderAt fun _ => .bind (.beside (aside_isAtAny _)) fun _ => ?_
  split
  · exact .node rfl <| .bind .push fun _ => .functionTypeRest
  · exact .node rfl <| .bind .pushField fun _ => .field (.call (.inr (.inl rfl)) rfl)

/-! ### Any type -/

theorem typeForm :
    Orderly text g k f ⟨.empty, a, m, o, F⟩ g.typeForm fun n => ⟨.node n, none, m, o, F⟩ := by
  refine .kind fun c _ => ?_
  split
  case h_1 => exact .perhaps .tupleTypeAt
  case h_2 => exact .perhaps .arrayTypeAt
  case h_3 | h_4 => exact .perhaps (.referenceTypeAt (by simp))
  case h_5 => exact .perhaps .pointerTypeAt
  case h_6 => exact .node rfl .consume
  case h_7 | h_8 => exact .perhaps (.leaf nofun readAs_none)
  case h_9 | h_10 => exact .perhaps (.boundedTypeAt rfl nofun)
  case h_11 | h_12 | h_13 => exact .node rfl .functionTypeRest
  case h_14 => exact .perhaps .boundTypeAt
  case h_23 =>
    exact .forget <| .forgive <| .bind (.report (aside_reportExpected _)) fun _ => .missing rfl
  all_goals exact .typePath

theorem type :
    Orderly text g k f ⟨.empty, a, m, o, F⟩ g.type fun n => ⟨.node n, none, m, o, F⟩ :=
  .bind .flush fun _ => .deeper .typeForm

end Orderly

end ConcreteSyntax
