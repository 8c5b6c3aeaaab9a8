import ConcreteSyntax.Proofs.Grammar.Path

/-! # Attributes, generics and signatures are orderly

What stands before an item, between `<` and `>`, and around the parameters of a function. All but
the first token of each may hold any nonterminal. -/

namespace ConcreteSyntax

open Parse

theorem Grammar.steady_angleList (starts : Kind → Bool) : (Grammar.angleList starts).Steady :=
  ⟨rfl, rfl, rfl, show ∀ c ∈ Grammar.typeListEnds, c.isReshaped = false by decide⟩

theorem Grammar.steady_parameterList : Grammar.parameterList.Steady := ⟨rfl, rfl, rfl, by decide⟩

theorem Parse.reportAnonymous_run (range : Range) (σ : Setting) (s : Session) :
    Grammar.reportAnonymous range σ s =
      some ((), { s with report := s.report.addAnonymous σ.file range σ.options }) := by
  unfold Report.addAnonymous
  show (if σ.options.allowAnonymousParameters = true then _ else _ : Parse Unit) σ s = _
  split <;> rfl

theorem Parse.aside_reportAnonymous {range : Range} :
    (Grammar.reportAnonymous range).Aside false := by
  refine fun σ s => ⟨(), { s with report := s.report.addAnonymous σ.file range σ.options },
    fun _ _ => reportAnonymous_run range _ s, ?_, fun l hs => ⟨hs, ?_⟩⟩
  · have hbeside {m : Message} (hm : 2000 ≤ m.code) := beside_reportAt hm σ.file range [] s
    unfold Report.addAnonymous
    split
    · exact { hbeside (by decide) with owed := nofun }
    · exact { hbeside (by decide) with owed := nofun }
  · rw [reportAnonymous_run]
    unfold Session.relaxed
    rw [Report.relaxed_addAnonymous]
    rfl

/-- `default` is taken where it stands. -/
theorem Parse.consumeDefault_eq :
    consumeDefault = (isAtWord "default" >>= fun b => provided b (takeWord .defaultKw)) :=
  isAtWord_congr rfl fun _ _ hs => (takeWord_eq .defaultKw rfl hs).symm

theorem Parse.functionModifier_default :
    (isAtWord "default" >>= fun b =>
        if b = true then consumeAs .defaultKw >>= fun _ => pure true else pure false) =
      (isAtWord "default" >>= fun b =>
        if b = true then takeWord .defaultKw >>= fun _ => pure true else pure false) :=
  isAtWord_congr rfl fun _ _ hs => (takeWord_bind .defaultKw rfl hs).symm

namespace Orderly

variable {text : List Char} {g : Grammar} {k : Nat} {f : Bool} {a : Option Kind} {m o : Bool} {F : Standing}

/-! ### Attributes -/

theorem attributeBody :
    Orderly text g k true ⟨.empty, a, m, o, F⟩ g.attributeBody
      fun n => ⟨.node n, none, m, o, F⟩ := by
  refine .bind .flush fun _ => .node rfl <| .bind (.child .simplePath) fun _ =>
    .kind fun c _ => ?_
  split
  · exact .bind .consume fun _ => .field (.unrestricted (.call (.inl rfl) rfl))
  · split
    · exact .field (.anywhere (.call (.inl rfl) rfl))
    · exact .pure .forget

theorem attributeItemAt :
    Orderly text g k f ⟨.empty, some .pound, m, o, F⟩ g.attributeItem
      fun n => ⟨.node n, none, true, o, F⟩ := by
  refine .bind .flush fun _ => .node rfl <| .bind (.consumeAt nofun) fun _ => .freely <|
    .bind (.ifAt (.bind (.setKind nofun rfl) fun _ => .consume)) fun _ => .isAt ?_ (.expect rfl)
  exact .bind (.beside aside_tokenRange) fun _ => .bind .consume fun _ =>
    .bind (.child .attributeBody) fun _ => .close

theorem attributes :
    Orderly text g k f ⟨.empty, a, m, o, F⟩ g.attributes fun _ => ⟨.empty, none, m, o, F⟩ :=
  .repeatWhile <| .isAt (.bind (.child .attributeItemAt) fun _ => .pure (.refl _)) (.pure .forget)

theorem visibility :
    Orderly text g k f ⟨.empty, a, m, o, F⟩ Parse.visibility
      fun n => ⟨.node n, none, m, o, F⟩ := by
  have hscope : Orderly text g k f ⟨.empty, none, m, o, .proper⟩ Parse.visibilityScope
      fun _ => ⟨.empty, none, m, o, .proper⟩ :=
    .isAt (.bind .consume fun _ => .child .simplePath) .consume
  refine .bind .flush fun _ => .node rfl <| .bind .consume fun _ => .look (fun _ _ => rfl) fun s _ => ?_
  split
  · extract_lets limited
    split
    · exact .bind (.beside (aside_settle _ _)) fun _ => .bind .consume fun _ =>
        .bind hscope fun _ => .expect rfl
    · exact .forget (.beside (aside_settle _ _))
  · exact .pure .forget

theorem visibilityIf :
    Orderly text g k f ⟨.empty, a, m, o, F⟩ Parse.visibilityIf fun _ => ⟨.empty, none, m, o, F⟩ :=
  .ifAt (.child .visibility)

/-! ### Arguments of types -/

theorem typeAsArgument :
    Orderly text g k true ⟨.empty, a, m, o, F⟩ g.typeAsArgument
      fun n => ⟨.node n, none, m, o, F⟩ := by
  refine .bind (.call (.inl rfl) rfl) fun type => ?_
  split
  · exact .bind (.beside (aside_settle _ _)) fun _ => .recast (.ambiguous type) (.pure (.refl _))
  · exact .pure (.refl _)

theorem typeBinding :
    Orderly text g k true ⟨.empty, a, m, o, F⟩ g.typeBinding fun n => ⟨.node n, none, m, o, F⟩ :=
  .node rfl <| .bind (.consumeFieldAs rfl) fun _ => .bind .consume fun _ =>
    .field (.call (.inl rfl) rfl)

theorem typeArgument :
    Orderly text g k true ⟨.empty, a, m, o, F⟩ g.typeArgument
      fun n => ⟨.node n, none, m, o, F⟩ := by
  refine .bind .flush fun _ => .look (fun _ _ => rfl) fun s _ => ?_
  split
  · exact .lifetime
  · exact .call (.inl rfl) rfl
  · exact .negativeLiteral
  · split
    · exact .typeBinding
    · exact .typeAsArgument
  · split
    · exact .literal
    · exact .typeAsArgument

theorem typeArguments :
    Orderly text g k f ⟨.empty, a, m, o, F⟩ g.typeArguments
      fun n => ⟨.node n, none, m, o, F⟩ :=
  .bind .flush fun _ => .fairNode rfl <|
    .bind (.ifAt (.forget (.split Scanner.splitsInto_shl))) fun _ =>
    .unrestricted (.list (Grammar.steady_angleList _) (.child .typeArgument))

/-- Arguments of a type begin with the `<` that they take. -/
theorem typeArgumentsAt {c : Kind} (hc : c.startsAngle = true) :
    Orderly text g k f ⟨.empty, some c, m, o, F⟩ g.typeArguments
      fun n => ⟨.node n, none, true, o, F⟩ := by
  have hlist : Orderly text g k f ⟨.empty, some .lt, m, o, .proper⟩
      (Parse.unrestricted
        (Parse.list (Grammar.angleList Kind.startsTypeArgument) (Parse.child g.typeArgument)))
      fun _ => ⟨.empty, none, true, o, .fair⟩ :=
    .unrestricted (.listAt (Grammar.steady_angleList _) (.child .typeArgument))
  refine .bind .flush fun _ => .fairNode rfl ?_
  rcases Bool.or_eq_true_iff.1 hc with hc | hc
  · obtain rfl := eq_of_beq hc
    exact .bind (.ifOther nofun) fun _ => hlist
  · obtain rfl := eq_of_beq hc
    exact .bind (.ifThere (.split Scanner.splitsInto_shl)) fun _ => hlist

/-! ### Bounds -/

theorem bound :
    Orderly text g k true ⟨.empty, a, m, o, F⟩ g.bound fun n => ⟨.node n, none, m, o, F⟩ := by
  refine .bind .flush fun _ => .kind fun c _ => ?_
  split
  · exact .lifetime
  · exact .node rfl <| .bind .consume fun _ => .child (.call (.inl rfl) rfl)
  · exact .call (.inl rfl) rfl

theorem traitBounds :
    Orderly text g k true ⟨.empty, a, m, o, F⟩ g.traitBounds
      fun n => ⟨.node n, none, m, o, F⟩ := by
  refine .bind .flush fun _ => .node rfl <| .bind (.expect rfl) fun _ => .repeatWhile <|
    .kind fun c _ => ?_
  split
  · exact .bind (.child .bound) fun _ => .accept nofun
  · exact .pure .forget

theorem traitBoundsIf :
    Orderly text g k true ⟨.empty, a, m, o, .proper⟩ g.traitBoundsIf
      fun _ => ⟨.empty, none, m, o, .proper⟩ :=
  .ifAt (.field .traitBounds)

/-! ### Parameters of types -/

theorem genericParameter :
    Orderly text g k true ⟨.empty, a, m, o, F⟩ g.genericParameter
      fun n => ⟨.node n, none, m, o, F⟩ := by
  refine .bind .flush fun _ => .kind fun c _ => ?_
  split
  · exact .node rfl <| .bind (.field .lifetime) fun _ => .traitBoundsIf
  · exact .node rfl <| .bind .consume fun _ => .bind (.expectName rfl) fun _ =>
      .bind (.expect rfl) fun _ => .bind (.field (.call (.inl rfl) rfl)) fun _ =>
      .ifAt (.bind .consume fun _ => .field .typeArgument)
  · exact .node rfl <| .bind (.expectName rfl) fun _ => .bind .traitBoundsIf fun _ =>
      .ifAt (.bind .consume fun _ => .field (.call (.inl rfl) rfl))

theorem genericList :
    Orderly text g k f ⟨.empty, a, m, o, .proper⟩ g.genericList
      fun _ => ⟨.empty, none, m, o, .fair⟩ :=
  .list (Grammar.steady_angleList _) (.bind .attributes fun _ => .child .genericParameter)

theorem typeParametersIf :
    Orderly text g k f ⟨.empty, a, m, o, .proper⟩ g.typeParametersIf fun _ => ⟨.empty, none, m, o, .proper⟩ :=
  .ifAt (.field (.bind .flush fun _ => .fairNode rfl .genericList))

theorem forBinderAt :
    Orderly text g k f ⟨.empty, some .forKw, m, o, F⟩ g.forBinder
      fun n => ⟨.node n, none, true, o, F⟩ := by
  refine .fairNode rfl <| .look (fun _ _ => rfl) fun s hs => ?_
  rw [hs _ rfl]
  split
  · exact .bind (.beside (aside_settle _ _)) fun _ => .bind (.consumeAt nofun) fun _ =>
      .list (Grammar.steady_angleList _) (.child .lifetime)
  · exact .bind (.beside (aside_settle _ _)) fun _ => .bind (.setKind nofun rfl) fun _ =>
      .bind (.consumeAt nofun) fun _ => .genericList

/-! ### Where clauses -/

theorem wherePredicate :
    Orderly text g k true ⟨.empty, a, m, o, F⟩ g.wherePredicate
      fun _ => ⟨.empty, none, m, o, F⟩ :=
  .bind (.isAt .lifetime (.call (.inl rfl) rfl)) fun _ => .child <| .node rfl <|
    .bind .pushField fun _ => .field .traitBounds

theorem whereClauseIf :
    Orderly text g k true ⟨.empty, a, m, o, F⟩ g.whereClauseIf
      fun _ => ⟨.empty, none, m, o, F⟩ := by
  refine .ifAt <| .child <| .bind .flush fun _ => .node rfl <| .bind .consume fun _ =>
    .repeatWhile <| .bind .flush fun _ => .kind fun c _ => ?_
  split
  · exact .bind .wherePredicate fun _ => .accept nofun
  · exact .pure .forget

/-! ### Modifiers of functions -/

theorem externModifierAt :
    Orderly text g k f ⟨.empty, some .externKw, m, o, F⟩ Parse.externModifier
      fun n => ⟨.node n, none, true, o, F⟩ :=
  .bind .flush fun _ => .node rfl <| .bind (.consumeAt nofun) fun _ =>
    .bind (.beside (aside_isAtAny _)) fun _ => .provided (.child .literal)

theorem externModifier :
    Orderly text g k f ⟨.empty, a, m, o, F⟩ Parse.externModifier
      fun n => ⟨.node n, none, m, o, F⟩ :=
  .bind .flush fun _ => .node rfl <| .bind .consume fun _ =>
    .bind (.beside (aside_isAtAny _)) fun _ => .provided (.child .literal)

theorem functionModifiers :
    Orderly text g k f ⟨.empty, a, m, o, F⟩ Parse.functionModifiers
      fun n => ⟨.node n, none, m, o, F⟩ := by
  refine .bind .flush fun _ => .node rfl <| .repeatWhile <| .kind fun c _ => ?_
  split
  case h_1 | h_2 | h_3 => exact .bind (.consumeAt nofun) fun _ => .pure (.refl _)
  case h_4 => exact .bind (.child .externModifierAt) fun _ => .pure (.refl _)
  case h_5 =>
    rw [functionModifier_default]
    refine .bind (.beside (aside_isAtWord _)) fun atDefault => ?_
    split
    · exact .bind (.takeWordAt nofun) fun _ => .pure (.refl _)
    · exact .pure .forget
  case h_6 => exact .pure .forget

theorem consumeDefault :
    Orderly text g k f ⟨.empty, a, m, o, F⟩ Parse.consumeDefault
      fun _ => ⟨.empty, none, m, o, F⟩ := by
  rw [consumeDefault_eq]
  exact .bind (.beside (aside_isAtWord _)) fun _ => .provided .takeWord

/-! ### Parameters of functions -/

theorem bareParameter :
    Orderly text g k true ⟨.empty, a, m, o, F⟩ g.bareParameter
      fun _ => ⟨.empty, none, m, o, F⟩ := by
  refine .look (fun _ _ => rfl) fun s _ => ?_
  split
  · next hs =>
    have hk : s.kind ≠ .endOfFile := by
      intro hk
      have hany := (Bool.and_eq_true_iff.1 hs).1
      simp [Session.isAtAny, hk] at hany
    exact .child <| .node rfl <| .bind (.field (.perhaps (.leaf hk readAs_none))) fun _ =>
      .bind .consume fun _ => .field (.call (.inl rfl) rfl)
  · exact .child (.call (.inl rfl) rfl)

theorem namedParameter :
    Orderly text g k true ⟨.empty, a, m, o, F⟩ g.namedParameter
      fun _ => ⟨.empty, none, m, o, F⟩ := by
  let tried (d : Option Draft) : Stage := ⟨d.elim .lost fun d => .draft d .proper, none, m, o, F⟩
  have hpattern : Orderly text g k true ⟨.empty, a, m, o, F⟩ g.parameterPattern? tried := by
    have hbegins : Standing.proper.Begins .parameter := show Kind.isFree .parameter = true from rfl
    have hfilled : Orderly text g k true ⟨.empty, a, m, o, F⟩
        (Parse.collect (.ofKind .parameter) do
          Parse.consumeIf .mutKw
          Parse.field .pattern (g.parse .singlePattern)) fun d => ⟨.draft d .proper, none, m, o, F⟩ :=
      .collect hbegins <| .bind .consumeIf fun _ => .field (.call (.inl rfl) rfl)
    refine .bind hfilled fun d => .bind (.beside (aside_isAt _)) fun atColon => ?_
    cases atColon
    · exact .pure ⟨.lost _, .inl rfl, id, id, .same _⟩
    · exact .pure (.refl _)
  refine .bind (.speculate hpattern) fun d => ?_
  cases d with
  | some d =>
    exact .child <| .resume <| .bind .consume fun _ => .field (.call (.inl rfl) rfl)
  | none =>
    exact .bind (.node rfl (.field (.call (.inl rfl) rfl))) fun _ =>
      .bind (.beside aside_reportAnonymous) fun _ => .push

theorem parametersOf {plain : Parse Unit}
    (hp : ∀ {a}, Orderly text g k true ⟨.empty, a, false, o, .proper⟩ plain
      fun _ => ⟨.empty, none, false, o, .proper⟩) :
    Orderly text g k f ⟨.empty, a, m, o, F⟩ (g.parametersOf plain)
      fun n => ⟨.node n, none, m, o, F⟩ := by
  refine .bind .flush fun _ => .fairNode rfl <| .unrestricted <|
    .list Grammar.steady_parameterList <| .bind .flush fun _ => .bind .attributes fun _ =>
    .look (fun _ _ => rfl) fun s _ => ?_
  split
  · exact .child <| .bind .flush fun _ => .node rfl <|
      .bind (.ifAt (.bind .consume fun _ => .ifAt (.child .lifetime))) fun _ =>
      .bind .consumeIf fun _ => .expect rfl
  · split
    · exact .child (.node rfl .consume)
    · exact hp

theorem bareParameters :
    Orderly text g k f ⟨.empty, a, m, o, F⟩ g.bareParameters
      fun n => ⟨.node n, none, m, o, F⟩ :=
  .parametersOf .bareParameter

theorem parameters :
    Orderly text g k f ⟨.empty, a, m, o, F⟩ g.parameters fun n => ⟨.node n, none, m, o, F⟩ :=
  .parametersOf .namedParameter

/-- A result, which the arrow before it is taken for. -/
theorem returnTypeIf :
    Orderly text g k f ⟨.empty, a, m, o, .proper⟩ g.returnTypeIf fun _ => ⟨.empty, none, m, o, .proper⟩ :=
  .ifAt <| .perhaps <| .bind (.consumeAt nofun) fun _ => .field (.call (.inr (.inl rfl)) rfl)

end Orderly

end ConcreteSyntax
