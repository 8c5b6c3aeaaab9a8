import ConcreteSyntax.Grammar.Statement
import ConcreteSyntax.Proofs.Grammar.Item

/-! # Statements and blocks are orderly

A row of statements moves on with every member: a statement that takes nothing is followed by
recovery, which skips at least a token (`rowMember_lt`). -/

namespace ConcreteSyntax

open Parse

namespace Orderly

variable {text : List Char} {g : Grammar} {k : Nat} {f : Bool} {a : Option Kind} {m o : Bool} {F : Standing}

/-! ### Statements -/

theorem letDeclaration :
    Orderly text g k true ⟨.empty, a, m, o, F⟩ g.letDeclaration
      fun n => ⟨.node n, none, m, o, F⟩ :=
  .node rfl <| .bind .consume fun _ => .bind .consumeIf fun _ =>
    .bind (.field (.call (.inl rfl) rfl)) fun _ =>
    .bind (.ifAt <| .bind .consume fun _ => .field (.call (.inl rfl) rfl)) fun _ =>
    .bind (.ifAt <| .bind .consume fun _ => .field (.call (.inl rfl) rfl)) fun _ =>
    .bind (.ifAt <| .bind .consume fun _ => .field (.call (.inl rfl) rfl)) fun _ => .expect rfl

/-- What ends an expression as a statement. -/
theorem afterExpression {expression : Node} {isBlockLike : Bool} :
    Orderly text g k true ⟨.node expression, a, m, o, F⟩
      (do
        let current ← Parse.kind
        if current == .semicolon then
          Parse.child <| Parse.node .expressionStatement do
            Parse.push expression
            Parse.consume
        else if isBlockLike || Grammar.isBraceCall expression then
          Parse.child (Parse.node .expressionStatement (Parse.push expression))
        else if current == .closeBrace then Parse.push expression
        else
          Parse.child <| Parse.node .expressionStatement do
            Parse.push expression
            Parse.expect .semicolon)
      fun _ => ⟨.empty, none, m, o, F⟩ := by
  refine .kind fun c _ => ?_
  split
  · exact .child <| .node rfl <| .bind .push fun _ => .consume
  · split
    · exact .forget <| .child <| .node rfl .push
    · split
      · exact .forget .push
      · exact .child <| .node rfl <| .bind .push fun _ => .expect rfl

theorem expressionStatement :
    Orderly text g k true ⟨.empty, a, m, o, F⟩ g.expressionStatement
      fun _ => ⟨.empty, none, m, o, F⟩ :=
  .bind .statementExpression fun (_, _) => .afterExpression

theorem statement :
    Orderly text g k true ⟨.empty, a, m, o, F⟩ g.statement fun _ => ⟨.empty, none, m, o, F⟩ := by
  refine .bind .flush fun _ => .kind fun c _ => ?_
  split
  · exact .child (.node rfl .consume)
  · exact .child .letDeclaration
  · refine .bind (.beside aside_isAtItem) fun _ => ?_
    split
    · exact .bind .item fun _ => .pure (.refl _)
    · refine .bind (.beside aside_isAtExpression) fun _ => ?_
      split
      · exact .expressionStatement
      · exact .pure .forget

theorem itemStatement :
    Orderly text g k true ⟨.empty, a, m, o, F⟩ g.itemStatement
      fun _ => ⟨.empty, none, m, o, F⟩ := by
  refine .bind (.beside aside_isAtMacro) fun _ => .bind (.beside aside_isAtItem) fun _ => ?_
  split
  · exact .expressionStatement
  · refine .bind .item fun _ => ?_
    split
    · exact .pure (.refl _)
    · exact .recoverUntil

/-! ### Rows of statements -/

section Rows

variable {row : Grammar.Row}

theorem rowStatement :
    Orderly text g k true ⟨.empty, a, m, o, F⟩ (g.rowStatement row)
      fun _ => ⟨.empty, none, m, o, F⟩ := by
  unfold Grammar.rowStatement
  split
  · exact .itemStatement
  · exact .statement

theorem rowMember_unmoved :
    Orderly text g k true ⟨.empty, a, false, o, F⟩ (g.rowMember row)
      fun _ => ⟨.empty, none, false, o, F⟩ := by
  refine .bind (.beside aside_offset) fun _ => .bind .rowStatement fun _ => .look (fun _ _ => rfl) fun s _ => ?_
  split
  · exact .recoverUntil
  · exact .pure .forget

/-- A member of a row moves on. -/
theorem rowMember_lt (hg : g.Leads text) {σ : Setting} {s s' : Session} (hs : s.Sound text)
    (he : s.kind ≠ .endOfFile) (hb : s.kind ≠ .closeBrace)
    (hrun : g.rowMember row σ s = some ((), s')) : s.offset < s'.offset := by
  obtain ⟨_, _, h₁, hrun⟩ := bind_eq_some.1 hrun
  obtain ⟨rfl, rfl⟩ := Prod.mk.inj (Option.some.inj h₁)
  obtain ⟨_, t, hstatement, hrun⟩ := bind_eq_some.1 hrun
  have hread : Orderly text g 0 true ⟨.empty, none, false, false, .proper⟩ (g.rowStatement row)
      fun _ => ⟨.empty, none, false, false, .proper⟩ := .rowStatement
  have ht := (hread.arrives hg hs ⟨nofun, nofun⟩ hstatement).onward
  have hle := ht.le
  obtain ⟨_, _, h₁, hrun⟩ := bind_eq_some.1 hrun
  obtain ⟨rfl, rfl⟩ := Prod.mk.inj (Option.some.inj h₁)
  split at hrun
  · next hstays =>
    have heq : t.offset = s.offset := eq_of_beq (Bool.and_eq_true_iff.1 hstays).1
    have hskip : Orderly text g 0 true ⟨.empty, some t.kind, false, false, .proper⟩
        recoverStatement fun _ => ⟨.empty, none, true, false, .proper⟩ :=
      .recoverUntilAt (ht.kind_ne heq rfl he) (ht.kind_ne heq rfl hb)
    have hlt := ((hskip.arrives hg ht.sound ⟨fun _ => Option.some.inj, nofun⟩ hrun).moved
      rfl).resolve_left nofun
    omega
  · next hmoved =>
    obtain ⟨-, rfl⟩ := pure_eq_some.1 hrun
    refine Nat.lt_of_le_of_ne hle fun heq => hmoved ?_
    have hend := ht.kind_ne heq.symm rfl he
    simpa [Session.isAt, heq.symm] using hend

theorem rowMember {c : Kind} (he : c ≠ .endOfFile) (hb : c ≠ .closeBrace) :
    Orderly text g k true ⟨.empty, some c, false, o, F⟩ (g.rowMember row)
      fun _ => ⟨.empty, none, true, o, F⟩ :=
  .after (.moves (fun _ => true) .rowMember_unmoved fun hg hs hfit hrun _ => by
    obtain rfl := hfit.at? c rfl
    exact rowMember_lt hg hs he hb hrun) fun _ => .less (.inr rfl) (fun _ => rfl) id (.same _)

theorem rowTurn :
    Orderly text g k true ⟨.empty, none, false, o, F⟩ (g.rowTurn row)
      fun b => ⟨.empty, none, b, o, F⟩ := by
  refine .bind .flush fun _ => .kind fun c _ => ?_
  split
  · exact .pure .forget
  · refine .bind .absorbBrace fun absorbed => ?_
    cases absorbed
    · split
      · next h => exact nomatch h
      · split
        · exact .pure .forget
        · exact .forgive <| .bind (.report aside_reportUnexpected) fun _ =>
            .bind (.child (.errorNode (.consumeAt nofun))) fun _ => .pure (.refl _)
    · exact .pure (.refl _)
  · next he hb => exact .bind (.rowMember he hb) fun _ => .pure (.refl _)

theorem statements :
    Orderly text g k true ⟨.empty, a, m, o, F⟩ (g.statements row)
      fun _ => ⟨.empty, none, m, o, F⟩ :=
  .repeatWhile .rowTurn

/-! ### Between braces -/

theorem braced :
    Orderly text g k f ⟨.empty, a, m, o, F⟩ (g.braced row) fun _ => ⟨.empty, none, m, o, F⟩ :=
  .isAt
    (.perhaps <| .bind (.beside aside_tokenRange) fun _ => .bind (.consumeAt nofun) fun _ =>
      .past <| .bind .statements fun _ => .close)
    (.missingGroup rfl rfl)

end Rows

theorem blockBody :
    Orderly text g k f ⟨.empty, a, m, o, F⟩ g.blockBody fun _ => ⟨.empty, none, m, o, F⟩ :=
  .unrestricted .braced

theorem block :
    Orderly text g k f ⟨.empty, a, m, o, F⟩ g.block fun n => ⟨.node n, none, m, o, F⟩ :=
  .bind .flush fun _ => .deeper (.node rfl .blockBody)

theorem declarationList :
    Orderly text g k f ⟨.empty, a, m, o, F⟩ g.declarationList
      fun n => ⟨.node n, none, m, o, F⟩ :=
  .bind .flush fun _ => .node rfl .braced

end Orderly

end ConcreteSyntax
