import ConcreteSyntax.Parse
import ConcreteSyntax.Proofs.Grammar.Expression

/-! # The grammar is orderly

Every production is orderly at the rank of its nonterminal, so every grammar that `Grammar.upTo`
ties reads onward, by induction on its depth. -/

namespace ConcreteSyntax

open Parse

namespace Orderly

variable {text : List Char} {g : Grammar} {a : Option Kind} {m o : Bool} {F : Standing}

/-! ### Productions -/

/-- Every nonterminal. One that needs its token may be called where another token was taken. -/
theorem production {f : Bool} {nonterminal : Nonterminal}
    (hn : f = true ∨ nonterminal.needsToken = false) :
    Orderly text g nonterminal.rank f ⟨.empty, a, m, o, F⟩ (g.production nonterminal)
      fun n => ⟨.node n, none, m, o, F⟩ := by
  cases nonterminal with
  | type => exact .type
  | innerReferenceType => exact .deeper (.referenceType (.inr (by decide)))
  | pattern => exact .pattern (.inr (by decide))
  | singlePattern => exact .singlePattern
  | innerReferencePattern => exact .deeper (.referencePattern (.inr (by decide)))
  | expression min => exact .expressionFrom (.inr Nat.one_pos)
  | operand => exact .operand (.inr (by decide))
  | innerReference => exact .deeper (.reference (.inr (by decide)))
  | blockLike => exact .deeper (.primary (.inr (by decide)))
  | block => exact .block
  | elseIf => exact .bind .flush fun _ => .deeper (.ifExpression (.inr (by decide)))
  | tokenTree form => exact .tokenTree
  | repetition form =>
    obtain rfl := hn.resolve_right nofun
    exact .repetition
  | useClause => exact .useClause
  | declarationList => exact .declarationList

/-- Every nonterminal that is sure to take its token. -/
theorem productionAt {f : Bool} {nonterminal : Nonterminal} {c : Kind}
    (hc : nonterminal.takes c = true) :
    Orderly text g nonterminal.rank f ⟨.empty, some c, m, o, F⟩ (g.production nonterminal)
      fun n => ⟨.node n, none, true, o, F⟩ := by
  cases nonterminal with
  | tokenTree form => exact .tokenTreeAt hc
  | repetition form => exact .repetitionAt (by simpa [Nonterminal.takes] using hc)
  | _ => exact nomatch hc

/-- A whole text. -/
theorem sourceFile {k : Nat} :
    Orderly text g k true ⟨.empty, a, m, o, F⟩ g.sourceFile fun _ => ⟨.empty, none, m, o, F⟩ :=
  .bind .consumeIf fun _ => .bind .statements fun _ => .flush

end Orderly

/-! ### All depths -/

/-- What is read by a nonterminal that was opened is read by its body. -/
theorem Parse.opening_eq_some {α : Type} {nonterminal : Nonterminal} {body : Parse α} {σ : Setting}
    {s s' : Session} {r : α} (h : opening nonterminal body σ s = some (r, s')) :
    ∃ opened, body (σ.watching σ.watches opened) s = some (r, s') := by
  obtain ⟨_, _, h₁, h⟩ := bind_eq_some.1 h
  obtain ⟨rfl, rfl⟩ := Prod.mk.inj (Option.some.inj h₁)
  split at h
  · obtain ⟨_, _, h₁, h⟩ := bind_eq_some.1 h
    obtain ⟨rfl, rfl⟩ := Prod.mk.inj (Option.some.inj h₁)
    split at h
    · exact nomatch h
    · exact ⟨_, h⟩
  · exact ⟨_, h⟩

/-- The grammar reads onward, to whatever depth. -/
theorem Grammar.leads_upTo (text : List Char) (depth : Nat) : (Grammar.upTo depth).Leads text := by
  induction depth with
  | zero => exact fun _ h => nomatch h
  | succ depth ih =>
    intro nonterminal σ s s' n hs hrun
    obtain ⟨opened, hrun⟩ := opening_eq_some hrun
    have hread : Orderly text (Grammar.upTo depth) nonterminal.rank true
        ⟨.empty, none, false, false, .proper⟩ ((Grammar.upTo depth).production nonterminal)
        fun n => ⟨.node n, none, false, false, .proper⟩ := .production (.inl rfl)
    refine ⟨(hread.arrives ih hs ⟨nofun, nofun⟩ hrun).onward, fun htakes => ?_⟩
    have htake : Orderly text (Grammar.upTo depth) nonterminal.rank true
        ⟨.empty, some s.kind, false, false, .proper⟩ ((Grammar.upTo depth).production nonterminal)
        fun n => ⟨.node n, none, true, false, .proper⟩ := .productionAt htakes
    exact ((htake.arrives ih hs ⟨fun _ => Option.some.inj, nofun⟩ hrun).moved rfl).resolve_left nofun

end ConcreteSyntax
