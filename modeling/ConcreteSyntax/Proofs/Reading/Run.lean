import ConcreteSyntax.Proofs.Grammar.Production
import ConcreteSyntax.Proofs.Reading.Invariant

/-! # Whole readings

An invariant that holds of the session at the start of a text holds of the session at its end
(`Setting.run_keeps`), where every token was taken (`Setting.run_atEnd`). -/

namespace ConcreteSyntax

open Parse
open Text (Place)

theorem Session.sound_start (source : String) : (Session.start source).Sound source.toList := by
  obtain ⟨hs, hl⟩ := Scanner.scan_sound readsLiterals_usual
    (show (Scanner.ofText source).here.In source.toList from ⟨rfl, Place.start _⟩)
  exact ⟨hs, hl⟩

/-- The grammar keeps every invariant, to whatever depth. -/
theorem Grammar.keeps_upTo {text : List Char} {options : Options} {β : Type}
    (I : Invariant text options β) (depth : Nat) : (Grammar.upTo depth).Keeps I := by
  induction depth with
  | zero => exact fun _ _ _ h => nomatch h
  | succ depth ih =>
    intro nonterminal σ s s' n b F hσ hs hI hrun
    obtain ⟨opened, hrun⟩ := opening_eq_some hrun
    have hσ' : (σ.watching σ.watches opened).Reads text options := ⟨hσ.source, hσ.options⟩
    have hread : Orderly text (Grammar.upTo depth) nonterminal.rank true
        ⟨.empty, none, false, false, F⟩ ((Grammar.upTo depth).production nonterminal)
        fun n => ⟨.node n, none, false, false, F⟩ := .production (.inl rfl)
    exact hread.keeps (Grammar.leads_upTo text depth) ih hσ' hs ⟨nofun, nofun⟩ hrun hI

namespace Setting

variable {σ : Setting} {s : Session}

/-- What a whole reading does, seen as the run of a program. -/
theorem run_eq_some (h : σ.run? = some s) :
    (Grammar.upTo σ.nesting).sourceFile σ (.start σ.source) = some ((), s) := by
  obtain ⟨⟨_, _⟩, hrun, rfl⟩ := Option.map_eq_some_iff.1 h
  exact hrun

theorem run_onward (h : σ.run? = some s) :
    (Session.start σ.source).Onward σ.source.toList s := by
  have hread : Orderly σ.source.toList (Grammar.upTo σ.nesting) 0 true
      ⟨.empty, none, false, false, .proper⟩ (Grammar.upTo σ.nesting).sourceFile
      fun _ => ⟨.empty, none, false, false, .proper⟩ := .sourceFile
  exact (hread.arrives (Grammar.leads_upTo _ _) (Session.sound_start _) ⟨nofun, nofun⟩ (run_eq_some h)).onward

/-- **A whole reading keeps every invariant.** -/
theorem run_keeps {β : Type} (I : Invariant σ.source.toList σ.options β) {b : β}
    (hstart : I.holds b .empty .proper (.start σ.source)) (h : σ.run? = some s) :
    I.holds b .empty .proper s := by
  have hread : Orderly σ.source.toList (Grammar.upTo σ.nesting) 0 true
      ⟨.empty, none, false, false, .proper⟩ (Grammar.upTo σ.nesting).sourceFile
      fun _ => ⟨.empty, none, false, false, .proper⟩ := .sourceFile
  exact hread.keeps (Grammar.leads_upTo _ _) (Grammar.keeps_upTo I _) ⟨rfl, rfl⟩ (Session.sound_start _)
    ⟨nofun, nofun⟩ (run_eq_some h) hstart

end Setting

/-! ### The end of the text -/

/-- A loop ends with a turn that was the last. -/
theorem Parse.iterate_last {α ρ : Type} {turn : α → Parse (Step α ρ)} {σ : Setting} {r : ρ}
    {s' : Session} (n : Nat) : ∀ {x s}, iterate turn n x σ s = some (r, s') →
      ∃ y t, turn y σ t = some (.done r, s') := by
  induction n with
  | zero => exact fun h => nomatch h
  | succ n ih =>
    intro x s h
    rcases iterate_succ h with h | ⟨y, t, -, h⟩
    · exact ⟨x, s, h⟩
    · exact ih h

theorem Parse.repeatWhile_last {turn : Parse Bool} {σ : Setting} {s s' : Session}
    (h : repeatWhile turn σ s = some ((), s')) : ∃ t, turn σ t = some (false, s') := by
  obtain ⟨_, t, h⟩ := iterate_last _ h
  obtain ⟨b, u, hturn, h⟩ := bind_eq_some.1 h
  obtain ⟨hb, rfl⟩ := pure_eq_some.1 h
  cases b with
  | false => exact ⟨t, hturn⟩
  | true => exact nomatch hb

/-- The last turn over the members of a text finds its end. -/
theorem Grammar.rowTurn_last {g : Grammar} {itemsOnly : Bool} {σ : Setting} {s t : Session}
    (h : g.rowTurn { inBraces := false, itemsOnly } σ s = some (false, t)) :
    s.kind = .endOfFile ∧ t = s.flushed σ := by
  obtain ⟨_, u, hflush, h⟩ := bind_eq_some.1 h
  obtain ⟨-, rfl⟩ := Prod.mk.inj (Option.some.inj ((flush_run σ s).symm.trans hflush))
  obtain ⟨c, _, h₁, h⟩ := bind_eq_some.1 h
  obtain ⟨hc, rfl⟩ := Prod.mk.inj (Option.some.inj h₁)
  split at h
  · obtain ⟨-, rfl⟩ := pure_eq_some.1 h
    exact ⟨hc, rfl⟩
  · obtain ⟨absorbed, _, -, h⟩ := bind_eq_some.1 h
    cases absorbed with
    | true => exact nomatch (pure_eq_some.1 h).1
    | false =>
      obtain ⟨_, _, -, h⟩ := bind_eq_some.1 h
      obtain ⟨_, _, -, h⟩ := bind_eq_some.1 h
      exact nomatch (pure_eq_some.1 h).1
  · obtain ⟨_, _, -, h⟩ := bind_eq_some.1 h
    exact nomatch (pure_eq_some.1 h).1

/-- A row of statements that no `}` ends reaches to the end of the text. -/
theorem Grammar.statements_atEnd {g : Grammar} {itemsOnly : Bool} {σ : Setting} {s s' : Session}
    (h : g.statements { inBraces := false, itemsOnly } σ s = some ((), s')) :
    s'.kind = .endOfFile := by
  obtain ⟨t, h⟩ := repeatWhile_last h
  obtain ⟨hend, rfl⟩ := rowTurn_last h
  exact hend

/-- At the end of a reading every token and every comment was taken. -/
theorem Setting.run_atEnd {σ : Setting} {s : Session} (h : σ.run? = some s) :
    s.kind = .endOfFile ∧ s.scanner.leading = [] := by
  obtain ⟨_, _, -, h⟩ := bind_eq_some.1 (run_eq_some h)
  obtain ⟨_, t, hrow, h⟩ := bind_eq_some.1 h
  obtain ⟨-, rfl⟩ := Prod.mk.inj (Option.some.inj ((flush_run σ t).symm.trans h))
  have hend : t.kind = .endOfFile := Grammar.statements_atEnd hrow
  exact ⟨hend, rfl⟩

end ConcreteSyntax
