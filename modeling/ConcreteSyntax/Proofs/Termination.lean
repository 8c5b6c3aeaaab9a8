import ConcreteSyntax.Proofs.Reading.Answer
import ConcreteSyntax.Proofs.Reading.Run

/-! # Every reading comes to an end

The grammar has an outcome at every token, whatever nonterminal is asked for there, with as many
calls inside one another as the rest of the text allows (`Grammar.answers_upTo`). So a whole reading
has one, and it never goes round in a circle: no turn of a loop that is not the last stays at its
token, and no nonterminal is called again at the token where it is open (`Tree.parse_ends`). -/

namespace ConcreteSyntax

open Parse
open Text (byteLength)

/-! ### All depths -/

/-- A nonterminal that is not open at its token can be opened there. -/
theorem Parse.Answers.opening {nonterminal : Nonterminal} {body : Parse Node} {σ : Setting}
    {s : Session} (h : Answers (s.offset + 1) nonterminal.rank body σ s) :
    ∃ n s', ∀ watches opened, (watches = true → ∀ p ∈ opened,
        p.2 < s.offset ∨ p.2 = s.offset ∧ nonterminal.rank < p.1.rank) →
      opening nonterminal body (σ.watching watches opened) s = some (n, s') := by
  obtain ⟨n, s', h⟩ := h
  refine ⟨n, s', fun watches opened hopen => bind_eq_some.2 ⟨_, s, rfl, ?_⟩⟩
  cases watches with
  | false => exact h false opened nofun
  | true =>
    refine bind_eq_some.2 ⟨s, s, rfl, ?_⟩
    have hnew : ¬ opened.contains (nonterminal, s.offset) = true := by
      intro hmem
      rcases hopen rfl _ (List.contains_iff_mem.1 hmem) with h | ⟨-, h⟩
      · exact Nat.lt_irrefl _ h
      · exact Nat.lt_irrefl _ h
    have hclear : Clear (s.offset + 1) nonterminal.rank ((nonterminal, s.offset) :: opened) := by
      refine List.forall_mem_cons.2 ⟨.inr ⟨rfl, Nat.le_refl _⟩, fun p hp => ?_⟩
      have := hopen rfl p hp
      omega
    show (if opened.contains (nonterminal, s.offset) = true then _ else _ : Parse Node) _ s = _
    rw [if_neg hnew]
    exact h true _ fun _ => hclear

/-- The grammar has an outcome wherever the depth allows the calls. -/
theorem Grammar.answers_upTo (text : List Char) (depth : Nat) :
    (Grammar.upTo depth).Answers text depth := by
  induction depth with
  | zero => exact fun _ _ _ h => absurd h (Nat.not_lt_zero _)
  | succ depth ih =>
    intro nonterminal σ s hσ hsound hn hd
    have hd : callsFrom text (s.offset + 1) nonterminal.rank ≤ depth := Nat.le_of_lt_succ hd
    have hlate : false = true ∨ false = true → s.offset + 1 ≤ s.offset :=
      fun h => by simp at h
    refine Parse.Answers.opening ?_
    rcases hn with hn | hn
    · have hread : Orderly text (Grammar.upTo depth) nonterminal.rank false
          ⟨.empty, none, false, false, .proper⟩ ((Grammar.upTo depth).production nonterminal)
          fun n => ⟨.node n, none, false, false, .proper⟩ := .production (.inr hn)
      exact hread.answers (Grammar.leads_upTo text depth) ih hσ hsound ⟨nofun, nofun⟩ hd (Nat.le_refl _) hlate
    · have hread : Orderly text (Grammar.upTo depth) nonterminal.rank false
          ⟨.empty, some s.kind, false, false, .proper⟩ ((Grammar.upTo depth).production nonterminal)
          fun n => ⟨.node n, none, true, false, .proper⟩ := .productionAt hn
      exact hread.answers (Grammar.leads_upTo text depth) ih hσ hsound
        ⟨fun _ => Option.some.inj, nofun⟩ hd (Nat.le_refl _) hlate

/-! ### Looking ahead -/

/-- Looking for a macro never runs out of segments: with more than there are bytes left, the number
does not matter. -/
theorem Scanner.isAtMacro_eq {text : List Char} (n : Nat) : ∀ {s : Scanner} {m : Nat},
    s.Sound text → byteLength text - s.start.offset < n → n ≤ m →
      s.isAtMacro m = s.isAtMacro n := by
  induction n with
  | zero => exact fun _ h => absurd h (Nat.not_lt_zero _)
  | succ n ih =>
    intro s m hs hn hm
    obtain ⟨m, rfl⟩ : ∃ m', m = m' + 1 := ⟨m - 1, by omega⟩
    have hnext {s : Scanner} (hs : s.Sound text) :
        (s.scan Lexeme.contextual? .usual).Sound text ∧
          s.here.offset ≤ (s.scan Lexeme.contextual? .usual).start.offset := by
      obtain ⟨hsound, hlead⟩ := Scanner.scan_sound readsLiterals_usual hs.here
      exact ⟨hsound, hlead.le⟩
    unfold isAtMacro
    dsimp only
    -- a leading `::` is skipped
    generalize hfrom : (if (s.kind == .colonColon) = true then
      s.scan Lexeme.contextual? .usual else s) = from'
    have hfrom : from'.Sound text ∧ s.start.offset ≤ from'.start.offset := by
      rw [← hfrom]
      split
      · obtain ⟨hsound, hle⟩ := hnext hs
        exact ⟨hsound, Nat.le_trans hs.le hle⟩
      · exact ⟨hs, Nat.le_refl _⟩
    split
    · next hseg =>
      split
      · rfl
      · obtain ⟨hsound, hle⟩ := hnext hfrom.1
        have hlt : from'.start.offset < from'.here.offset :=
          hfrom.1.lt fun hend => by simp [hend, Kind.startsSegment] at hseg
        have hend := hsound.start.2.offset_le
        exact ih hsound (by omega) (by omega)
      · rfl
    · rfl

/-! ### Whole readings -/

/-- **Every reading comes to an end**, with the same session if it watches for circles, and a tree is
what that session has built. -/
theorem Tree.parse_ends (file source : String) (options : Options) :
    ∃ s : Session, (∀ watches, ({ file, source, options, watches } : Setting).run? = some s) ∧
      parse file source options = s.tree { file, source, options } := by
  let σ : Setting := { file, source, options }
  have hsource : σ.source = source := rfl
  have hread : Orderly source.toList (Grammar.upTo σ.nesting) 0 true
      ⟨.empty, none, false, false, .proper⟩ (Grammar.upTo σ.nesting).sourceFile
      fun _ => ⟨.empty, none, false, false, .proper⟩ := .sourceFile
  have hd : callsFrom source.toList 0 0 ≤ σ.nesting := by
    have hlen := Text.byteLength_toList source
    unfold callsFrom Setting.nesting
    rw [hsource]
    omega
  obtain ⟨_, s, hrun⟩ := hread.answers (Grammar.leads_upTo _ _) (Grammar.answers_upTo _ _) (σ := σ)
    rfl (Session.sound_start source) ⟨nofun, nofun⟩ hd (Nat.zero_le _) fun _ => Nat.zero_le _
  have hrun (watches : Bool) : ({ file, source, options, watches } : Setting).run? = some s :=
    congrArg (Option.map (·.2)) (hrun watches [] fun _ => nofun)
  refine ⟨s, hrun, ?_⟩
  show ((σ.run?.getD (.start source)).tree σ) = s.tree σ
  rw [show σ.run? = some s from hrun false]
  rfl

end ConcreteSyntax
