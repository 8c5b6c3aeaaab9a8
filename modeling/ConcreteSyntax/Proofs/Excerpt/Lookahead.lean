import ConcreteSyntax.Proofs.Excerpt.Tracks
import ConcreteSyntax.Proofs.Termination

/-! # Looks ahead that agree

Where one token does not decide, the grammar looks at a few more. Each look passes only guides before
the token that it asks for, so two sessions that keep step find the same, as long as the one over the
text is fair. -/

namespace ConcreteSyntax

open Lexeme (contextual?)
open Text (byteLength)

/-! ### Kinds -/

/-- The kinds that are no guides. -/
theorem Kind.mem_of_not_isGuide {k : Kind} (h : k.isGuide = false) :
    k ∈ [Kind.semicolon, .closeBrace, .integerToken, .floatToken, .stringToken, .rawStringToken,
      .charToken, .endOfFile, .dot, .gt, .ampAmp, .shl, .pipePipe] := by
  unfold isGuide at h
  rcases Bool.and_eq_false_iff.1 h with h | h
  · rw [Bool.not_eq_false', Bool.or_eq_true] at h
    rcases h with h | h
    · rcases eq_of_isEnd h with rfl | rfl <;> decide
    · rcases eq_of_takesSuffix h with rfl | rfl | rfl | rfl | rfl <;> decide
  · split at h <;> first | decide | exact nomatch h

theorem Kind.isGuide_of_startsSegment {k : Kind} (h : k.startsSegment = true) : k.isGuide = true := by
  unfold startsSegment at h
  split at h <;> first | rfl | cases h

/-! ### Scanners -/

/-- Both scanners are at the call of a macro or neither is, within so many segments. -/
theorem Scanner.Abreast.isAtMacro {E : Excerpt} (n : Nat) : ∀ {s s' : Scanner}, s.Abreast E s' →
    s'.isAtMacro n = s.isAtMacro n := by
  induction n with
  | zero => exact fun _ => rfl
  | succ n ih =>
    intro s s' h
    unfold Scanner.isAtMacro
    dsimp only
    obtain ⟨u, u', hu, hu', hface⟩ : ∃ u u', u = (if (s.kind == .colonColon) = true then
        s.scan contextual? .usual else s) ∧ u' = (if (s'.kind == .colonColon) = true then
        s'.scan contextual? .usual else s') ∧ u.Abreast E u' := by
      refine ⟨_, _, rfl, rfl, ?_⟩
      rw [h.placed.kind]
      split
      · next hk => exact h.next (by rw [eq_of_beq hk]; rfl)
      · exact h
    rw [← hu, ← hu', hface.placed.kind]
    split
    · next hk =>
      have hnext := hface.next (Kind.isGuide_of_startsSegment hk)
      rw [hnext.placed.kind]
      split
      · next hbang => rw [(hnext.next (by rw [hbang]; rfl)).placed.kind]
      · exact ih hnext
      · rfl
    · rfl

theorem Kind.beq_congr {a b k : Kind} (h : a = k ↔ b = k) : (a == k) = (b == k) := by
  rw [Bool.eq_iff_iff, beq_iff_eq, beq_iff_eq, h]

/-- Whether a `self` stands at a token, or a `mut` before a `self`. -/
def Scanner.isAtSelf (u : Scanner) : Bool :=
  match u.kind with
  | .selfKw => true
  | .mutKw => (u.scan contextual? .usual).kind == .selfKw
  | _ => false

theorem Scanner.isAtSelf_congr {u u' : Scanner} (hself : u'.kind = .selfKw ↔ u.kind = .selfKw)
    (hmut : u'.kind = .mutKw ↔ u.kind = .mutKw)
    (hnext : u.kind = .mutKw →
      (u'.scan contextual? .usual).kind = (u.scan contextual? .usual).kind) :
    u'.isAtSelf = u.isAtSelf := by
  by_cases hs : u.kind = .selfKw
  · simp only [isAtSelf, hs, hself.2 hs]
  · by_cases hm : u.kind = .mutKw
    · simp only [isAtSelf, hm, hmut.2 hm, hnext hm]
    · have hnone {u : Scanner} (hs : u.kind ≠ .selfKw) (hm : u.kind ≠ .mutKw) :
          u.isAtSelf = false := by
        unfold isAtSelf
        split
        · next h => exact absurd h hs
        · next h => exact absurd h hm
        · rfl
      rw [hnone hs hm, hnone (mt hself.1 hs) (mt hmut.1 hm)]

/-! ### Sessions -/

namespace Session.Alike

variable {E : Excerpt} {pre : List Child} {s s' : Session}

/-- The token behind a guide. -/
theorem ahead_one (h : s.Alike E pre s') (hf : s.Fair E) (hk : s.kind.isGuide = true) :
    s'.ahead 1 = s.ahead 1 :=
  ((h.abreast hf).next hk).placed.kind

/-- The token behind two guides. -/
theorem ahead_two (h : s.Alike E pre s') (hf : s.Fair E) (hk : s.kind.isGuide = true)
    (hk' : (s.ahead 1).isGuide = true) : s'.ahead 2 = s.ahead 2 :=
  (((h.abreast hf).next hk).next hk').placed.kind

/-- Either the current token is a guide, and the same token stands behind it, or it is none. -/
theorem by_guide {p : Prop} (h : s.Alike E pre s') (hf : s.Fair E)
    (hguide : s'.ahead 1 = s.ahead 1 → p)
    (hother : ∀ k, s.kind = k → k ∈ [Kind.semicolon, .closeBrace, .integerToken, .floatToken,
      .stringToken, .rawStringToken, .charToken, .endOfFile, .dot, .gt, .ampAmp, .shl,
      .pipePipe] → p) : p := by
  cases hk : s.kind.isGuide with
  | true => exact hguide (h.ahead_one hf hk)
  | false => exact hother _ rfl (Kind.mem_of_not_isGuide hk)

theorem isAtSegment (h : s.Alike E pre s') (hf : s.Fair E) :
    (s'.isAt .colonColon && s'.nextIsSegment) = (s.isAt .colonColon && s.nextIsSegment) := by
  unfold Session.nextIsSegment
  rw [h.isAt]
  cases hk : s.isAt .colonColon with
  | true => rw [h.ahead_one hf (by rw [show s.kind = _ from eq_of_beq hk]; rfl)]
  | false => rfl

theorem isAtArguments (h : s.Alike E pre s') (hf : s.Fair E) :
    (s'.isAt .colonColon && s'.nextIsAngle) = (s.isAt .colonColon && s.nextIsAngle) := by
  unfold Session.nextIsAngle
  rw [h.isAt]
  cases hk : s.isAt .colonColon with
  | true => rw [h.ahead_one hf (by rw [show s.kind = _ from eq_of_beq hk]; rfl)]
  | false => rfl

theorem isAtCall (h : s.Alike E pre s') (hf : s.Fair E) : s'.isAtCall = s.isAtCall := by
  unfold Session.isAtCall
  rw [h.isAt]
  cases hk : s.isAt .bang with
  | true => rw [h.ahead_one hf (by rw [show s.kind = _ from eq_of_beq hk]; rfl)]
  | false => rfl

theorem isAtAsyncClosure (h : s.Alike E pre s') (hf : s.Fair E) (hk : s.kind = .asyncKw) :
    s'.isAtAsyncClosure = s.isAtAsyncClosure := by
  have hguide : s.kind.isGuide = true := by rw [hk]; rfl
  unfold Session.isAtAsyncClosure
  simp only [h.ahead_one hf hguide]
  split
  · rfl
  · rfl
  · next hmove => rw [h.ahead_two hf hguide (by rw [hmove]; rfl)]
  · rfl

theorem isAtBlockLike (h : s.Alike E pre s') (hf : s.Fair E) :
    s'.isAtBlockLike = s.isAtBlockLike := by
  unfold Session.isAtBlockLike
  rw [h.kind]
  split
  case h_7 hk =>
    -- a name stands behind the quote, or a literal
    have hface := h.abreast hf
    obtain ⟨hnext, hguide | hliteral⟩ := hface.behind_quote hk
    · exact congrArg (· == Kind.colon) (hnext.next hguide).placed.kind
    · exact Kind.beq_congr (hnext.behind_literal hliteral (.inl rfl))
  case h_8 hk => rw [h.ahead_one hf (by rw [hk]; rfl)]
  case h_9 hk => rw [h.ahead_one hf (by rw [hk]; rfl)]
  case h_10 hk =>
    have hguide : s.kind.isGuide = true := by rw [hk]; rfl
    rw [h.ahead_one hf hguide]
    split
    · rfl
    · next hmove => rw [h.ahead_two hf hguide (by rw [hmove]; rfl)]
    · rfl
  all_goals rfl

theorem isAtReceiver (h : s.Alike E pre s') (hf : s.Fair E) :
    s'.isAtReceiver = s.isAtReceiver := by
  unfold Session.isAtReceiver
  rw [h.kind]
  split
  case h_1 hk => rw [h.ahead_one hf (by rw [hk]; rfl)]
  case h_2 hk =>
    have hguide : s.kind.isGuide = true := by rw [hk]; rfl
    rw [h.ahead_one hf hguide]
    cases hself : s.ahead 1 == .selfKw with
    | true => rw [h.ahead_two hf hguide (by rw [eq_of_beq hself]; rfl)]
    | false => rfl
  case h_3 hk =>
    have hguide : s.kind.isGuide = true := by rw [hk]; rfl
    rw [h.ahead_one hf hguide]
    split
    · rfl
    · next hmut => rw [h.ahead_two hf hguide (by rw [hmut]; rfl)]
    · next hquote =>
      have hface := (h.abreast hf).next hguide
      obtain ⟨hnext, hguide | hliteral⟩ := hface.behind_quote hquote
      · have hthird : (s.scannerAhead 3).Abreast E (s'.scannerAhead 3) := hnext.next hguide
        have hkind (k : Kind) : (s'.scannerAhead 3).kind = k ↔ (s.scannerAhead 3).kind = k := by
          rw [hthird.placed.kind]
        exact Scanner.isAtSelf_congr (hkind _) (hkind _) fun hmut =>
          (hthird.next (by rw [hmut]; rfl)).placed.kind
      · exact Scanner.isAtSelf_congr (hnext.behind_literal hliteral (.inr (.inr (.inl rfl))))
          (hnext.behind_literal hliteral (.inr (.inr (.inr rfl))))
          fun hmut => (hnext.behind_mut hliteral hmut).placed.kind
    · rfl
  all_goals rfl

/-- A look for a block of foreign items behind a token. -/
theorem foreignAhead {n : Nat} (h : (s.scannerAhead n).Abreast E (s'.scannerAhead n)) :
    s'.foreignAhead n = s.foreignAhead n := by
  have hahead (s : Session) : s.ahead (n + 1) = ((s.scannerAhead n).scan contextual? .usual).kind := by
    have hsucc (n : Nat) : ∀ s : Scanner, s.ahead contextual? .usual (n + 1) =
        (s.ahead contextual? .usual n).scan contextual? .usual := by
      induction n with
      | zero => exact fun _ => rfl
      | succ n ih => exact fun s => ih (s.scan contextual? .usual)
    exact congrArg Scanner.kind (hsucc n s.scanner)
  unfold Session.foreignAhead
  rw [show s'.ahead n = s.ahead n from h.placed.kind, hahead, hahead]
  split
  · rfl
  · next hk =>
    exact Kind.beq_congr
      (h.behind_literal (by rw [show Scanner.kind _ = _ from hk]; rfl) (.inr (.inl rfl)))
  · next hk =>
    exact Kind.beq_congr
      (h.behind_literal (by rw [show Scanner.kind _ = _ from hk]; rfl) (.inr (.inl rfl)))
  · rfl

/-- The token behind a dot, if the grammar waits for `await`. -/
theorem awaits (h : s.Alike E pre s') (hf : s.Fair E) (hk : s.kind = .dot) :
    (s'.ahead 1 == .awaitKw) = (s.ahead 1 == .awaitKw) := by
  rcases (h.abreast hf).behind_dot hk with hface | ⟨hbase, hwhole⟩
  · exact congrArg (· == Kind.awaitKw) hface.placed.kind
  · have hother {k : Kind} (h : k.takesSuffix = true) : (k == .awaitKw) = false := by
      rcases Kind.eq_of_takesSuffix h with rfl | rfl | rfl | rfl | rfl <;> rfl
    exact (hother hwhole).trans (hother hbase).symm

/-- A colon behind a name or a number. -/
theorem named_colon (h : s.Alike E pre s') (hf : s.Fair E)
    (hk : s.isAtAny [.identifier, .integerToken] = true) :
    (s'.ahead 1 == .colon) = (s.ahead 1 == .colon) := by
  have hkind : s.kind = .identifier ∨ s.kind = .integerToken := by
    simpa [Session.isAtAny] using hk
  rcases hkind with hk | hk
  · rw [h.ahead_one hf (by rw [hk]; rfl)]
  · exact Kind.beq_congr ((h.abreast hf).behind_literal
      (by rw [show s.scanner.kind = .integerToken from hk]; rfl) (.inl rfl))

/-- Whether the call of a macro begins here does not depend on the number of turns. -/
theorem isAtMacro {σ σ' : Setting} (h : s.Alike E pre s') (hσ : σ.Within E σ') (hf : s.Fair E) :
    (s'.kind.startsPath && s'.scanner.isAtMacro σ'.turns) =
      (s.kind.startsPath && s.scanner.isAtMacro σ.turns) := by
  have hturns : byteLength E.text - s.scanner.start.offset < σ.turns := by
    unfold Setting.turns
    rw [← Text.byteLength_toList, hσ.source]
    omega
  rw [h.kind, (h.abreast hf).isAtMacro, Scanner.isAtMacro_eq _ h.sound.scanner hturns hσ.turns_le]

end Session.Alike

/-! ### Programs that look -/

namespace Parse.Follows

variable {E : Excerpt} {pre : List Child} {a : Option Kind}

/-- The token behind a guide. -/
theorem ahead_one {c : Kind} (hc : c.isGuide = true) :
    Tracks E pre (some c) id (Parse.ahead 1) (Parse.ahead 1) :=
  find (fun _ _ => rfl) (fun _ _ => rfl) fun _ hk hf halike =>
    halike.ahead_one hf (by rwa [hk c rfl])

theorem textAhead_one {c : Kind} (hc : c.isGuide = true) :
    Tracks E pre (some c) id (Parse.textAhead 1) (Parse.textAhead 1) :=
  find (f := fun σ s => (s.scannerAhead 1).tokenText σ.source) (fun _ _ => rfl) (fun _ _ => rfl)
    fun hσ hk hf halike => by
      have hface := (halike.abreast hf).next (by rw [show Scanner.kind _ = _ from hk c rfl]; exact hc)
      exact hface.placed.tokenText hface.sound hσ

theorem isAtMacro : Tracks E pre a id Parse.isAtMacro Parse.isAtMacro :=
  find (f := fun σ s => s.kind.startsPath && s.scanner.isAtMacro σ.turns) (fun _ _ => rfl)
    (fun _ _ => rfl) fun hσ _ hf halike => halike.isAtMacro hσ hf

theorem isAtExpression : Tracks E pre a id Parse.isAtExpression Parse.isAtExpression :=
  .kind fun _ _ => .bind .restriction fun _ => .pure _

theorem isAtItem : Tracks E pre a id Parse.isAtItem Parse.isAtItem := by
  refine lookAt (fun s _ => ?_) fun {s s'} _ hf halike => ?_
  · split
    all_goals first | exact .pure _ | exact .bind .tokenText fun _ => .pure _
  · simp only [halike.kind]
    refine halike.by_guide hf (fun hahead => ?_) fun k hk hother => ?_
    · simp only [hahead]
    · simp only [List.mem_cons, List.not_mem_nil, or_false] at hother
      rcases hother with rfl | rfl | rfl | rfl | rfl | rfl | rfl | rfl | rfl | rfl | rfl | rfl | rfl
        <;> rw [hk]

end Parse.Follows

end ConcreteSyntax
