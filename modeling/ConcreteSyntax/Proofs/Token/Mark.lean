import ConcreteSyntax.Proofs.Token.Literal

/-! # What marks and words promise

Every lexeme that `Lexeme.next` reads at the front of a text fits it (`Lexeme.next_fits`), provided
that strings and numbers are admitted; elsewhere a quote or a digit would be an error without a
fault. -/

namespace ConcreteSyntax

/-- Strings and numbers are read as such. -/
def Admitted.ReadsLiterals (a : Admitted) : Prop := a.string = true ∧ a.integer = true

namespace Lexeme

/-! ### Context-sensitive lexemes -/

theorem onlyIf_eq_some {admitted : Bool} {l l' : Lexeme} (h : onlyIf admitted l = some l') :
    admitted = true ∧ l = l' := by
  unfold onlyIf at h
  split at h
  · next ha => exact ⟨ha, Option.some.inj h⟩
  · simp at h

/-- The identifier at the front of a text is what its first characters are. -/
theorem take_identifierPrefix [Text.Xid] (cs : List Char) :
    cs.take (Text.identifierPrefix cs).length = Text.identifierPrefix cs := by
  unfold Text.identifierPrefix
  split
  · rfl
  · next c cs =>
    split
    · rw [List.length_cons, List.take_succ_cons]
      exact congrArg _ (List.prefix_iff_eq_take.1 (List.takeWhile_prefix _)).symm
    · rfl

theorem length_identifierPrefix_le [Text.Xid] (cs : List Char) :
    (Text.identifierPrefix cs).length ≤ cs.length := by
  have := congrArg List.length (take_identifierPrefix cs)
  rw [List.length_take] at this
  omega

/-- What is recognised by its context fits. -/
theorem contextual_fits [Text.Xid] {admitted : Admitted} {cs : List Char} {l : Lexeme}
    (h : contextual? admitted cs = some l) : l.Fits cs := by
  unfold contextual? at h
  simp only at h
  have hle : (if admitted.literalSuffix then Text.identifierPrefix cs else []).length ≤
      cs.length := by
    split
    · exact length_identifierPrefix_le cs
    · simp
  generalize (if admitted.literalSuffix then Text.identifierPrefix cs else []) = suffix at h hle
  split at h
  · next hs =>
    obtain rfl := Option.some.inj h
    exact fits_plain (by decide) (List.length_pos_iff.2 (by simpa using hs)) hle nofun
  · split at h
    · obtain ⟨-, rfl⟩ := onlyIf_eq_some h
      exact line_fits _
    · obtain ⟨-, rfl⟩ := onlyIf_eq_some h
      exact block_fits _
    · exact quote_fits h
    · obtain ⟨-, rfl⟩ := onlyIf_eq_some h
      exact string_fits ['"'] rfl
    · split at h
      · exact rawString_fits ['r'] rfl h
      · simp at h
    · obtain ⟨-, rfl⟩ := onlyIf_eq_some h
      exact prefixed_fits ['b', '\''] rfl
    · obtain ⟨-, rfl⟩ := onlyIf_eq_some h
      exact string_fits ['b', '"'] rfl
    · obtain ⟨-, rfl⟩ := onlyIf_eq_some h
      exact string_fits ['c', '"'] rfl
    · split at h
      · exact rawString_fits ['b', 'r'] rfl h
      · simp at h
    · split at h
      · exact rawString_fits ['c', 'r'] rfl h
      · simp at h
    · split at h
      · next hd =>
        obtain ⟨-, rfl⟩ := onlyIf_eq_some h
        exact number_fits hd
      · simp at h
    · simp at h

/-! ### Marks and words -/

/-- A mark of the table is plain and stands there as it is written. -/
theorem mem_marks {p : List Char × Kind} (h : p ∈ marks) :
    IsPlain p.2 ∧ p.1 ≠ [] ∧ p.2.written?.map String.toList = some p.1 := by
  have h' : ∀ p ∈ marks, IsPlain p.2 ∧ p.1 ≠ [] ∧ p.2.written?.map String.toList = some p.1 := by
    decide +kernel
  exact h' p h

/-- No mark is read before a character that none of them begins with. -/
theorem mark?_eq_none_of_head {c : Char} (h : ∀ m ∈ marks, m.1.head? ≠ some c) (cs : List Char) :
    mark? (c :: cs) = none := by
  refine Option.map_eq_none_iff.2 (List.find?_eq_none.2 fun m hm hp => ?_)
  obtain ⟨-, hne, -⟩ := mem_marks hm
  obtain ⟨d, ds, hd⟩ := List.exists_cons_of_ne_nil hne
  rw [hd, List.isPrefixOf_cons_cons, Bool.and_eq_true, beq_iff_eq] at hp
  exact h m hm (by rw [hd, hp.1]; rfl)

theorem mark_fits {cs : List Char} {l : Lexeme} (h : mark? cs = some l) : l.Fits cs := by
  unfold mark? at h
  obtain ⟨⟨text, kind⟩, hf, rfl⟩ := Option.map_eq_some_iff.1 h
  obtain ⟨hk, hne, ht⟩ := mem_marks (List.mem_of_find?_eq_some hf)
  have hp : text <+: cs := by
    have := List.find?_some hf
    exact List.isPrefixOf_iff_prefix.1 this
  refine @fits_plain _ kind text.length hk (List.length_pos_iff.2 hne) hp.length_le fun written hw => ?_
  rw [hw] at ht
  obtain rfl := Option.some.inj ht
  exact (List.prefix_iff_eq_take.1 hp).symm

/-- The kinds of words: a kind with a text of its own has this one. -/
theorem wordKind_plain (word : List Char) :
    IsPlain (wordKind word) ∧
      ∀ text, (wordKind word).written? = some text → word = text.toList := by
  unfold wordKind
  split
  · next h =>
    refine ⟨by decide, fun text ht => ?_⟩
    obtain rfl := Option.some.inj ht
    exact h
  · cases h : Kind.ofReserved? (String.ofList word) with
    | none => exact ⟨by decide, nofun⟩
    | some kind =>
      have hall : ∀ kind ∈ Kind.reservedWords, IsPlain kind ∧ kind.written? = kind.wordText := by
        decide +kernel
      obtain ⟨hp, hw⟩ := hall kind (List.mem_of_find?_eq_some h)
      refine ⟨hp, fun text ht => ?_⟩
      have hword : kind.wordText = some (String.ofList word) := by
        have := List.find?_some h
        exact eq_of_beq this
      have htext : text = String.ofList word := Option.some.inj (ht.symm.trans (hw.trans hword))
      rw [htext, String.toList_ofList]

theorem word_fits [Text.Xid] {c : Char} {cs : List Char} : (word (c :: cs)).Fits (c :: cs) := by
  unfold word
  simp only
  split
  · exact ⟨Nat.one_pos, by simp, ⟨nofun, nofun⟩, nofun, .inl rfl, nofun, nofun, nofun, nofun, nofun,
      nofun⟩
  · next h =>
    obtain ⟨hk, hm⟩ := wordKind_plain (Text.identifierPrefix (c :: cs))
    refine fits_plain hk (List.length_pos_iff.2 (by simpa using h))
      (length_identifierPrefix_le _) fun text ht => ?_
    rw [← hm text ht]
    exact take_identifierPrefix _

theorem rawName_fits [Text.Xid] {cs : List Char} {l : Lexeme} (h : rawName? cs = some l) : l.Fits cs := by
  unfold rawName? at h
  split at h
  · next cs =>
    simp only at h
    split at h
    · simp at h
    · obtain rfl := Option.some.inj h
      have := length_identifierPrefix_le cs
      exact ⟨Nat.succ_pos _, by simpa using this, ⟨nofun, nofun⟩, nofun, .inl rfl, nofun, nofun,
        nofun, nofun, nofun, fun _ => ⟨rfl, nofun⟩⟩
  · simp at h

theorem wordOrLiteral_fits [Text.Xid] {admitted : Admitted} {c : Char} {cs : List Char} :
    (wordOrLiteral contextual? admitted (c :: cs)).Fits (c :: cs) := by
  suffices h : ∀ literal : Option Lexeme, (∀ l, literal = some l → l.Fits (c :: cs)) →
      ((literal <|> rawName? (c :: cs)).getD (word (c :: cs))).Fits (c :: cs) by
    refine h _ fun l hl => contextual_fits (?_ : contextual? admitted (c :: cs) = some l)
    split at hl <;> first | exact hl | simp at hl
  intro literal hliteral
  cases literal with
  | some l => exact hliteral l rfl
  | none =>
    cases hr : rawName? (c :: cs) with
    | none => exact word_fits
    | some l => exact rawName_fits hr

theorem dollar_fits [Text.Xid] (cs : List Char) : (dollar cs).Fits ('$' :: cs) := by
  unfold dollar
  simp only
  split
  · exact fits_plain (by decide) Nat.one_pos (by simp) fun text h => by
      obtain rfl := Option.some.inj h
      rfl
  · exact fits_plain (by decide) (Nat.succ_pos _) (by simpa using length_identifierPrefix_le cs)
      nofun

/-! ### Any lexeme -/

theorem contextual_isSome [Text.Xid] {admitted : Admitted} (ha : admitted.ReadsLiterals) {c : Char}
    (cs : List Char) (hc : c = '"' ∨ c.isDigit = true) :
    (contextual? admitted (c :: cs)).isSome = true := by
  unfold contextual?
  simp only [onlyIf, ha.1, ha.2, if_true]
  generalize (if admitted.literalSuffix then Text.identifierPrefix (c :: cs) else []) = suffix
  split
  · rfl
  · rcases hc with rfl | hc
    · rfl
    · split <;> simp_all

/-- Where strings or numbers are not admitted, what would begin one is a token of one character. -/
theorem next_fits_or [Text.Xid] {admitted : Admitted} {cs : List Char} (hne : cs ≠ []) :
    (next contextual? admitted cs).Fits cs ∨
      next contextual? admitted cs = .plain .errorSentinel 1 ∧ ¬ admitted.ReadsLiterals := by
  unfold next
  split
  · next l h => exact .inl (mark_fits h)
  · split
    · exact .inl (dollar_fits _)
    · next rest _ =>
      cases h : contextual? admitted ('\'' :: rest) with
      | some l => exact .inl (contextual_fits h)
      | none => exact .inl (alone_fits rest)
    · next c rest _ _ _ =>
      split
      · next hc =>
        cases h : contextual? admitted (c :: rest) with
        | some l => exact .inl (contextual_fits h)
        | none =>
          refine .inr ⟨rfl, fun ha => ?_⟩
          have hsome := contextual_isSome ha rest (by simpa using hc)
          exact nomatch (congrArg Option.isSome h).symm.trans hsome
      · exact .inl wordOrLiteral_fits
    · exact absurd rfl hne

/-- What is read where only suffixes are admitted is a suffix. -/
theorem kind_of_suffixOnly [Text.Xid] {cs : List Char} {l : Lexeme}
    (h : contextual? .suffixOnly cs = some l) : l.kind = .literalSuffix := by
  unfold contextual? at h
  simp only [Admitted.suffixOnly, onlyIf, QuoteMark.scan?, if_true, Bool.false_and] at h
  split at h
  · obtain rfl := Option.some.inj h
    rfl
  · split at h
    all_goals simp at h

/-- Behind the comments no comment is read: a slash is a mark. -/
theorem next_isComment [Text.Xid] {admitted : Admitted} {cs : List Char} :
    (next contextual? admitted cs).kind.isComment = false := by
  by_cases hne : cs = []
  · rw [hne]
    rfl
  rcases @next_fits_or _ admitted cs hne with hfit | ⟨hsingle, -⟩
  · cases hc : (next contextual? admitted cs).kind.isComment with
    | false => rfl
    | true =>
      obtain ⟨rest, rfl⟩ := List.head?_eq_some_iff.1 (hfit.comment hc)
      have hslash : (mark? ('/' :: rest)).isSome = true := by
        have hmem : (['/'], Kind.slash) ∈ marks := by decide +kernel
        simp only [mark?, Option.isSome_map, List.find?_isSome]
        exact ⟨_, hmem, by simp⟩
      obtain ⟨l, hl⟩ := Option.isSome_iff_exists.1 hslash
      have hnext : next contextual? admitted ('/' :: rest) = l := by
        unfold next
        rw [hl]
      obtain ⟨m, hm, rfl⟩ := Option.map_eq_some_iff.1 hl
      rw [hnext] at hc
      exact nomatch (mem_marks (List.mem_of_find?_eq_some hm)).1.2.2.2.2.symm.trans hc
  · rw [hsingle]
    rfl

theorem next_fits [Text.Xid] {admitted : Admitted} (ha : admitted.ReadsLiterals) {cs : List Char}
    (hne : cs ≠ []) : (next contextual? admitted cs).Fits cs :=
  (next_fits_or hne).resolve_right fun h => h.2 ha

end Lexeme

end ConcreteSyntax
