import ConcreteSyntax.Proofs.Token.ReadAt
import Mathlib.Algebra.Group.Nat.Even
import Mathlib.Data.List.DropRight

/-! # Where a string ends

A string ends at the first quote that an even number of backslashes stands right before
(`StringLiteral.readAt_string`), which is where the plain rule ends it, too: skip the character
behind a backslash (`StringLiteral.closeAt?`). Escapes are longer than that and may be malformed,
but behind its first character an escape takes neither a quote nor a backslash along
(`Escape.isPlain_of_mem`), so where it ends plays no part. -/

namespace ConcreteSyntax

open Text (byteLength)

/-! ### What an escape takes along -/

namespace StringLiteral

theorem isPlain_of_isHexDigit {c : Char} (h : Text.isHexDigit c = true) : isPlain c = true := by
  unfold isPlain
  rw [Bool.and_eq_true, bne_iff_ne, bne_iff_ne]
  refine ⟨?_, ?_⟩
  · rintro rfl
    exact absurd h (by decide)
  · rintro rfl
    exact absurd h (by decide)

theorem isPlain_of_isWhiteSpace {c : Char} (h : Text.isWhiteSpace c = true) : isPlain c = true := by
  unfold isPlain
  rw [Bool.and_eq_true, bne_iff_ne, bne_iff_ne]
  refine ⟨?_, ?_⟩
  · rintro rfl
    exact absurd h (by decide)
  · rintro rfl
    exact absurd h (by decide)

end StringLiteral

open StringLiteral (isPlain isPlain_of_isHexDigit isPlain_of_isWhiteSpace)

/-- The characters of a run have what it was taken for. -/
theorem Text.of_mem_take_takeWhile {p : Char → Bool} {cs : List Char} {c : Char}
    (h : c ∈ cs.take (cs.takeWhile p).length) : p c = true := by
  rw [← List.prefix_iff_eq_take.1 (List.takeWhile_prefix p)] at h
  exact List.mem_takeWhile_imp h

/-- What stands behind a run does not belong to it. -/
theorem Text.not_of_drop_takeWhile {p : Char → Bool} {cs rest : List Char} {c : Char}
    (h : cs.drop (cs.takeWhile p).length = c :: rest) : p c = false := by
  induction cs with
  | nil => exact nomatch h
  | cons d cs ih =>
    by_cases hd : p d = true
    · rw [List.takeWhile_cons_of_pos hd] at h
      exact ih h
    · rw [List.takeWhile_cons_of_neg hd] at h
      obtain ⟨rfl, -⟩ := List.cons.inj h
      simpa using hd

/-- The digits of a code point are plain. -/
theorem Escape.isPlain_of_mem_digits {cs : List Char} {c : Char}
    (h : c ∈ cs.take (cs.takeWhile fun c => Text.isHexDigit c || c == '_').length) :
    isPlain c = true := by
  rcases Bool.or_eq_true_iff.1 (Text.of_mem_take_takeWhile h) with h | h
  · exact isPlain_of_isHexDigit h
  · rw [eq_of_beq h]
    rfl

/-- Behind its first character an escape takes plain characters only. -/
theorem Escape.isPlain_of_mem (first : Char) (cs : List Char) :
    2 ≤ (Escape.scan true (first :: cs)).length ∧
      ∀ c ∈ cs.take ((Escape.scan true (first :: cs)).length - 2), isPlain c = true := by
  have hnone (n : Nat) (h : n = 0) : ∀ c ∈ cs.take n, isPlain c = true := by
    rw [h, List.take_zero]
    exact nofun
  unfold Escape.scan
  split
  · next h => exact absurd h nofun
  · next rest h =>
    obtain ⟨-, rfl⟩ := List.cons.inj h
    refine ⟨Nat.le_add_left .., fun c hc => ?_⟩
    simp only [Nat.add_sub_cancel] at hc
    have hle := Lexeme.length_takeWhile_le Text.isHexDigit (cs.take 2)
    have hc' : c ∈ (cs.take 2).take ((cs.take 2).takeWhile Text.isHexDigit).length := by
      rw [List.length_take] at hle
      rwa [List.take_take, Nat.min_eq_left (by omega)]
    exact isPlain_of_isHexDigit (Text.of_mem_take_takeWhile hc')
  · next rest h =>
    obtain ⟨-, rfl⟩ := List.cons.inj h
    have hrun {c : Char} := @Escape.isPlain_of_mem_digits rest c
    simp only
    generalize (rest.takeWhile fun c => Text.isHexDigit c || c == '_').length = digits at hrun ⊢
    split
    · next hclose =>
      refine ⟨Nat.le_add_left .., fun c hc => ?_⟩
      have htake : rest.take (digits + 1) = rest.take digits ++ ['\x7d'] := by
        rw [List.take_add_one, hclose]
        rfl
      simp only [show digits + 4 - 2 = digits + 1 + 1 from rfl, List.take_succ_cons, htake,
        List.mem_cons, List.mem_append, List.not_mem_nil, or_false] at hc
      rcases hc with rfl | hc | rfl
      · rfl
      · exact hrun hc
      · rfl
    · refine ⟨Nat.le_add_left .., fun c hc => ?_⟩
      simp only [show digits + 3 - 2 = digits + 1 from rfl, List.take_succ_cons,
        List.mem_cons] at hc
      rcases hc with rfl | hc
      · rfl
      · exact hrun hc
  · next h =>
    obtain ⟨rfl, rfl⟩ := List.cons.inj h
    split
    · exact ⟨Nat.le_refl 2, hnone _ rfl⟩
    · split
      · next hbreak =>
        -- the line end and the white space behind it
        have hfirst : Text.isWhiteSpace first = true := by
          simp only [Bool.true_and, Bool.or_eq_true, beq_iff_eq] at hbreak
          rcases hbreak with rfl | rfl <;> rfl
        rw [List.takeWhile_cons_of_pos hfirst, List.length_cons]
        refine ⟨Nat.le_add_left .., fun c hc => ?_⟩
        exact isPlain_of_isWhiteSpace (Text.of_mem_take_takeWhile hc)
      · exact ⟨Nat.le_refl 2, hnone _ rfl⟩

namespace StringLiteral

/-! ### The plain rule -/

/-- The number of characters before the closing quote, if the character behind a backslash is
skipped and nothing else is. -/
def closeAt? : List Char → Option Nat
  | [] | ['\\'] => none
  | '\\' :: _ :: cs => (closeAt? cs).map (· + 2)
  | c :: cs => if c = '"' then some 0 else (closeAt? cs).map (· + 1)

theorem closeAt?_cons {c : Char} (hc : isPlain c = true) (cs : List Char) :
    closeAt? (c :: cs) = (closeAt? cs).map (· + 1) := by
  simp only [isPlain, Bool.and_eq_true, bne_iff_ne] at hc
  cases cs <;> simp [closeAt?, hc.1, hc.2]

/-- Plain characters are skipped one by one. -/
theorem closeAt?_append (run : List Char) (h : ∀ c ∈ run, isPlain c = true) (cs : List Char) :
    closeAt? (run ++ cs) = (closeAt? cs).map (· + run.length) := by
  induction run with
  | nil => cases h' : closeAt? cs <;> simp [h']
  | cons c run ih =>
    rw [List.cons_append, closeAt?_cons (h c List.mem_cons_self),
      ih fun d hd => h d (List.mem_cons_of_mem c hd), Option.map_map]
    congr 1

/-- Behind a backslash it makes no difference whether one character is skipped or the escape. -/
theorem closeAt?_escape (cs : List Char) :
    closeAt? ('\\' :: cs) = (closeAt? (cs.drop ((Escape.scan true cs).length - 1))).map
      (· + (Escape.scan true cs).length) := by
  cases cs with
  | nil => rfl
  | cons first cs =>
    obtain ⟨htwo, hplain⟩ := Escape.isPlain_of_mem first cs
    obtain ⟨n, hn⟩ : ∃ n, (Escape.scan true (first :: cs)).length = n + 2 :=
      ⟨_, (Nat.sub_add_cancel htwo).symm⟩
    rw [hn, Nat.add_sub_cancel] at hplain
    have hsplit := closeAt?_append _ hplain (cs.drop n)
    rw [List.take_append_drop] at hsplit
    rw [hn, show n + 2 - 1 = n + 1 from rfl, List.drop_succ_cons]
    have hskip : closeAt? ('\\' :: first :: cs) = (closeAt? cs).map (· + 2) := by
      simp [closeAt?]
    rw [hskip, hsplit, Option.map_map]
    cases hrest : closeAt? (cs.drop n) with
    | none => rfl
    | some m =>
      -- a quote stands behind the escape, so it is all there
      have hle : n ≤ cs.length := by
        by_contra hlt
        rw [List.drop_eq_nil_of_le (by omega)] at hrest
        exact nomatch hrest
      simp only [Option.map_some, Function.comp_apply, List.length_take, Option.some.injEq]
      omega

/-- The pieces of a string reach up to the quote that closes it by the plain rule. -/
theorem pieces?_closeAt? (cs : List Char) :
    (pieces? cs).map Lexeme.piecesLength = (closeAt? cs).map (· + 1) := by
  have hrun (cs : List Char) : closeAt? cs = (closeAt?
      (cs.drop (cs.takeWhile isPlain).length)).map (· + (cs.takeWhile isPlain).length) := by
    have hsplit := List.take_append_drop (cs.takeWhile isPlain).length cs
    rw [← List.prefix_iff_eq_take.1 (List.takeWhile_prefix isPlain)] at hsplit
    have h := closeAt?_append (cs.takeWhile isPlain) (fun c hc => List.mem_takeWhile_imp hc)
      (cs.drop (cs.takeWhile isPlain).length)
    rwa [hsplit] at h
  fun_induction pieces? cs with
  | case1 cs plain hdrop => rw [hrun cs, hdrop]; rfl
  | case2 cs plain rest hdrop =>
    rw [hrun cs, hdrop]
    simp [closeAt?, Lexeme.stringContent_sound.1, plain]
  | case3 cs plain c rest hdrop hquote escape ih =>
    obtain rfl : c = '\\' := by
      have hplain := Text.not_of_drop_takeWhile hdrop
      simp only [isPlain, Bool.and_eq_false_iff, bne_eq_false_iff_eq] at hplain
      exact hplain.resolve_left hquote
    have hescape : closeAt? ('\\' :: rest) =
        (closeAt? (rest.drop (escape.length - 1))).map (· + escape.length) := closeAt?_escape rest
    have hcs : closeAt? cs = (closeAt? ('\\' :: rest)).map (· + plain) := hdrop ▸ hrun cs
    rw [hcs, hescape]
    cases hpieces : pieces? (rest.drop (escape.length - 1)) with
    | none =>
      rw [hpieces] at ih
      rw [Option.map_eq_none_iff.1 ih.symm]
      rfl
    | some more =>
      rw [hpieces] at ih
      obtain ⟨n, hn, hmore⟩ := Option.map_eq_some_iff.1 ih.symm
      rw [hn]
      simp only [Option.map_some, Lexeme.piecesLength_append, Lexeme.stringContent_sound.1,
        Lexeme.piecesLength_cons, Escape.piece, ← hmore, Option.some.injEq]
      omega

/-! ### Backslashes before a quote -/

/-- An even number of backslashes stands at the end of a text, so that none is left to take the next
character along. -/
def Bare (before : List Char) : Prop := Even (before.rtakeWhile (· == '\\')).length

instance : DecidablePred Bare := fun _ => inferInstanceAs (Decidable (Even _))

theorem bare_nil : Bare [] := ⟨0, rfl⟩

theorem bare_concat {before : List Char} {c : Char} :
    Bare (before ++ [c]) ↔ c = '\\' → ¬ Bare before := by
  unfold Bare
  rw [List.rtakeWhile_concat]
  by_cases hc : c = '\\'
  · simp [hc, Nat.even_add_one]
  · simp [hc]

/-- The plain rule finds the first quote that no backslash takes along. -/
theorem closeAt?_eq_some {cs front before rest : List Char} (hcs : cs = before ++ '"' :: rest)
    (hfront : Bare front) (hbare : Bare (front ++ before))
    (hfirst : ∀ p q, before = p ++ '"' :: q → ¬ Bare (front ++ p)) :
    closeAt? cs = some before.length := by
  -- the text that was skipped goes to the front, where no backslash is left over
  fun_induction closeAt? cs generalizing front before with
  | case1 => simp at hcs
  | case2 =>
    cases before with
    | nil => simp at hcs
    | cons b before => simp at hcs
  | case3 d cs ih =>
    obtain _ | ⟨b, _ | ⟨b', before⟩⟩ := before
    · simp at hcs
    · simp only [List.cons_append, List.nil_append, List.cons.injEq] at hcs
      exact absurd hfront (bare_concat.1 hbare hcs.1.symm)
    · simp only [List.cons_append, List.cons.injEq] at hcs
      obtain ⟨rfl, rfl, hcs⟩ := hcs
      have hskipped : Bare (front ++ ['\\'] ++ [d]) :=
        bare_concat.2 fun _ h => bare_concat.1 h rfl hfront
      have hmore (more : List Char) :
          front ++ '\\' :: d :: more = front ++ ['\\'] ++ [d] ++ more := by
        simp
      rw [ih hcs hskipped (hmore before ▸ hbare) fun p q hp => hmore p ▸ hfirst ('\\' :: d :: p) q
        (by rw [hp]; rfl)]
      rfl
  | case4 cs =>
    cases before with
    | nil => rfl
    | cons b before =>
      obtain ⟨rfl, -⟩ := List.cons.inj hcs
      exact absurd hfront (by simpa using hfirst [] before rfl)
  | case5 c cs hlast hskip hquote ih =>
    cases before with
    | nil => exact absurd (List.cons.inj hcs).1 hquote
    | cons b before =>
      simp only [List.cons_append, List.cons.injEq] at hcs
      obtain ⟨rfl, hcs⟩ := hcs
      have hne : c ≠ '\\' := by
        intro hc
        cases cs with
        | nil => exact hlast hc rfl
        | cons d cs => exact hskip d cs hc rfl
      have hmore (more : List Char) : front ++ c :: more = front ++ [c] ++ more := by simp
      rw [ih hcs (bare_concat.2 fun h => absurd h hne) (hmore before ▸ hbare)
        fun p q hp => hmore p ▸ hfirst (c :: p) q (by rw [hp]; rfl)]
      rfl

/-- Where backslashes take every quote along, the plain rule finds none. -/
theorem closeAt?_eq_none {cs front : List Char} (hfront : Bare front)
    (hnone : ∀ p q, cs = p ++ '"' :: q → ¬ Bare (front ++ p)) : closeAt? cs = none := by
  fun_induction closeAt? cs generalizing front with
  | case1 => rfl
  | case2 => rfl
  | case3 d cs ih =>
    have hskipped : Bare (front ++ ['\\'] ++ [d]) :=
      bare_concat.2 fun _ h => bare_concat.1 h rfl hfront
    rw [ih hskipped fun p q hp => by
      simpa using hnone ('\\' :: d :: p) q (by rw [hp]; rfl)]
    rfl
  | case4 cs => exact absurd hfront (by simpa using hnone [] cs rfl)
  | case5 c cs hlast hskip hquote ih =>
    have hne : c ≠ '\\' := by
      intro hc
      cases cs with
      | nil => exact hlast hc rfl
      | cons d cs => exact hskip d cs hc rfl
    rw [ih (bare_concat.2 fun h => absurd h hne) fun p q hp => by
      simpa using hnone (c :: p) q (by rw [hp]; rfl)]
    rfl

/-! ### The token -/

section

variable [Text.Xid] {admitted : Admitted} {lead : LiteralPrefix}

/-- Behind a prefix a quote begins a string. A suffix takes the letters of a prefix, but no
quote. -/
theorem readAt_opened (ha : admitted.string = true)
    (hs : lead = .text ∨ admitted.literalSuffix = false) (cs : List Char) (offset : Nat) :
    Token.ReadAt admitted offset (lead.letters ++ '"' :: cs)
      ((scan lead.letters.length lead.flags cs).place offset (lead.letters ++ '"' :: cs)) := by
  have hname : Text.identifierPrefix ('"' :: cs) = [] := by
    simp [Text.identifierPrefix, Text.isIdentifierStart]
  cases lead with
  | text =>
    refine Token.readAt_of_contextual (by decide) (fun _ => hname) ?_ offset
    simp [Lexeme.contextual?, hname, ha, Lexeme.onlyIf, LiteralPrefix.flags, LiteralPrefix.letters]
  | bytes | terminated =>
    have hs := hs.resolve_left LiteralPrefix.noConfusion
    refine Token.readAt_of_contextual (by decide)
      (fun h => absurd (hs.symm.trans h) Bool.false_ne_true) ?_ offset
    simp [Lexeme.contextual?, hs, ha, Lexeme.onlyIf, LiteralPrefix.flags, LiteralPrefix.letters]

/-- **Strings close at the first quote that an even number of backslashes stands before**, whatever
escapes they hold. Where strings are admitted (and, with a prefix, no suffix is), the token ends
just behind this quote; without one it is an error up to the end of the text. The plain rule ends
the string at the same place. -/
theorem readAt_string (ha : admitted.string = true)
    (hs : lead = .text ∨ admitted.literalSuffix = false) (cs : List Char) (offset : Nat) :
    (∀ before rest, cs = before ++ '"' :: rest → Bare before →
      (∀ p q, before = p ++ '"' :: q → ¬ Bare p) →
        (∃ t, Token.ReadAt admitted offset (lead.letters ++ '"' :: cs) t ∧ t.kind = .stringToken ∧
          t.range = ⟨offset, offset + byteLength (lead.letters ++ '"' :: (before ++ ['"']))⟩ ∧
          t.flags = lead.flags) ∧
        closeAt? cs = some before.length) ∧
    ((∀ before rest, cs = before ++ '"' :: rest → ¬ Bare before) →
      Token.ReadAt admitted offset (lead.letters ++ '"' :: cs)
        (.endless lead.flags .unterminatedString
          ⟨offset, offset + byteLength (lead.letters ++ '"' :: cs)⟩) ∧
      closeAt? cs = none) := by
  have hread := readAt_opened ha hs cs offset
  have hpieces := pieces?_closeAt? cs
  refine ⟨fun before rest hcs hbare hfirst => ?_, fun hnone => ?_⟩
  · have hclose := closeAt?_eq_some hcs bare_nil hbare hfirst
    rw [hclose] at hpieces
    obtain ⟨more, hmore, hlength⟩ := Option.map_eq_some_iff.1 hpieces
    refine ⟨⟨_, hread, ?_, ?_, ?_⟩, hclose⟩
    · unfold scan
      rw [hmore]
      rfl
    · have hscan : (scan lead.letters.length lead.flags cs).length =
          (lead.letters ++ '"' :: (before ++ ['"'])).length := by
        unfold scan
        rw [hmore]
        change Lexeme.piecesLength ((.stringStart, lead.letters.length + 1) :: more) = _
        simp only [Lexeme.piecesLength_cons, hlength, List.length_append, List.length_cons,
          List.length_nil]
        omega
      have htext :
          lead.letters ++ '"' :: cs = lead.letters ++ '"' :: (before ++ ['"']) ++ rest := by
        simp [hcs]
      unfold Lexeme.place
      simp only
      rw [hscan, htext, List.take_left]
    · unfold scan
      rw [hmore]
      rfl
  · have hclose := closeAt?_eq_none bare_nil hnone
    rw [hclose] at hpieces
    have hmore := Option.map_eq_none_iff.1 hpieces
    refine ⟨?_, hclose⟩
    unfold scan at hread
    rw [hmore] at hread
    have hlength : lead.letters.length + 1 + cs.length = (lead.letters ++ '"' :: cs).length := by
      simp
      omega
    simp only [hlength] at hread
    rwa [Lexeme.place_unterminated] at hread

end

/-- Escapes that are cut short, a quote that a backslash takes along, and two backslashes before the
quote that closes; without the second of them nothing closes the string. -/
theorem readAt_string_escaped :
    (∃ t, Token.ReadAt .usual 0 "b\"\\x\\u\x7b1\\\"\\\\\";\"".toList t ∧ t.kind = .stringToken ∧
        t.range = ⟨0, 13⟩ ∧ t.flags = { bytePrefix := true }) ∧
      Token.ReadAt .usual 0 "\"\\x\\\"".toList
        { kind := .errorSentinel
          range := ⟨0, 5⟩
          flags := { unterminated := true }
          faults := [⟨.unterminatedString, 0, 5⟩] } := by
  have hbytes := @readAt_string _ .usual .bytes rfl (.inr rfl) "\\x\\u\x7b1\\\"\\\\\";\"".toList 0
  have htext := @readAt_string _ .usual .text rfl (.inl rfl) "\\x\\\"".toList 0
  -- a quote that stands alone in a text stands at one place only
  have honly {u v p q : List Char} (hu : '"' ∉ u) (hv : '"' ∉ v)
      (h : u ++ '"' :: v = p ++ '"' :: q) : p = u :=
    ((List.append_cons_inj_of_notMem hu hv).1 h).1.symm
  refine ⟨(hbytes.1 "\\x\\u\x7b1\\\"\\\\".toList ";\"".toList rfl (by decide) fun p q hp => ?_).1,
    (htext.2 fun p q hp => ?_).1⟩
  · have hp' : "\\x\\u\x7b1\\".toList ++ '"' :: "\\\\".toList = p ++ '"' :: q := hp
    rw [honly (by decide) (by decide) hp']
    decide
  · have hp' : "\\x\\".toList ++ '"' :: [] = p ++ '"' :: q := hp
    rw [honly (by decide) (by decide) hp']
    decide

/-- Where literal suffixes are admitted as well, as behind a literal, the prefix is one. -/
theorem string_taken_for_suffix :
    Admitted.afterLiteral.string = true ∧
      Token.ReadAt .afterLiteral 0 "b\"\"".toList { kind := .literalSuffix, range := ⟨0, 1⟩ } ∧
      ¬ ∃ t, Token.ReadAt .afterLiteral 0 "b\"\"".toList t ∧ t.kind = .stringToken := by
  have hsuffix := @Token.readAt_suffix _ .afterLiteral "b\"\"".toList rfl (by decide) 0
  refine ⟨rfl, hsuffix, ?_⟩
  rintro ⟨t, ht, hkind⟩
  rw [← hsuffix.unique ht] at hkind
  exact nomatch hkind

end StringLiteral

end ConcreteSyntax
