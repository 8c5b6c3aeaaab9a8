import ConcreteSyntax.Proofs.Token.Mark
import Mathlib.Data.List.Basic

/-! # Lexemes before a line break

A lexeme without a fault does not depend on what stands behind the next line break: at the end of a
text it is the one that is read there when a new line follows (`Lexeme.next_break`). Only what the
end of the text cuts off is read on into the next line, and that is always a fault: a string or a
comment that does not end. -/

namespace ConcreteSyntax

variable {more : List Char}

/-! ### Runs of characters -/

namespace Text

/-- A run of characters that no line break belongs to ends before one. -/
theorem takeWhile_break {p : Char → Bool} (hp : p '\n' = false) (cs : List Char) :
    (cs ++ '\n' :: more).takeWhile p = cs.takeWhile p := by
  induction cs with
  | nil => simp [hp]
  | cons c cs ih =>
    by_cases hc : p c = true
    · rw [List.cons_append, List.takeWhile_cons_of_pos hc, List.takeWhile_cons_of_pos hc, ih]
    · rw [List.cons_append, List.takeWhile_cons_of_neg hc, List.takeWhile_cons_of_neg hc]

/-- A run of characters that ends inside a text does so whatever follows. -/
theorem takeWhile_append_of_lt {p : Char → Bool} {cs : List Char}
    (h : (cs.takeWhile p).length < cs.length) : (cs ++ more).takeWhile p = cs.takeWhile p := by
  induction cs with
  | nil => simp at h
  | cons c cs ih =>
    by_cases hc : p c = true
    · rw [List.takeWhile_cons_of_pos hc] at h ⊢
      rw [List.cons_append, List.takeWhile_cons_of_pos hc, ih (by simpa using h)]
    · rw [List.cons_append, List.takeWhile_cons_of_neg hc, List.takeWhile_cons_of_neg hc]

theorem identifierPrefix_break (cs : List Char) :
    identifierPrefix (cs ++ '\n' :: more) = identifierPrefix cs := by
  cases cs with
  | nil => rfl
  | cons c cs =>
    have hpart : isIdentifierPart '\n' = false := by decide
    simp only [List.cons_append, identifierPrefix, takeWhile_break hpart]

theorem isPrefixOf_break {word : List Char} (hw : '\n' ∉ word) (cs : List Char) :
    word.isPrefixOf (cs ++ '\n' :: more) = word.isPrefixOf cs := by
  induction word generalizing cs with
  | nil => simp
  | cons w word ih =>
    have hne : w ≠ '\n' := fun h => hw (h ▸ List.mem_cons_self)
    cases cs with
    | nil => simp [List.isPrefixOf_cons_cons, hne]
    | cons c cs =>
      have hrest : '\n' ∉ word := fun h => hw (List.mem_cons_of_mem w h)
      simp [List.isPrefixOf_cons_cons, ih hrest cs]

/-- A character at the front of a text is there in the text alone if it is no line break. -/
theorem exists_cons_of_break {cs rest : List Char} {c : Char} (hc : c ≠ '\n')
    (h : cs ++ '\n' :: more = c :: rest) : ∃ rest', cs = c :: rest' := by
  cases cs with
  | nil => exact absurd (List.cons.inj h).1.symm hc
  | cons d cs => exact ⟨cs, by rw [(List.cons.inj h).1]⟩

/-- What does not begin a text does not begin it before a line break. -/
theorem not_cons_break {cs : List Char} {P : Prop} {c : Char} (hc : c ≠ '\n')
    (h : ∀ rest, P → cs = c :: rest → False) (rest : List Char) (hP : P)
    (he : cs ++ '\n' :: more = c :: rest) : False := by
  obtain ⟨rest', he'⟩ := exists_cons_of_break hc he
  exact h rest' hP he'

/-- What stands at a place of a text or just behind it, if it is no line break, stands there in the
text alone. -/
theorem getElem?_break {cs : List Char} {n : Nat} (hn : n ≤ cs.length) {c : Char} (hc : c ≠ '\n') :
    (cs ++ '\n' :: more)[n]? = some c ↔ cs[n]? = some c := by
  rcases Nat.lt_or_ge n cs.length with hlt | hge
  · rw [List.getElem?_append_left hlt]
  · have heq : n = cs.length := by omega
    subst heq
    simp [hc.symm]

end Text

/-! ### Comments -/

namespace Comment

theorem lineText_break (cs : List Char) : lineText (cs ++ '\n' :: more) = lineText cs := by
  induction cs with
  | nil => simp [lineText]
  | cons c cs ih =>
    have hend : ((cs ++ '\n' :: more).isEmpty || (cs ++ '\n' :: more).head? == some '\n') =
        (cs.isEmpty || cs.head? == some '\n') := by
      cases cs with
      | nil => simp
      | cons d cs => simp
    simp only [List.cons_append, lineText, ih, hend]

theorem line_break (cs : List Char) : line (cs ++ '\n' :: more) = line cs := by
  unfold line
  rw [lineText_break]

/-- A comment that ends does so whatever follows. -/
theorem closeLength?_append {depth n : Nat} {cs : List Char} (more : List Char)
    (h : closeLength? depth cs = some n) : closeLength? depth (cs ++ more) = some n := by
  fun_induction closeLength? depth cs generalizing n with
  | case1 => simp at h
  | case2 cs => simpa [closeLength?] using h
  | case3 depth cs hne ih =>
    obtain ⟨m, hm, rfl⟩ := Option.map_eq_some_iff.1 h
    simp only [List.cons_append, closeLength?, if_neg hne, ih hm, Option.map_some]
  | case4 depth cs ih =>
    obtain ⟨m, hm, rfl⟩ := Option.map_eq_some_iff.1 h
    simp only [List.cons_append, closeLength?, ih hm, Option.map_some]
  | case5 depth c cs hstar hslash ih =>
    obtain ⟨m, hm, rfl⟩ := Option.map_eq_some_iff.1 h
    have hstar' (ds : List Char) (hc : c = '*') (he : cs ++ more = '/' :: ds) : False := by
      cases cs with
      | nil => simp [closeLength?] at hm
      | cons d cs =>
        obtain ⟨rfl, -⟩ := List.cons.inj he
        exact hstar cs hc rfl
    have hslash' (ds : List Char) (hc : c = '/') (he : cs ++ more = '*' :: ds) : False := by
      cases cs with
      | nil => simp [closeLength?] at hm
      | cons d cs =>
        obtain ⟨rfl, -⟩ := List.cons.inj he
        exact hslash cs hc rfl
    rw [List.cons_append, closeLength?.eq_4 _ _ _ hstar' hslash', ih hm, Option.map_some]

theorem block_break {body : List Char} (h : (block body).fault = none) :
    block (body ++ '\n' :: more) = block body := by
  unfold block at h ⊢
  cases hclose : closeLength? 0 body with
  | none => simp [hclose] at h
  | some n =>
    obtain ⟨-, hle⟩ := Lexeme.closeLength_bounds hclose
    have htake : (body ++ '\n' :: more).take (n - 2) = body.take (n - 2) :=
      List.take_append_of_le_length (by omega)
    rw [closeLength?_append _ hclose]
    simp only [htake]

end Comment

/-! ### Literals between quotes -/

namespace Escape

theorem digits_break (cs : List Char) :
    ((cs ++ '\n' :: more).take 2).takeWhile Text.isHexDigit =
      (cs.take 2).takeWhile Text.isHexDigit := by
  have hbreak : Text.isHexDigit '\n' = false := by decide
  match cs with
  | [] => simp [hbreak]
  | [c] => simp [hbreak, List.takeWhile_cons]
  | c :: d :: cs => simp

theorem codePoint_break (cs : List Char) :
    (cs ++ '\n' :: more).takeWhile (fun c => Text.isHexDigit c || c == '_') =
      cs.takeWhile fun c => Text.isHexDigit c || c == '_' :=
  Text.takeWhile_break (by decide) cs

/-- An escape that the text goes on after. -/
theorem scan_break {inString : Bool} {cs : List Char} (h : (scan inString cs).length ≤ cs.length) :
    scan inString (cs ++ '\n' :: more) = scan inString cs := by
  fun_cases scan inString cs with
  | case1 => simp [scan] at h
  | case2 rest digits =>
    simp only [List.cons_append, scan, digits_break]
    rfl
  | case3 rest digits hclose =>
    have hle : digits ≤ rest.length := Lexeme.length_takeWhile_le _ _
    have hclose' : (rest ++ '\n' :: more)[digits]? = some '\x7d' :=
      (Text.getElem?_break hle (by decide)).2 hclose
    simp only [List.cons_append, scan, codePoint_break]
    exact if_pos hclose'
  | case4 rest digits hclose =>
    have hle : digits ≤ rest.length := Lexeme.length_takeWhile_le _ _
    have hclose' : ¬ (rest ++ '\n' :: more)[digits]? = some '\x7d' := fun h =>
      hclose ((Text.getElem?_break hle (by decide)).1 h)
    simp only [List.cons_append, scan, codePoint_break]
    exact if_neg hclose'
  | case5 c tail hx hu hsimple =>
    rw [List.cons_append, scan.eq_4 _ _ _ hx (Text.not_cons_break (by decide) hu), if_pos hsimple]
  | case6 c tail hx hu hsimple hbreak =>
    rw [scan.eq_4 _ _ _ hx hu, if_neg hsimple, if_pos hbreak] at h
    -- the white space ends before the text does
    have hspace : ((c :: tail).takeWhile Text.isWhiteSpace).length < (c :: tail).length := by
      simp only at h
      omega
    have hrun : (c :: tail ++ '\n' :: more).takeWhile Text.isWhiteSpace =
        (c :: tail).takeWhile Text.isWhiteSpace := Text.takeWhile_append_of_lt hspace
    rw [List.cons_append] at hrun ⊢
    rw [scan.eq_4 _ _ _ hx (Text.not_cons_break (by decide) hu), if_neg hsimple, if_pos hbreak,
      hrun]
  | case7 c tail hx hu hsimple hbreak =>
    rw [List.cons_append, scan.eq_4 _ _ _ hx (Text.not_cons_break (by decide) hu), if_neg hsimple,
      if_neg hbreak]

end Escape

namespace StringLiteral

/-- Behind the plain characters the closing quote ends the string. -/
theorem pieces?_quote {cs rest : List Char}
    (h : cs.drop (cs.takeWhile isPlain).length = '"' :: rest) :
    pieces? cs = some (contentPiece (cs.takeWhile isPlain).length ++ [(.stringEnd, 1)]) := by
  rw [pieces?.eq_def]
  dsimp only
  split
  · next h' => cases h.symm.trans h'
  · next h' =>
    obtain ⟨rfl, -⟩ := List.cons.inj (h.symm.trans h')
    rfl

/-- Behind the plain characters an escape may stand, and then the string goes on. -/
theorem pieces?_escape {cs rest : List Char} {c : Char}
    (h : cs.drop (cs.takeWhile isPlain).length = c :: rest) (hc : c ≠ '"') :
    pieces? cs = (pieces? (rest.drop ((Escape.scan true rest).length - 1))).map fun more =>
      contentPiece (cs.takeWhile isPlain).length ++ (Escape.scan true rest).piece :: more := by
  rw [pieces?.eq_def]
  dsimp only
  split
  · next h' => cases h.symm.trans h'
  · next h' =>
    obtain ⟨rfl, rfl⟩ := List.cons.inj (h.symm.trans h')
    simp only [hc, if_false]

theorem pieces?_nil : pieces? [] = none := by
  rw [pieces?.eq_def]
  rfl

/-- A string that ends does so whatever follows. -/
theorem pieces?_break {cs : List Char} {pieces : List (Kind × Nat)} (h : pieces? cs = some pieces) :
    pieces? (cs ++ '\n' :: more) = some pieces := by
  -- the plain characters end inside the string
  have hplain {c : Char} {cs rest : List Char}
      (hdrop : cs.drop (cs.takeWhile isPlain).length = c :: rest) :
      (cs ++ '\n' :: more).takeWhile isPlain = cs.takeWhile isPlain ∧
        (cs ++ '\n' :: more).drop (cs.takeWhile isPlain).length = c :: (rest ++ '\n' :: more) := by
    have hlt : (cs.takeWhile isPlain).length < cs.length := by
      have := congrArg List.length hdrop
      simp only [List.length_drop, List.length_cons] at this
      omega
    refine ⟨Text.takeWhile_append_of_lt hlt, ?_⟩
    rw [List.drop_append_of_le_length (by omega), hdrop, List.cons_append]
  fun_induction pieces? cs generalizing pieces with
  | case1 => simp at h
  | case2 =>
    rename_i rest hdrop
    obtain ⟨htake, hdrop'⟩ := hplain hdrop
    rw [← htake] at hdrop'
    rw [pieces?_quote hdrop', htake]
    exact h
  | case3 =>
    rename_i c rest hdrop hquote escape ih
    obtain ⟨htake, hdrop'⟩ := hplain hdrop
    rw [← htake] at hdrop'
    obtain ⟨more', hmore, rfl⟩ := Option.map_eq_some_iff.1 h
    -- the escape does, too
    have hlt : escape.length - 1 < rest.length := by
      by_contra hge
      rw [List.drop_eq_nil_of_le (by omega), pieces?_nil] at hmore
      cases hmore
    have hscan : Escape.scan true (rest ++ '\n' :: more) = escape :=
      Escape.scan_break (show escape.length ≤ rest.length by omega)
    rw [pieces?_escape hdrop' hquote, hscan, List.drop_append_of_le_length (by omega), ih hmore,
      htake]
    rfl

/-- A raw string that ends does so whatever follows. -/
theorem rawLength?_break {hashes n : Nat} {cs : List Char} (h : rawLength? hashes cs = some n) :
    rawLength? hashes (cs ++ '\n' :: more) = some n := by
  induction cs generalizing n with
  | nil => simp [rawLength?] at h
  | cons c cs ih =>
    have hmarks : (List.replicate hashes '#').isPrefixOf (cs ++ '\n' :: more) =
        (List.replicate hashes '#').isPrefixOf cs :=
      Text.isPrefixOf_break (fun hm => absurd (List.eq_of_mem_replicate hm) (by decide)) cs
    rw [List.cons_append]
    unfold rawLength? at h ⊢
    rw [hmarks]
    split at h
    · next hend => rwa [if_pos hend]
    · next hend =>
      obtain ⟨m, hm, rfl⟩ := Option.map_eq_some_iff.1 h
      rw [if_neg hend, ih hm, Option.map_some]

theorem scan_break {lead : Nat} {flags : TokenFlags} {cs : List Char}
    (h : (scan lead flags cs).fault = none) :
    scan lead flags (cs ++ '\n' :: more) = scan lead flags cs := by
  unfold scan at h ⊢
  cases hpieces : pieces? cs with
  | none => simp [hpieces, unterminated] at h
  | some pieces => rw [pieces?_break hpieces]

theorem scanRaw?_break {lead : Nat} {flags : TokenFlags} {cs : List Char}
    (h : ∀ l, scanRaw? lead flags cs = some l → l.fault = none) :
    scanRaw? lead flags (cs ++ '\n' :: more) = scanRaw? lead flags cs := by
  have hhash : ('\n' == '#') = false := by decide
  have hle : (cs.takeWhile (· == '#')).length ≤ cs.length := Lexeme.length_takeWhile_le _ _
  unfold scanRaw? at h ⊢
  simp only [Text.takeWhile_break (p := (· == '#')) hhash, List.drop_append_of_le_length hle] at h ⊢
  cases hdrop : cs.drop (cs.takeWhile (· == '#')).length with
  | nil => simp
  | cons c rest =>
    by_cases hc : c = '"'
    · subst hc
      rw [hdrop] at h
      simp only [List.cons_append] at h ⊢
      cases hraw : rawLength? (cs.takeWhile (· == '#')).length rest with
      | none => simp [hraw, unterminated] at h
      | some n => rw [rawLength?_break hraw]
    · simp [hc]

end StringLiteral

namespace QuoteMark

theorem contentPiece?_break {c : Char} {cs : List Char} (h : c ≠ '\\') :
    contentPiece? (c :: cs ++ '\n' :: more) = contentPiece? (c :: cs) := by
  rw [List.cons_append]
  unfold contentPiece?
  split
  · next heq => exact absurd heq nofun
  · next heq => exact absurd (List.cons.inj heq).1 h
  · next heq =>
    obtain ⟨rfl, -⟩ := List.cons.inj heq
    simp

/-- Where no escape begins, a character that is not closed is not closed by the next line. -/
theorem character?_break {lead : Nat} {flags : TokenFlags} {c : Char} {cs : List Char}
    (h : c ≠ '\\') :
    character? lead flags (c :: cs ++ '\n' :: more) = character? lead flags (c :: cs) := by
  have hcontent : contentPiece? (c :: cs ++ '\n' :: more) = contentPiece? (c :: cs) :=
    contentPiece?_break h
  have hone {kind : Kind} {length : Nat} (hc : contentPiece? (c :: cs) = some (kind, length)) :
      length = 1 := by
    unfold contentPiece? at hc
    split at hc
    · exact absurd hc nofun
    · next heq => exact absurd (List.cons.inj heq).1 h
    · split at hc
      · exact absurd hc nofun
      · exact (Prod.mk.inj (Option.some.inj hc)).2.symm
  unfold character?
  rw [hcontent]
  split
  · rfl
  · next kind length hc =>
    obtain rfl := hone hc
    have hquote : (c :: cs ++ '\n' :: more)[1]? = some '\'' ↔ (c :: cs)[1]? = some '\'' :=
      Text.getElem?_break (by simp) (by decide)
    simp only [hquote]

/-- A character that is closed is so whatever follows. -/
theorem character?_of_closed {lead : Nat} {flags : TokenFlags} {cs : List Char} {l : Lexeme}
    (h : character? lead flags cs = some l) :
    character? lead flags (cs ++ '\n' :: more) = some l := by
  cases cs with
  | nil => simp [character?, contentPiece?] at h
  | cons c cs =>
    by_cases hc : c = '\\'
    · subst hc
      -- the quote stands behind the escape
      have hle : (Escape.scan false cs).length ≤ cs.length := by
        simp only [character?, contentPiece?, Escape.piece] at h
        split at h
        · next hclose =>
          obtain ⟨hlt, -⟩ := List.getElem?_eq_some_iff.1 hclose
          simp only [List.length_cons] at hlt
          omega
        · cases h
      have hle' : (Escape.scan false cs).piece.2 ≤ ('\\' :: cs).length := by
        simp only [Escape.piece, List.length_cons]
        omega
      have hquote : ('\\' :: (cs ++ '\n' :: more))[(Escape.scan false cs).piece.2]? = some '\'' ↔
          ('\\' :: cs)[(Escape.scan false cs).piece.2]? = some '\'' :=
        Text.getElem?_break hle' (by decide)
      simp only [List.cons_append, character?, contentPiece?, Escape.scan_break hle, hquote] at h ⊢
      exact h
    · rw [character?_break hc, h]

/-- A character after a prefix, if it is closed. -/
theorem prefixed_break {flags : TokenFlags} {cs : List Char} (h : (prefixed flags cs).fault = none) :
    prefixed flags (cs ++ '\n' :: more) = prefixed flags cs := by
  unfold prefixed at h ⊢
  cases hclosed : character? 1 flags cs with
  | none => simp [hclosed, unclosed] at h
  | some l =>
    rw [character?_of_closed hclosed]
    rfl

theorem scan?_break {admitted : Admitted} {cs : List Char}
    (h : ∀ l, scan? admitted cs = some l → l.fault = none) :
    scan? admitted (cs ++ '\n' :: more) = scan? admitted cs := by
  have hname : Text.identifierPrefix (cs ++ '\n' :: more) = Text.identifierPrefix cs :=
    Text.identifierPrefix_break cs
  have hle : (Text.identifierPrefix cs).length ≤ cs.length := Lexeme.length_identifierPrefix_le cs
  have hquote : ((cs ++ '\n' :: more)[(Text.identifierPrefix cs).length]? != some '\'') =
      (cs[(Text.identifierPrefix cs).length]? != some '\'') := by
    rw [Bool.eq_iff_iff]
    simp only [bne_iff_ne, ne_eq, Text.getElem?_break hle (by decide : '\'' ≠ '\n')]
  unfold scan? at h ⊢
  simp only [hname, hquote] at h ⊢
  split
  · rfl
  · next hno =>
    rw [if_neg hno] at h
    split
    · rfl
    · next hchar =>
      rw [if_neg hchar] at h
      cases hclosed : character? 0 {} cs with
      | some l => rw [character?_of_closed hclosed]
      | none =>
        -- a name that is no character is a lifetime, which no escape begins
        rw [hclosed] at h
        have hlifetime : (admitted.lifetime && !(Text.identifierPrefix cs).isEmpty) = true := by
          by_contra hno'
          have := h _ (if_neg hno')
          simp [unclosed] at this
        have hopen : character? 0 {} (cs ++ '\n' :: more) = none := by
          cases cs with
          | nil => simp [Text.identifierPrefix] at hlifetime
          | cons c cs =>
            have hc : c ≠ '\\' := by
              rintro rfl
              have hstart : Text.isIdentifierStart '\\' = false := by decide
              simp [Text.identifierPrefix, hstart] at hlifetime
            rw [character?_break hc, hclosed]
        simp only [hopen, hlifetime, if_true]

end QuoteMark

/-! ### Numbers -/

namespace Number

theorem digitRun_break {base : Nat} (cs : List Char) :
    digitRun base (cs ++ '\n' :: more) = digitRun base cs :=
  Text.takeWhile_break (by simp [isDigitOrSeparator, Text.isHexDigit]) cs

theorem based_break {base : Nat} {flags : TokenFlags} (cs : List Char) :
    based base flags (cs ++ '\n' :: more) = based base flags cs := by
  unfold based
  rw [digitRun_break]

theorem fractionPieces_break (cs : List Char) :
    fractionPieces (cs ++ '\n' :: more) = fractionPieces cs := by
  cases cs with
  | nil => rfl
  | cons c cs =>
    by_cases hc : c = '.'
    · subst hc
      cases cs with
      | nil => rfl
      | cons d cs =>
        have hrun : digitRun 10 (d :: (cs ++ '\n' :: more)) = digitRun 10 (d :: cs) :=
          digitRun_break (d :: cs)
        simp only [List.cons_append, fractionPieces, List.head?_cons, hrun]
        rfl
    · rw [List.cons_append]
      unfold fractionPieces
      simp [hc]

theorem exponentPieces_break (cs : List Char) :
    exponentPieces (cs ++ '\n' :: more) = exponentPieces cs := by
  cases cs with
  | nil => rfl
  | cons c cs =>
    cases cs with
    | nil =>
      have hrun : (digitRun 10 ('\n' :: more)).any Char.isDigit = false := by
        rw [show digitRun 10 ('\n' :: more) = [] from digitRun_break []]
        rfl
      have hnone : (digitRun 10 []).any Char.isDigit = false := rfl
      simp [exponentPieces, hrun, hnone]
    | cons d cs =>
      have hrun (n : Nat) (hn : n ≤ 1) : digitRun 10 ((d :: (cs ++ '\n' :: more)).drop n) =
          digitRun 10 ((d :: cs).drop n) := by
        rw [← List.cons_append, List.drop_append_of_le_length (by simp; omega), digitRun_break]
      -- which sign it is plays no part
      suffices h : ∀ sign ≤ 1,
          (if (digitRun 10 ((d :: (cs ++ '\n' :: more)).drop sign)).any Char.isDigit then
            [(Kind.exponent,
              sign + (digitRun 10 ((d :: (cs ++ '\n' :: more)).drop sign)).length + 1)]
          else []) =
          if (digitRun 10 ((d :: cs).drop sign)).any Char.isDigit then
            [(Kind.exponent, sign + (digitRun 10 ((d :: cs).drop sign)).length + 1)]
          else [] by
        have hsign : (if some d == some '+' || some d == some '-' then 1 else 0) ≤ 1 := by
          split <;> omega
        dsimp only [List.cons_append, exponentPieces, List.head?_cons]
        split
        · exact h _ hsign
        · rfl
      intro sign hs
      rw [hrun sign hs]

theorem decimal_break {float : Bool} (cs : List Char) :
    decimal float (cs ++ '\n' :: more) = decimal float cs := by
  have hle : (digitRun 10 cs).length ≤ cs.length := Lexeme.length_takeWhile_le _ _
  have hdrop : (cs ++ '\n' :: more).drop (digitRun 10 cs).length =
      cs.drop (digitRun 10 cs).length ++ '\n' :: more := List.drop_append_of_le_length hle
  have hpart : lengthOf (if float then fractionPieces (cs.drop (digitRun 10 cs).length) else []) ≤
      (cs.drop (digitRun 10 cs).length).length := by
    cases float with
    | false => exact Nat.zero_le _
    | true => exact (Lexeme.fraction_part _).le
  have hdrop' (n : Nat) (hn : n ≤ (cs.drop (digitRun 10 cs).length).length) :
      (cs ++ '\n' :: more).drop ((digitRun 10 cs).length + n) =
        cs.drop ((digitRun 10 cs).length + n) ++ '\n' :: more := by
    rw [List.length_drop] at hn
    exact List.drop_append_of_le_length (by omega)
  simp only [decimal, digitRun_break, hdrop, fractionPieces_break, hdrop' _ hpart,
    exponentPieces_break]

theorem scan_break {float : Bool} {cs : List Char} (h : cs ≠ []) :
    scan float (cs ++ '\n' :: more) = scan float cs := by
  fun_cases scan float cs with
  | case1 rest => exact based_break rest
  | case2 rest => exact based_break rest
  | case3 rest => exact based_break rest
  | case4 cs hx ho hb =>
    have hbase {d : Char} (hd : d ≠ '\n') (hcs : ∀ rest, cs = '0' :: d :: rest → False)
        (rest : List Char) (he : cs ++ '\n' :: more = '0' :: d :: rest) : False := by
      obtain ⟨cs', rfl⟩ := Text.exists_cons_of_break (by decide) he
      obtain ⟨rest', rfl⟩ := Text.exists_cons_of_break hd (List.cons.inj he).2
      exact hcs rest' rfl
    rw [scan.eq_4 _ _ (hbase (by decide) hx) (hbase (by decide) ho) (hbase (by decide) hb)]
    exact decimal_break cs

end Number

/-! ### Any lexeme -/

namespace Lexeme

theorem ne_break_of_mem_marks {m : List Char × Kind} (h : m ∈ marks) : '\n' ∉ m.1 := by
  have hall : marks.all (fun m => !m.1.contains '\n') = true := by decide +kernel
  simpa using List.all_eq_true.1 hall m h

theorem mark?_break (cs : List Char) : mark? (cs ++ '\n' :: more) = mark? cs := by
  unfold mark?
  have hfind (ms : List (List Char × Kind)) (hms : ∀ m ∈ ms, '\n' ∉ m.1) :
      ms.find? (·.1.isPrefixOf (cs ++ '\n' :: more)) = ms.find? (·.1.isPrefixOf cs) := by
    induction ms with
    | nil => rfl
    | cons m ms ih =>
      rw [List.find?_cons, List.find?_cons, Text.isPrefixOf_break (hms m List.mem_cons_self),
        ih fun m' hm' => hms m' (List.mem_cons_of_mem m hm')]
  rw [hfind marks fun m hm => ne_break_of_mem_marks hm]

theorem rawName?_break (cs : List Char) : rawName? (cs ++ '\n' :: more) = rawName? cs := by
  fun_cases rawName? cs with
  | case1 cs text h =>
    have h' : (Text.identifierPrefix (cs ++ '\n' :: more)).isEmpty = true := by
      rwa [Text.identifierPrefix_break]
    exact if_pos h'
  | case2 cs text h =>
    simp only [List.cons_append, rawName?, Text.identifierPrefix_break]
    exact if_neg h
  | case3 cs hraw =>
    refine rawName?.eq_2 _ fun rest he => ?_
    obtain ⟨cs', rfl⟩ := Text.exists_cons_of_break (by decide) he
    obtain ⟨rest', rfl⟩ := Text.exists_cons_of_break (by decide) (List.cons.inj he).2
    exact hraw rest' rfl

theorem word_break (cs : List Char) : word (cs ++ '\n' :: more) = word cs := by
  unfold word
  rw [Text.identifierPrefix_break]

theorem dollar_break (cs : List Char) : dollar (cs ++ '\n' :: more) = dollar cs := by
  unfold dollar
  rw [Text.identifierPrefix_break]

/-- Where no suffix is read, the class of suffixes plays no part. -/
theorem contextual?_withoutSuffix [Text.Xid] {admitted : Admitted} {cs : List Char}
    (h : admitted.literalSuffix = true → Text.identifierPrefix cs = []) :
    contextual? admitted cs = contextual? admitted.withoutSuffix cs := by
  have hnone : (if admitted.literalSuffix then Text.identifierPrefix cs else []) = [] := by
    split
    · next hs => exact h hs
    · rfl
  unfold contextual?
  simp only [hnone]
  rfl

/-- A literal or a comment without a fault is the same before a line break, and where there is none,
a line break makes none. -/
theorem contextual?_break_of_noSuffix {admitted : Admitted} {cs : List Char}
    (ha : admitted.literalSuffix = false) (hne : cs ≠ [])
    (h : ∀ l, contextual? admitted cs = some l → l.fault = none) :
    contextual? admitted (cs ++ '\n' :: more) = contextual? admitted cs := by
  have honly {admits : Bool} {l l' : Lexeme} (heq : l.fault = none → l' = l)
      (hl : ∀ x, onlyIf admits l = some x → x.fault = none) :
      onlyIf admits l' = onlyIf admits l := by
    cases admits with
    | false => rfl
    | true => rw [heq (hl l rfl)]
  fun_cases contextual? admitted cs
  case case1 suffix hsuffix =>
    have hnil : suffix = [] := if_neg (by simp [ha])
    rw [hnil] at hsuffix
    exact absurd hsuffix nofun
  case case15 c tail h1 h2 h3 h4 h5 h6 h7 h8 h9 h10 hdigit suffix hsuffix =>
    rw [List.cons_append, contextual?.eq_11 _ _ _ (Text.not_cons_break (by decide) h1)
      (Text.not_cons_break (by decide) h2) h3 h4 h5 (Text.not_cons_break (by decide) h6)
      (Text.not_cons_break (by decide) h7) (Text.not_cons_break (by decide) h8)
      (Text.not_cons_break (by decide) h9) (Text.not_cons_break (by decide) h10)]
    simp only [ha, Bool.false_eq_true, if_false, List.isEmpty_nil, Bool.not_true, hdigit, if_true]
    rw [← List.cons_append, Number.scan_break hne]
  case case16 c tail h1 h2 h3 h4 h5 h6 h7 h8 h9 h10 hdigit suffix hsuffix =>
    rw [List.cons_append, contextual?.eq_11 _ _ _ (Text.not_cons_break (by decide) h1)
      (Text.not_cons_break (by decide) h2) h3 h4 h5 (Text.not_cons_break (by decide) h6)
      (Text.not_cons_break (by decide) h7) (Text.not_cons_break (by decide) h8)
      (Text.not_cons_break (by decide) h9) (Text.not_cons_break (by decide) h10)]
    simp only [ha, Bool.false_eq_true, if_false, List.isEmpty_nil, Bool.not_true, hdigit]
  case case17 => exact absurd rfl hne
  all_goals
    simp only [List.cons_append, contextual?, ha, Bool.false_eq_true, if_false, List.isEmpty_nil,
      Bool.not_true] at h ⊢
  · exact honly (fun _ => Comment.line_break ('/' :: '/' :: _)) h
  · exact honly Comment.block_break h
  · exact QuoteMark.scan?_break h
  · exact honly StringLiteral.scan_break h
  · rw [if_pos ‹_›] at h ⊢
    exact StringLiteral.scanRaw?_break h
  · exact if_neg ‹_›
  · exact honly QuoteMark.prefixed_break h
  · exact honly StringLiteral.scan_break h
  · exact honly StringLiteral.scan_break h
  · rw [if_pos ‹_›] at h ⊢
    exact StringLiteral.scanRaw?_break h
  · exact if_neg ‹_›
  · rw [if_pos ‹_›] at h ⊢
    exact StringLiteral.scanRaw?_break h
  · exact if_neg ‹_›

/-- A context-sensitive lexeme without a fault is the same at the end of a text and before a line
break, and where there is none, a line break makes none. -/
theorem contextual?_break {admitted : Admitted} {cs : List Char} (hne : cs ≠ [])
    (h : ∀ l, contextual? admitted cs = some l → l.fault = none) :
    contextual? admitted (cs ++ '\n' :: more) = contextual? admitted cs := by
  by_cases hs : admitted.literalSuffix = true ∧ Text.identifierPrefix cs ≠ []
  · obtain ⟨hs, hprefix⟩ := hs
    have hsuffix : (!(Text.identifierPrefix cs).isEmpty) = true := by
      simpa [List.isEmpty_iff] using hprefix
    unfold contextual?
    simp only [hs, if_true, Text.identifierPrefix_break, hsuffix]
  · have hs' (hl : admitted.literalSuffix = true) : Text.identifierPrefix cs = [] := by
      by_contra hprefix
      exact hs ⟨hl, hprefix⟩
    rw [contextual?_withoutSuffix hs'] at h ⊢
    rw [contextual?_withoutSuffix fun hl => (Text.identifierPrefix_break cs).trans (hs' hl)]
    exact contextual?_break_of_noSuffix rfl hne h

/-- A word, or a literal with a prefix and without a fault. -/
theorem wordOrLiteral_break {admitted : Admitted} {c : Char} {cs : List Char}
    (h : (wordOrLiteral contextual? admitted (c :: cs)).fault = none) :
    wordOrLiteral contextual? admitted (c :: (cs ++ '\n' :: more)) =
      wordOrLiteral contextual? admitted (c :: cs) := by
  have hraw : rawName? (c :: (cs ++ '\n' :: more)) = rawName? (c :: cs) := rawName?_break (c :: cs)
  have hword : word (c :: (cs ++ '\n' :: more)) = word (c :: cs) := word_break (c :: cs)
  by_cases hletter : c = 'r' ∨ c = 'b' ∨ c = 'c'
  · have hread (ds : List Char) : wordOrLiteral contextual? admitted (c :: ds) =
        (contextual? admitted (c :: ds) <|> rawName? (c :: ds)).getD (word (c :: ds)) := by
      rcases hletter with rfl | rfl | rfl <;> rfl
    have hliteral : contextual? admitted (c :: cs ++ '\n' :: more) =
        contextual? admitted (c :: cs) := by
      refine contextual?_break nofun fun l hl => ?_
      rw [hread, hl] at h
      exact h
    rw [List.cons_append] at hliteral
    rw [hread, hread, hliteral, hraw, hword]
  · have hread (ds : List Char) : wordOrLiteral contextual? admitted (c :: ds) =
        (rawName? (c :: ds)).getD (word (c :: ds)) := by
      simp only [not_or] at hletter
      unfold wordOrLiteral
      split
      all_goals try next heq => exact absurd (List.cons.inj heq).1 (by tauto)
      rfl
    rw [hread, hread, hraw, hword]

/-- **A lexeme without a fault** is the same at the end of a text and before a line break. -/
theorem next_break {admitted : Admitted} {cs : List Char} (hne : cs ≠ [])
    (h : (next contextual? admitted cs).fault = none) :
    next contextual? admitted (cs ++ '\n' :: more) = next contextual? admitted cs := by
  have hmark : mark? (cs ++ '\n' :: more) = mark? cs := mark?_break cs
  obtain ⟨c, cs, rfl⟩ := List.exists_cons_of_ne_nil hne
  -- where a literal may begin and is read, it has no fault
  have hliteral {l : Lexeme} (hl : ((contextual? admitted (c :: cs)).getD l).fault = none) :
      contextual? admitted (c :: cs ++ '\n' :: more) = contextual? admitted (c :: cs) := by
    refine contextual?_break hne fun l' hl' => ?_
    rwa [hl'] at hl
  rw [List.cons_append] at hmark hliteral ⊢
  unfold next at h ⊢
  rw [hmark]
  cases hm : mark? (c :: cs) with
  | some l => rfl
  | none =>
    rw [hm] at h
    by_cases hdollar : c = '$'
    · subst hdollar
      exact dollar_break cs
    · by_cases hquote : c = '\''
      · subst hquote
        simp only at h ⊢
        rw [hliteral h]
      · by_cases hnumber : (c = '"' || c.isDigit) = true
        · simp only [hnumber, if_true] at h ⊢
          rw [hliteral h]
        · simp only [hnumber, Bool.false_eq_true, if_false] at h ⊢
          exact wordOrLiteral_break h

end Lexeme

end ConcreteSyntax
