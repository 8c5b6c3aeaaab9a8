import ConcreteSyntax.Proofs.Token.Pieces

/-! # Numerals are read whole

A numeral is a row of decimal digits, an integer with a base, or a float, and it is read as one token
that ends where it does. A point that stands before another point or a name is left alone, whatever
number stands before it. Both are in `Numeral.readAt_numeral`. -/

namespace ConcreteSyntax

open Text (byteLength)
open Lexeme (EndsName)

/-! ### Numerals -/

/-- A decimal digit, and the digits and separators behind it. -/
structure DigitRow where
  first : Char
  more : List Char
  isDigit : first.isDigit = true
  isDigits : ∀ c ∈ more, c.isDigit = true ∨ c = '_'

/-- The characters of a row of digits. -/
def DigitRow.text (d : DigitRow) : List Char := d.first :: d.more

/-- The bases that a numeral names. -/
inductive NumberBase where
  | binary | octal | hexadecimal

namespace NumberBase

/-- The number of digits of a base. -/
def radix : NumberBase → Nat
  | .binary => 2
  | .octal => 8
  | .hexadecimal => 16

/-- The letter that names a base. -/
def letter : NumberBase → Char
  | .binary => 'b'
  | .octal => 'o'
  | .hexadecimal => 'x'

/-- The digits of a base. -/
def digits : NumberBase → List Char
  | .binary => "01".toList
  | .octal => "01234567".toList
  | .hexadecimal => "0123456789abcdefABCDEF".toList

/-- How a base is marked on the token. -/
def flags : NumberBase → TokenFlags
  | .binary => { binary := true }
  | .octal => { octal := true }
  | .hexadecimal => { hexadecimal := true }

end NumberBase

/-- An exponent: its letter, a sign or none, and digits and separators with a digit among them. -/
structure DecimalExponent where
  letter : Char
  sign : List Char
  digits : List Char
  isLetter : letter = 'e' ∨ letter = 'E'
  isSign : sign = [] ∨ sign = ['+'] ∨ sign = ['-']
  isDigits : ∀ c ∈ digits, c.isDigit = true ∨ c = '_'
  hasDigit : digits.any Char.isDigit = true

/-- The characters of an exponent. -/
def DecimalExponent.text (e : DecimalExponent) : List Char := e.letter :: (e.sign ++ e.digits)

/-- A numeral without a suffix. -/
inductive Numeral where
  | decimal (whole : DigitRow)
  /-- A base and its digits and separators, with a digit among them. -/
  | based (base : NumberBase) (digits : List Char)
      (isDigits : ∀ c ∈ digits, c ∈ base.digits ∨ c = '_') (hasDigit : digits.any (· != '_') = true)
  | point (whole : DigitRow)
  | fraction (whole part : DigitRow)
  | scientific (whole : DigitRow) (part : Option DigitRow) (exponent : DecimalExponent)

namespace Numeral

/-- The characters of a numeral. -/
def text : Numeral → List Char
  | .decimal whole => whole.text
  | .based base digits _ _ => '0' :: base.letter :: digits
  | .point whole => whole.text ++ ['.']
  | .fraction whole part => whole.text ++ '.' :: part.text
  | .scientific whole none exponent => whole.text ++ exponent.text
  | .scientific whole (some part) exponent => whole.text ++ '.' :: (part.text ++ exponent.text)

/-- The parts that a numeral is made of. A decimal integer is not taken apart. -/
def parts : Numeral → List (Kind × List Char)
  | .decimal _ => []
  | .based base digits _ _ => [(.radixPrefix, ['0', base.letter]), (.digits, digits)]
  | .point whole => [(.digits, whole.text), (.decimalPoint, ['.'])]
  | .fraction whole part =>
    [(.digits, whole.text), (.decimalPoint, ['.']), (.digits, part.text)]
  | .scientific whole none exponent => [(.digits, whole.text), (.exponent, exponent.text)]
  | .scientific whole (some part) exponent =>
    [(.digits, whole.text), (.decimalPoint, ['.']), (.digits, part.text),
      (.exponent, exponent.text)]

/-- Whether a numeral has a point or an exponent. -/
def isFloat : Numeral → Bool
  | .decimal _ | .based .. => false
  | .point _ | .fraction .. | .scientific .. => true

/-- Whether a numeral ends in its point. -/
def endsInPoint : Numeral → Bool
  | .point _ => true
  | _ => false

/-- How the parts of a numeral are marked on its token. -/
def flags : Numeral → TokenFlags
  | .decimal _ => {}
  | .based base .. => base.flags
  | .point _ | .fraction .. => { fraction := true }
  | .scientific _ part _ => { fraction := part.isSome, scientific := true }

/-- The token of a numeral that begins at an offset. -/
def token (n : Numeral) (offset : Nat) : Token where
  kind := if n.isFloat then .floatToken else .integerToken
  range := ⟨offset, offset + byteLength n.text⟩
  flags := n.flags
  pieces := Piece.row offset n.parts

/-- The parts of a numeral are its characters. -/
theorem flatMap_parts (n : Numeral) : n.parts = [] ∨ n.parts.flatMap (·.2) = n.text := by
  cases n with
  | decimal whole => exact .inl rfl
  | based | point | fraction => right; simp [parts, text]
  | scientific whole part exponent => cases part <;> right <;> simp [parts, text]

/-- The kinds of the parts. -/
def partKinds : List Kind := [.radixPrefix, .digits, .decimalPoint, .exponent]

theorem mem_parts (n : Numeral) : ∀ w ∈ n.parts, w.1 ∈ partKinds ∧ w.2 ≠ [] := by
  have hrow (d : DigitRow) : d.text ≠ [] := nofun
  have hexponent (e : DecimalExponent) : e.text ≠ [] := nofun
  cases n with
  | decimal whole => exact nofun
  | based base digits _ hasDigit =>
    have hdigits : digits ≠ [] := by
      rintro rfl
      exact nomatch hasDigit
    simp [parts, partKinds, hdigits]
  | point | fraction => simp [parts, partKinds, hrow]
  | scientific whole part exponent => cases part <;> simp [parts, partKinds, hrow, hexponent]

/-- The lexeme of a numeral. -/
def lexeme (n : Numeral) : Lexeme where
  kind := if n.isFloat then .floatToken else .integerToken
  length := n.text.length
  flags := n.flags
  pieces := Lexeme.counts n.parts

open Lexeme (placePieces placePieces_words) in
/-- The lexeme of a numeral makes its token. -/
theorem place_lexeme (n : Numeral) (offset : Nat) (rest : List Char) :
    n.lexeme.place offset (n.text ++ rest) = n.token offset := by
  have hpieces : placePieces offset (n.text ++ rest) n.lexeme.pieces =
      Piece.row offset n.parts := by
    rcases n.flatMap_parts with h | h
    · simp [lexeme, h, placePieces, Piece.row]
    · rw [← h]
      exact placePieces_words offset n.parts rest
  have hfaults : (Piece.row offset n.parts).filterMap Lexeme.pieceFault? = [] := by
    refine List.filterMap_eq_nil_iff.2 fun p hp => ?_
    have hkind : p.kind ∈ (Piece.row offset n.parts).map (·.kind) := List.mem_map_of_mem hp
    rw [← hpieces, Lexeme.map_kind_placePieces] at hkind
    simp only [lexeme, List.map_map, List.mem_map, Function.comp_apply] at hkind
    obtain ⟨w, hw, hkind⟩ := hkind
    have hread : ∀ k ∈ partKinds, k ≠ .errorSentinel := by decide
    exact if_neg (hkind ▸ hread _ (n.mem_parts w hw).1)
  unfold Lexeme.place
  simp only [hpieces, hfaults]
  simp [lexeme, token]

end Numeral

/-! ### Reading a numeral -/

/-- A text that neither goes on with the digits before it nor makes a base of them. -/
def EndsDigits (rest : List Char) : Prop :=
  ∀ c, rest.head? = some c →
    Number.isDigitOrSeparator 10 c = false ∧ c ∉ ['x', 'o', 'b']

theorem Lexeme.EndsName.endsDigits {rest : List Char} (h : EndsName rest) : EndsDigits rest := by
  refine fun c hc => ⟨h.isDigitOrSeparator c hc, fun hmem => ?_⟩
  have hpart : ['x', 'o', 'b'].all Text.isIdentifierPart = true := by decide
  simpa [h c hc] using List.all_eq_true.1 hpart c hmem

theorem endsDigits_point (rest : List Char) : EndsDigits ('.' :: rest) := by
  rintro c hc
  obtain rfl := Option.some.inj hc
  decide

theorem DecimalExponent.endsDigits (e : DecimalExponent) (rest : List Char) :
    EndsDigits (e.text ++ rest) := by
  rintro c hc
  obtain rfl := Option.some.inj hc
  rcases e.isLetter with h | h <;> rw [h] <;> decide

theorem isDigitOrSeparator_of_or {c : Char} (h : c.isDigit = true ∨ c = '_') :
    Number.isDigitOrSeparator 10 c = true := by
  rcases h with h | rfl
  · exact Lexeme.isDigitOrSeparator_of_isDigit h
  · rfl

namespace DigitRow

variable (d : DigitRow) {rest : List Char}

theorem digitRun_text (h : EndsDigits rest) : Number.digitRun 10 (d.text ++ rest) = d.text := by
  refine Lexeme.digitRun_append (fun c hc => ?_) fun c hc => (h c hc).1
  rcases List.mem_cons.1 hc with rfl | hc
  · exact isDigitOrSeparator_of_or (.inl d.isDigit)
  · exact isDigitOrSeparator_of_or (d.isDigits c hc)

theorem scan_text (float : Bool) (h : EndsDigits rest) :
    Number.scan float (d.text ++ rest) = Number.decimal float (d.text ++ rest) := by
  refine Lexeme.scan_eq_decimal fun c hc => ?_
  cases hmore : d.more with
  | nil =>
    rw [hmore] at hc
    exact (h c hc).2
  | cons e more =>
    rw [hmore] at hc
    obtain rfl := Option.some.inj hc
    have hbase : ['x', 'o', 'b'].all (fun c => !Number.isDigitOrSeparator 10 c) = true := by decide
    intro hmem
    have hdigit := isDigitOrSeparator_of_or (d.isDigits e (by rw [hmore]; exact List.mem_cons_self))
    simpa [hdigit] using List.all_eq_true.1 hbase e hmem

end DigitRow

namespace Number

variable {rest : List Char}

/-- A point that no digit follows is a fraction alone. -/
theorem fractionPieces_point (h : ∀ c, rest.head? = some c →
    c ≠ '.' ∧ Text.isIdentifierStart c = false ∧ c.isDigit = false) :
    fractionPieces ('.' :: rest) = [(.decimalPoint, 1)] := by
  cases rest with
  | nil => rfl
  | cons c rest =>
    obtain ⟨hpoint, hname, hdigit⟩ := h c rfl
    simp [fractionPieces, hpoint, hname, hdigit]

theorem fractionPieces_digits (d : DigitRow) (h : EndsDigits rest) :
    fractionPieces ('.' :: (d.text ++ rest)) =
      [(.decimalPoint, 1), (.digits, d.text.length)] := by
  have hpoint : d.first ≠ '.' := fun hd => by simpa [hd] using d.isDigit
  have hname := Lexeme.isIdentifierStart_of_isDigit d.isDigit
  have hrun := d.digitRun_text h
  unfold DigitRow.text at hrun ⊢
  rw [List.cons_append] at hrun ⊢
  simp [fractionPieces, hpoint, hname, d.isDigit, hrun]

/-- A point before another point or a name is no fraction. -/
theorem fractionPieces_spared {c : Char} (h : c = '.' ∨ Text.isIdentifierStart c = true) :
    fractionPieces ('.' :: c :: rest) = [] := by
  rcases h with rfl | h
  · rfl
  · simp [fractionPieces, h]

theorem fractionPieces_eq_nil (h : rest.head? ≠ some '.') : fractionPieces rest = [] := by
  unfold fractionPieces
  split
  · exact absurd rfl h
  · rfl

/-- What stands before the digits of an exponent is taken for its sign. -/
theorem sign_eq (e : DecimalExponent) (rest : List Char) :
    (if (e.sign ++ (e.digits ++ rest)).head? == some '+' ||
        (e.sign ++ (e.digits ++ rest)).head? == some '-' then 1 else 0) = e.sign.length := by
  rcases e.isSign with h | h | h
  · -- without a sign a digit or a separator stands there
    rw [h, List.nil_append]
    cases hdigits : e.digits with
    | nil => simpa [hdigits] using e.hasDigit
    | cons d ds =>
      have hd := e.isDigits d (by rw [hdigits]; exact List.mem_cons_self)
      have hne : d ≠ '+' ∧ d ≠ '-' := by
        refine ⟨?_, ?_⟩
        · rintro rfl
          exact absurd hd (by decide)
        · rintro rfl
          exact absurd hd (by decide)
      simp [hne]
  · rw [h]
    rfl
  · rw [h]
    rfl

theorem exponentPieces_text (e : DecimalExponent) (h : EndsName rest) :
    exponentPieces (e.text ++ rest) = [(.exponent, e.text.length)] := by
  have hrun : digitRun 10 (e.digits ++ rest) = e.digits :=
    Lexeme.digitRun_append (fun c hc => isDigitOrSeparator_of_or (e.isDigits c hc))
      h.isDigitOrSeparator
  have hletter : (decide (e.letter = 'e') || decide (e.letter = 'E')) = true := by
    simp [e.isLetter]
  unfold DecimalExponent.text
  rw [List.cons_append, List.append_assoc]
  simp only [exponentPieces, hletter, sign_eq, List.drop_left, hrun, e.hasDigit, if_true,
    List.length_cons, List.length_append]

theorem exponentPieces_eq_nil (h : EndsName rest) : exponentPieces rest = [] := by
  cases rest with
  | nil => rfl
  | cons c rest =>
    have hc := h c rfl
    have he : ¬ (c = 'e' ∨ c = 'E') := by
      rintro (rfl | rfl)
      · exact absurd hc (by decide)
      · exact absurd hc (by decide)
    simp [exponentPieces, he]

/-- Digits before neither a fraction nor an exponent are an integer. -/
theorem scan_decimal {whole : DigitRow} {float : Bool} (h : EndsName rest)
    (hrest : fractionPieces rest = []) :
    scan float (whole.text ++ rest) = .plain .integerToken whole.text.length := by
  rw [whole.scan_text float h.endsDigits]
  unfold decimal
  rw [whole.digitRun_text h.endsDigits]
  simp [hrest, exponentPieces_eq_nil h, lengthOf]

/-- A float is read from the words that it is made of. -/
theorem scan_words {whole : DigitRow} {fs es : List (Kind × List Char)}
    (hstop : EndsDigits (fs.flatMap (·.2) ++ (es.flatMap (·.2) ++ rest)))
    (hfs : fractionPieces (fs.flatMap (·.2) ++ (es.flatMap (·.2) ++ rest)) =
      Lexeme.counts fs)
    (hes : exponentPieces (es.flatMap (·.2) ++ rest) = Lexeme.counts es)
    (hne : fs ≠ [] ∨ es ≠ []) :
    scan true (whole.text ++ (fs.flatMap (·.2) ++ (es.flatMap (·.2) ++ rest))) =
      { kind := .floatToken
        length := (((Kind.digits, whole.text) :: (fs ++ es)).flatMap (·.2)).length
        flags := { fraction := !fs.isEmpty, scientific := !es.isEmpty }
        pieces := Lexeme.counts ((Kind.digits, whole.text) :: (fs ++ es)) } := by
  have hlength (ws : List (Kind × List Char)) :
      lengthOf (Lexeme.counts ws) = (ws.flatMap (·.2)).length := by
    induction ws with
    | nil => rfl
    | cons w ws ih =>
      rw [List.flatMap_cons, List.length_append, ← ih]
      rfl
  rw [whole.scan_text true hstop]
  unfold decimal
  rw [whole.digitRun_text hstop]
  have hdrop : (whole.text ++ (fs.flatMap (·.2) ++ (es.flatMap (·.2) ++ rest))).drop
      (whole.text.length + lengthOf (Lexeme.counts fs)) =
        es.flatMap (·.2) ++ rest := by
    rw [hlength, ← List.drop_drop, List.drop_left, List.drop_left]
  have hfloat : ((Lexeme.counts fs).isEmpty &&
      (Lexeme.counts es).isEmpty) = false := by
    rcases hne with h | h <;> simp [h]
  simp only [List.drop_left, if_true, hfs, hdrop, hes, hfloat, Bool.false_eq_true, if_false]
  rw [← hlength]
  simp

end Number

namespace Numeral

open Number (fractionPieces exponentPieces_text exponentPieces_eq_nil fractionPieces_eq_nil
  fractionPieces_digits scan_decimal scan_words)

/-- **A numeral is read as far as it goes**, if what follows it neither goes on with it nor has a
point that belongs to it. -/
theorem scan_numeral {n : Numeral} {rest : List Char} {float : Bool} (hname : EndsName rest)
    (hrest : fractionPieces rest = [])
    (hpoint : n.endsInPoint = true → fractionPieces ('.' :: rest) = [(.decimalPoint, 1)])
    (hfloat : n.isFloat = true → float = true) : Number.scan float (n.text ++ rest) = n.lexeme := by
  have hexponent := exponentPieces_eq_nil hname
  cases n with
  | decimal whole => exact scan_decimal hname hrest
  | based base digits isDigits hasDigit =>
    have hdigit : ∀ c ∈ digits, Number.isDigitOrSeparator base.radix c = true := by
      have hall : base.digits.all (Number.isDigitOrSeparator base.radix) = true := by
        cases base <;> decide
      intro c hc
      rcases isDigits c hc with h | rfl
      · exact List.all_eq_true.1 hall c h
      · rfl
    have hrun : Number.digitRun base.radix (digits ++ rest) = digits :=
      Lexeme.digitRun_append hdigit hname.isDigitOrSeparator
    have hne : digits.isEmpty = false := by
      rw [List.isEmpty_eq_false_iff]
      rintro rfl
      exact nomatch hasDigit
    have hbased : Number.scan float ('0' :: base.letter :: (digits ++ rest)) =
        Number.based base.radix base.flags (digits ++ rest) := by
      cases base <;> rfl
    show Number.scan float ('0' :: base.letter :: (digits ++ rest)) = _
    rw [hbased]
    unfold Number.based
    simp [hrun, hne, hasDigit, lexeme, isFloat, text, flags, parts]
  | point whole =>
    obtain rfl := hfloat rfl
    have h := @scan_words rest whole [(.decimalPoint, ['.'])] [] (endsDigits_point rest) (hpoint rfl)
      hexponent (.inl nofun)
    have htext : (point whole).text ++ rest = whole.text ++ '.' :: rest := by simp [text]
    rw [htext]
    exact h.trans (by simp [lexeme, isFloat, text, flags, parts])
  | fraction whole part =>
    obtain rfl := hfloat rfl
    have hparts : fractionPieces ('.' :: (part.text ++ rest)) = _ :=
      fractionPieces_digits part hname.endsDigits
    have h := @scan_words rest whole [(.decimalPoint, ['.']), (.digits, part.text)] []
      (endsDigits_point _) (by simpa using hparts) hexponent (.inl nofun)
    have htext : (fraction whole part).text ++ rest = whole.text ++ '.' :: (part.text ++ rest) := by
      simp [text]
    rw [htext]
    simpa [lexeme, isFloat, text, flags, parts] using h
  | scientific whole part exponent =>
    obtain rfl := hfloat rfl
    have hstop := exponent.endsDigits rest
    have hexponent := exponentPieces_text exponent hname
    cases part with
    | none =>
      have hletter : (exponent.text ++ rest).head? ≠ some '.' := fun hc => by
        rcases exponent.isLetter with h | h <;> simp [DecimalExponent.text, h] at hc
      have h := @scan_words rest whole [] [(.exponent, exponent.text)] (by simpa using hstop)
        (by simpa using fractionPieces_eq_nil hletter) (by simpa using hexponent) (.inr nofun)
      simpa [lexeme, isFloat, text, flags, parts] using h
    | some part =>
      have h := @scan_words rest whole [(.decimalPoint, ['.']), (.digits, part.text)]
        [(.exponent, exponent.text)] (endsDigits_point _)
        (by simpa using fractionPieces_digits part hstop) (by simpa using hexponent) (.inl nofun)
      simpa [lexeme, isFloat, text, flags, parts] using h

end Numeral

/-! ### Points that are left alone -/

namespace Number

/-- A word and what follows it, so that no point of the word stands before another point or a name.
Unless floats are admitted, the word has no point at all. -/
def Spares (float : Bool) (word rest : List Char) : Prop :=
  (float = false → '.' ∉ word) ∧
    ∀ front back, word = front ++ '.' :: back → ∀ d, (back ++ rest).head? = some d →
      d ≠ '.' ∧ Text.isIdentifierStart d = false

theorem spares_of_notMem {float : Bool} {word rest : List Char} (h : '.' ∉ word) :
    Spares float word rest := by
  refine ⟨fun _ => h, fun front back hword => absurd ?_ h⟩
  rw [hword]
  exact List.mem_append_right _ List.mem_cons_self

theorem spares_point {whole tail rest : List Char} (hwhole : '.' ∉ whole) (htail : '.' ∉ tail)
    (h : ∀ d, (tail ++ rest).head? = some d → d ≠ '.' ∧ Text.isIdentifierStart d = false) :
    Spares true (whole ++ '.' :: tail) rest := by
  refine ⟨nofun, fun front back hword => ?_⟩
  obtain ⟨-, -, rfl⟩ := (List.append_cons_inj_of_notMem hwhole htail).1 hword
  exact h

theorem point_notMem_digits (base : Nat) (cs : List Char) :
    '.' ∉ cs.take (digitRun base cs).length := fun h => by
  have hdigit : isDigitOrSeparator base '.' = true := Text.of_mem_take_takeWhile h
  exact nomatch (show isDigitOrSeparator base '.' = false from rfl).symm.trans hdigit

theorem point_notMem_exponent (cs : List Char) :
    '.' ∉ cs.take (lengthOf (exponentPieces cs)) := by
  cases cs with
  | nil => exact List.not_mem_nil
  | cons c cs =>
    have hsign : '.' ∉ cs.take (if cs.head? == some '+' || cs.head? == some '-' then 1 else 0) := by
      split
      · next h =>
        cases cs with
        | nil => exact List.not_mem_nil
        | cons d cs =>
          have hd : d = '+' ∨ d = '-' := by simpa using h
          rcases hd with rfl | rfl <;> simp
      · exact List.not_mem_nil
    unfold exponentPieces
    simp only
    generalize (if cs.head? == some '+' || cs.head? == some '-' then 1 else 0) = sign at hsign ⊢
    split
    · next hletter =>
      split
      · have hdigits := point_notMem_digits 10 (cs.drop sign)
        have hc : '.' ≠ c := by
          rintro rfl
          exact nomatch hletter
        show '.' ∉ c :: cs.take (sign + (digitRun 10 (cs.drop sign)).length)
        rw [List.take_add, List.mem_cons, List.mem_append]
        exact fun h => h.elim hc fun h => h.elim hsign hdigits
      · exact List.not_mem_nil
    · exact List.not_mem_nil

/-- A fraction begins with the only point in it, before neither a point nor a name. -/
theorem fractionPieces_spares (cs : List Char) : fractionPieces cs = [] ∨
    ∃ more n, cs = '.' :: more ∧ lengthOf (fractionPieces cs) = n + 1 ∧ '.' ∉ more.take n ∧
      ∀ d, more.head? = some d → d ≠ '.' ∧ Text.isIdentifierStart d = false := by
  by_cases hpoint : cs.head? = some '.'
  · obtain ⟨more, rfl⟩ := List.head?_eq_some_iff.1 hpoint
    cases more with
    | nil => exact .inr ⟨[], 0, rfl, rfl, List.not_mem_nil, nofun⟩
    | cons d more =>
      by_cases hspared : d = '.' ∨ Text.isIdentifierStart d = true
      · exact .inl (fractionPieces_spared hspared)
      · obtain ⟨hpoint, hname⟩ : d ≠ '.' ∧ Text.isIdentifierStart d = false := by
          simpa using hspared
        have hhead : ∀ e, (d :: more).head? = some e →
            e ≠ '.' ∧ Text.isIdentifierStart e = false := by
          rintro e he
          obtain rfl := Option.some.inj he
          exact ⟨hpoint, hname⟩
        by_cases hdigit : d.isDigit = true
        · exact .inr ⟨d :: more, (digitRun 10 (d :: more)).length, rfl,
            by simp [fractionPieces, hpoint, hname, hdigit, lengthOf, Nat.add_comm],
            point_notMem_digits 10 _, hhead⟩
        · exact .inr ⟨d :: more, 0, rfl,
            by simp [fractionPieces, hpoint, hname, hdigit, lengthOf], List.not_mem_nil, hhead⟩
  · exact .inl (fractionPieces_eq_nil hpoint)

theorem length_decimal (float : Bool) (cs : List Char) :
    (decimal float cs).length = (digitRun 10 cs).length +
      if float then
        lengthOf (fractionPieces (cs.drop (digitRun 10 cs).length)) +
          lengthOf (exponentPieces (cs.drop ((digitRun 10 cs).length +
            lengthOf (fractionPieces (cs.drop (digitRun 10 cs).length)))))
      else 0 := by
  unfold decimal
  generalize (digitRun 10 cs).length = n
  cases float with
  | false => rfl
  | true =>
    simp only [if_true]
    generalize fractionPieces (cs.drop n) = fs
    generalize exponentPieces (cs.drop (n + lengthOf fs)) = es
    split
    · next h =>
      obtain ⟨hfs, hes⟩ := Bool.and_eq_true_iff.1 h
      rw [List.isEmpty_iff.1 hfs, List.isEmpty_iff.1 hes]
      rfl
    · exact congrArg (n + ·) (Lexeme.piecesLength_append fs es)

theorem spares_decimal (float : Bool) (cs : List Char) :
    Spares float (cs.take (decimal float cs).length) (cs.drop (decimal float cs).length) := by
  rw [length_decimal]
  have hwhole := point_notMem_digits 10 cs
  generalize (digitRun 10 cs).length = n at hwhole ⊢
  cases float with
  | false => exact spares_of_notMem hwhole
  | true =>
    simp only [if_true]
    rcases fractionPieces_spares (cs.drop n) with hnil | ⟨more, k, hmore, hk, hdigits, hspared⟩
    · have hexponent := point_notMem_exponent (cs.drop n)
      rw [hnil, show lengthOf [] = 0 from rfl, Nat.zero_add, Nat.add_zero]
      refine spares_of_notMem ?_
      rw [List.take_add, List.mem_append]
      exact fun h => h.elim hwhole hexponent
    · have hexponent := point_notMem_exponent (more.drop k)
      have hdrop (m : Nat) : cs.drop (n + (m + 1)) = more.drop m := by
        rw [← List.drop_drop, hmore, List.drop_succ_cons]
      rw [hk, hdrop]
      generalize lengthOf (exponentPieces (more.drop k)) = m at hexponent ⊢
      rw [Nat.add_right_comm k 1 m, hdrop, List.take_add, hmore, List.take_succ_cons]
      refine spares_point hwhole ?_ (by rwa [List.take_append_drop])
      rw [List.take_add, List.mem_append]
      exact fun h => h.elim hdigits hexponent

theorem spares_scan (float : Bool) (cs : List Char) :
    Spares float (cs.take (scan float cs).length) (cs.drop (scan float cs).length) := by
  have hbased (base : Nat) (flags : TokenFlags) {c d : Char} (hc : c ≠ '.') (hd : d ≠ '.')
      (rest : List Char) : '.' ∉ (c :: d :: rest).take (based base flags rest).length := by
    show '.' ∉ c :: d :: rest.take (digitRun base rest).length
    simp [hc.symm, hd.symm, point_notMem_digits]
  unfold scan
  split
  · exact spares_of_notMem (hbased 16 _ (by decide) (by decide) _)
  · exact spares_of_notMem (hbased 8 _ (by decide) (by decide) _)
  · exact spares_of_notMem (hbased 2 _ (by decide) (by decide) _)
  · exact spares_decimal float cs

end Number

/-- A token that a reader obtains at the front of `cs`: recognised there, scanned, or read again. -/
inductive Token.Obtained (admitted : Admitted) (offset : Nat) (cs : List Char) : Token → Prop
  | recognized {t : Token}
      (h : (Lexeme.contextual? admitted cs).map (·.place offset cs) = some t) :
      Obtained admitted offset cs t
  | scanned {s : Scanner} (h : s.here = { offset, rest := cs }) :
      Obtained admitted offset cs (s.scan Lexeme.contextual? admitted).token
  | rescanned {s : Scanner} (h : s.start = { offset, rest := cs }) :
      Obtained admitted offset cs (s.rescan Lexeme.contextual? admitted).token

namespace Numeral

open Number (Spares)
open Lexeme (contextual?)

/-- What is read where a digit stands: a number, or nothing that could be. -/
def digitLexeme (admitted : Admitted) (cs : List Char) : Lexeme :=
  (Lexeme.onlyIf admitted.integer (Number.scan admitted.float cs)).getD (.plain .errorSentinel 1)

theorem token_scan_digit {admitted : Admitted} {c : Char} (hc : c.isDigit = true) (cs : List Char)
    {s : Scanner} {offset : Nat} (hhere : s.here = { offset, rest := c :: cs }) :
    (s.scan contextual? admitted).token =
      (digitLexeme admitted (c :: cs)).place offset (c :: cs) := by
  have hblank : Text.isWhiteSpace c = false := by
    refine Bool.eq_false_iff.2 fun h => ?_
    simp only [Text.isWhiteSpace, Bool.or_eq_true, beq_iff_eq] at h
    rcases h with (((((((((rfl | rfl) | rfl) | rfl) | rfl) | rfl) | rfl) | rfl) | rfl) | rfl) | rfl
      <;> exact absurd hc (by decide)
  have hhash : c ≠ '#' := Lexeme.ne_of_isDigit hc rfl
  have hslash : c ≠ '/' := Lexeme.ne_of_isDigit hc rfl
  rw [Scanner.token_scan hblank hhash hslash (fun _ => ?_) hhere, Lexeme.next_digit_getD _ hc]
  · rfl
  · simp [Text.identifierPrefix, Lexeme.isIdentifierStart_of_isDigit hc]

theorem range_rescan_digit {admitted : Admitted} {c : Char} (hc : c.isDigit = true)
    (cs : List Char) {s : Scanner} {offset : Nat} (hstart : s.start = { offset, rest := c :: cs }) :
    (s.rescan contextual? admitted).token.range =
      ((digitLexeme admitted (c :: cs)).place offset (c :: cs)).range := by
  have hread : s.readToken contextual? admitted.withoutSuffix s.start =
      s.moveTo { offset, rest := c :: cs } (digitLexeme admitted (c :: cs)) := by
    rw [hstart]
    exact congrArg (s.moveTo _) (Lexeme.next_digit_getD _ hc)
  unfold Scanner.rescan
  rw [hread]
  unfold Scanner.markLineBreak
  split <;> rfl

/-- A number is read where integers are admitted. -/
theorem readAt_digit {admitted : Admitted} (hi : admitted.integer = true) {c : Char}
    (hc : c.isDigit = true) (cs : List Char) (offset : Nat) :
    Token.ReadAt admitted offset (c :: cs)
      ((Number.scan admitted.float (c :: cs)).place offset (c :: cs)) := by
  refine ⟨?_, fun s hhere => ?_⟩
  · rw [Lexeme.contextual?_digit admitted hc, hi]
    rfl
  · rw [token_scan_digit hc cs hhere, digitLexeme, hi]
    rfl

/-- A numeral begins with a digit. -/
theorem text_head (n : Numeral) : ∃ c more, n.text = c :: more ∧ c.isDigit = true := by
  cases n with
  | decimal whole | point whole | fraction whole => exact ⟨_, _, rfl, whole.isDigit⟩
  | based => exact ⟨_, _, rfl, rfl⟩
  | scientific whole part => cases part <;> exact ⟨_, _, rfl, whole.isDigit⟩

theorem readAt_text {admitted : Admitted} (hi : admitted.integer = true) {n : Numeral}
    {rest : List Char} (hname : EndsName rest) (hrest : Number.fractionPieces rest = [])
    (hpoint : n.endsInPoint = true → Number.fractionPieces ('.' :: rest) = [(.decimalPoint, 1)])
    (hfloat : n.isFloat = true → admitted.float = true) (offset : Nat) :
    Token.ReadAt admitted offset (n.text ++ rest) (n.token offset) := by
  obtain ⟨c, more, htext, hc⟩ := n.text_head
  have hread := readAt_digit hi hc (more ++ rest) offset
  rwa [← List.cons_append, ← htext, scan_numeral hname hrest hpoint hfloat, place_lexeme] at hread

/-- What is read where a digit stands leaves the points alone that belong to something else. -/
theorem spares_of_obtained {admitted : Admitted} {c : Char} (hc : c.isDigit = true) {cs : List Char}
    {offset : Nat} {t : Token} (ht : Token.Obtained admitted offset (c :: cs) t) :
    ∃ word rest, c :: cs = word ++ rest ∧ t.range = ⟨offset, offset + byteLength word⟩ ∧
      Spares admitted.float word rest := by
  have hrange : t.range = ((digitLexeme admitted (c :: cs)).place offset (c :: cs)).range := by
    cases ht with
    | recognized h =>
      rw [Lexeme.contextual?_digit admitted hc] at h
      obtain ⟨l, hl, rfl⟩ := Option.map_eq_some_iff.1 h
      rw [digitLexeme, hl]
      rfl
    | scanned h => rw [token_scan_digit hc cs h]
    | rescanned h => exact range_rescan_digit hc cs h
  refine ⟨_, _, (List.take_append_drop _ _).symm, hrange, ?_⟩
  unfold digitLexeme
  cases admitted.integer with
  | true => exact Number.spares_scan admitted.float (c :: cs)
  | false =>
    refine Number.spares_of_notMem ?_
    show '.' ∉ [c]
    rintro h
    obtain rfl := List.mem_singleton.1 h
    exact nomatch hc

/-- **Numerals are read whole, and points that do not belong to them are left alone.** Before a text
that goes on with no name and no point, a numeral is read as one token without a fault, whose pieces
are its parts and tile it. Before the point of a range or of a member, so is every numeral that ends
in no point. In whatever mode and wherever a digit stands, the token has no point before another
point or a name, and no point at all unless floats are admitted. -/
theorem readAt_numeral (admitted : Admitted) (offset : Nat) :
    (admitted.integer = true → admitted.float = true → ∀ (n : Numeral) (rest : List Char),
      (∀ c, rest.head? = some c →
        c.toNat < 0x80 ∧ c.isAlphanum = false ∧ c ≠ '_' ∧ c ≠ '.') →
      Token.ReadAt admitted offset (n.text ++ rest) (n.token offset) ∧
        ((n.token offset).pieces = [] ∨
          Pieces offset (n.token offset).pieces (n.token offset).range.stop)) ∧
    (admitted.integer = true → ∀ n : Numeral, (n.isFloat = true → admitted.float = true) →
      n.endsInPoint = false → ∀ (c : Char) (rest : List Char),
      c = '.' ∨ Text.isIdentifierStart c = true →
      Token.ReadAt admitted offset (n.text ++ '.' :: c :: rest) (n.token offset)) ∧
    ∀ (c : Char) (cs : List Char), c.isDigit = true → ∀ t : Token,
      Token.Obtained admitted offset (c :: cs) t →
      ∃ word rest, c :: cs = word ++ rest ∧ t.range = ⟨offset, offset + byteLength word⟩ ∧
        Spares admitted.float word rest := by
  refine ⟨fun hi hf n rest hrest => ⟨?_, ?_⟩, fun hi n hfloat hpoint c rest hc => ?_,
    fun c cs hc t ht => spares_of_obtained hc ht⟩
  · have hname : EndsName rest := fun c hc => by
      obtain ⟨hascii, halnum, hsep, -⟩ := hrest c hc
      simp [Text.isIdentifierPart, halnum, hsep, Nat.not_le.2 hascii]
    have hnone : Number.fractionPieces rest = [] :=
      Number.fractionPieces_eq_nil fun hc => (hrest _ hc).2.2.2 rfl
    refine readAt_text hi hname hnone (fun _ => Number.fractionPieces_point fun c hc => ?_)
      (fun _ => hf) offset
    obtain ⟨hascii, halnum, hsep, hpoint⟩ := hrest c hc
    obtain ⟨halpha, hdigit⟩ : c.isAlpha = false ∧ c.isDigit = false := by
      simpa [Char.isAlphanum] using halnum
    exact ⟨hpoint, by simp [Text.isIdentifierStart, halpha, hsep, Nat.not_le.2 hascii], hdigit⟩
  · have hkind : ∀ k ∈ partKinds, k.isPiece = true := by decide
    refine n.flatMap_parts.imp (fun h => ?_) fun h => ?_
    · simp only [token, h, Piece.row]
    · have hrow := Piece.pieces_row
        (fun w hw => ⟨hkind _ (n.mem_parts w hw).1, (n.mem_parts w hw).2⟩) offset
      rwa [h] at hrow
  · have hname : EndsName ('.' :: c :: rest) := by
      rintro d hd
      obtain rfl := Option.some.inj hd
      decide
    exact readAt_text hi hname (Number.fractionPieces_spared hc)
      (fun h => absurd (hpoint.symm.trans h) Bool.false_ne_true) hfloat offset

/-- A float with all its parts; the numbers of a range; an index behind an index. -/
theorem readAt_numeral_forms :
    (∃ t, Token.ReadAt .usual 0 "1_0.5e-3;".toList t ∧ t.kind = .floatToken ∧
      t.pieces = [⟨.digits, 0, 3⟩, ⟨.decimalPoint, 3, 4⟩, ⟨.digits, 4, 5⟩, ⟨.exponent, 5, 8⟩]) ∧
    Token.ReadAt .usual 0 "1..2".toList { kind := .integerToken, range := ⟨0, 1⟩ } ∧
    ∃ t, Token.Obtained .tupleIndex 2 "0.1".toList t ∧
      ∃ word rest, "0.1".toList = word ++ rest ∧ '.' ∉ word := by
  let whole : DigitRow := ⟨'1', ['_', '0'], rfl, by simp⟩
  let part : DigitRow := ⟨'5', [], rfl, nofun⟩
  let exponent : DecimalExponent := ⟨'e', ['-'], ['3'], .inl rfl, .inr (.inr rfl), by simp, rfl⟩
  have hfloat := ((readAt_numeral .usual 0).1 rfl rfl (.scientific whole (some part) exponent) [';']
    (by simp)).1
  have hrange := (readAt_numeral .usual 0).2.1 rfl (.decimal ⟨'1', [], rfl, nofun⟩) nofun rfl '.'
    ['2'] (.inl rfl)
  have hindex : Token.Obtained .tupleIndex 2 "0.1".toList _ :=
    .scanned (s := { (Scanner.ofText "0.1") with here := { offset := 2, rest := "0.1".toList } }) rfl
  obtain ⟨word, rest, hword, -, hspares⟩ :=
    (readAt_numeral .tupleIndex 2).2.2 '0' ['.', '1'] rfl _ hindex
  exact ⟨⟨_, hfloat, rfl, rfl⟩, hrange, _, hindex, word, rest, hword, hspares.1 rfl⟩

end Numeral

end ConcreteSyntax
