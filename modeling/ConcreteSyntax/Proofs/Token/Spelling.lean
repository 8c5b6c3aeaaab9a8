import ConcreteSyntax.Proofs.Token.Scanner
import Mathlib.Data.List.Basic

/-! # Tokens by their spelling

What the scanner reads where a mark, a word or a row of digits is known to stand. A mark is read
where no longer one begins (`Lexeme.next_mark`), a word where it ends (`Lexeme.next_word`), digits
where no point belongs to them (`Lexeme.next_digits`). The scanner only looks at the text that is
left (`Scanner.scan_eq`), so what it reads there is `Scanner.reading`. -/

namespace ConcreteSyntax

open Text (byteLength)

/-! ### Marks -/

namespace Lexeme

/-- Whether some mark begins with `word` and goes on with a character. -/
def extends? (word : List Char) (c : Char) : Bool :=
  marks.any fun m => (word ++ [c]).isPrefixOf m.1

/-- A mark that stands before another one in the table is not how that one begins. -/
theorem marks_pairwise : marks.Pairwise fun m m' => ¬ m.1 <+: m'.1 := by decide +kernel

/-- No character of a mark belongs to a name. -/
theorem not_isIdentifierPart_of_mark {m : List Char × Kind} (h : m ∈ marks) :
    ∀ c ∈ m.1, Text.isIdentifierPart c = false := by
  have hall : marks.all (fun m => m.1.all fun c => !Text.isIdentifierPart c) = true := by
    decide +kernel
  simp only [List.all_eq_true, Bool.not_eq_true'] at hall
  exact hall m h

theorem extends?_of_isIdentifierPart (word : List Char) {c : Char}
    (h : Text.isIdentifierPart c = true) : extends? word c = false := by
  refine List.any_eq_false.2 fun m hm hp => ?_
  have hmem : c ∈ m.1 := (List.isPrefixOf_iff_prefix.1 hp).subset (by simp)
  simp [not_isIdentifierPart_of_mark hm c hmem] at h

/-- A mark is read where no longer one begins. -/
theorem mark?_append {word rest : List Char} {kind : Kind} (hm : (word, kind) ∈ marks)
    (hrest : ∀ c, rest.head? = some c → extends? word c = false) :
    mark? (word ++ rest) = some (.plain kind word.length) := by
  obtain ⟨before, after, hsplit⟩ := List.append_of_mem hm
  refine Option.map_eq_some_iff.2 ⟨(word, kind), ?_, rfl⟩
  refine List.find?_eq_some_iff_append.2
    ⟨List.isPrefixOf_iff_prefix.2 (List.prefix_append _ _), before, after, hsplit, fun m hb => ?_⟩
  -- an earlier mark is no beginning of this one, so it would be a longer one
  have hshort : ¬ m.1 <+: word := by
    have hpair := marks_pairwise
    rw [hsplit, List.pairwise_append] at hpair
    exact hpair.2.2 m hb _ List.mem_cons_self
  refine Bool.not_eq_true' _ ▸ Bool.eq_false_iff.2 fun hp => ?_
  have hp := List.isPrefixOf_iff_prefix.1 hp
  rcases List.prefix_or_prefix_of_prefix hp (List.prefix_append word rest) with h | h
  · exact hshort h
  · obtain ⟨more, hmore⟩ := h
    rw [← hmore, List.prefix_append_right_inj] at hp
    cases more with
    | nil => exact hshort (by simp [← hmore])
    | cons c more =>
      obtain ⟨tail, rfl⟩ := hp
      have hext : extends? word c = true := by
        refine List.any_eq_true.2 ⟨m, hsplit ▸ List.mem_append_left _ hb, ?_⟩
        rw [List.isPrefixOf_iff_prefix, ← hmore]
        exact ⟨more, by simp⟩
      simp [hrest c rfl] at hext

/-- No mark begins where a name or a number does. -/
theorem mark?_eq_none {c : Char} {cs : List Char} (h : Text.isIdentifierPart c = true) :
    mark? (c :: cs) = none := by
  refine mark?_eq_none_of_head (fun m hm hhead => ?_) cs
  have := not_isIdentifierPart_of_mark hm c (List.mem_of_head? hhead)
  rw [h] at this
  exact nomatch this

theorem next_mark {word rest : List Char} {kind : Kind} {recognize : Recognizer}
    {admitted : Admitted} (hm : (word, kind) ∈ marks)
    (hrest : ∀ c, rest.head? = some c → extends? word c = false) :
    next recognize admitted (word ++ rest) = .plain kind word.length := by
  unfold next
  rw [mark?_append hm hrest]

/-! ### Words -/

/-- A text that does not go on with what would make a literal of the letters before it. -/
def Quiet (cs : List Char) : Prop :=
  ∀ c, cs.head? = some c → c ≠ '"' ∧ c ≠ '\'' ∧ c ≠ '#'

theorem quiet_append {word rest : List Char}
    (hw : ∀ c ∈ word, Text.isIdentifierPart c = true) (hr : Quiet rest) :
    Quiet (word ++ rest) := by
  intro c hc
  cases word with
  | nil => exact hr c hc
  | cons d word =>
    obtain rfl := Option.some.inj hc
    have hpart := hw d List.mem_cons_self
    refine ⟨?_, ?_, ?_⟩ <;>
    · rintro rfl
      exact absurd hpart (by decide)

theorem scanRaw?_eq_none {lead : Nat} {flags : TokenFlags} {cs : List Char} (h : Quiet cs) :
    StringLiteral.scanRaw? lead flags cs = none := by
  unfold StringLiteral.scanRaw?
  cases cs with
  | nil => rfl
  | cons c cs =>
    obtain ⟨hquote, -, hhash⟩ := h c rfl
    simp only [List.takeWhile_cons, beq_iff_eq, hhash, if_false, List.length_nil, List.drop_zero]
    split
    · next h => exact absurd (List.cons.inj h).1 hquote
    · rfl

/-- A word is what the scanner takes for one. -/
structure IsWord (word : List Char) : Prop where
  start : ∃ c cs, word = c :: cs ∧ Text.isIdentifierStart c = true
  part : ∀ c ∈ word, Text.isIdentifierPart c = true

theorem isWord_of_all {c : Char} {cs : List Char} (hstart : Text.isIdentifierStart c = true)
    (hpart : (c :: cs).all Text.isIdentifierPart = true) : IsWord (c :: cs) :=
  ⟨⟨c, cs, rfl, hstart⟩, List.all_eq_true.1 hpart⟩

/-- A text that does not go on as a name would. -/
def EndsName (rest : List Char) : Prop := ∀ c, rest.head? = some c → Text.isIdentifierPart c = false

theorem identifierPrefix_append {word rest : List Char} (hw : IsWord word) (hr : EndsName rest) :
    Text.identifierPrefix (word ++ rest) = word := by
  obtain ⟨c, cs, rfl, hstart⟩ := hw.start
  have htake : rest.takeWhile Text.isIdentifierPart = [] := by
    cases rest with
    | nil => rfl
    | cons d rest => simp [hr d rfl]
  simp only [List.cons_append, Text.identifierPrefix, hstart, if_true]
  rw [List.takeWhile_append_of_pos fun d hd => hw.part d (List.mem_cons_of_mem _ hd), htake,
    List.append_nil]

theorem isAlpha_iff (c : Char) : c.isAlpha = true ↔
    65 ≤ c.toNat ∧ c.toNat ≤ 90 ∨ 97 ≤ c.toNat ∧ c.toNat ≤ 122 := by
  have halpha : c.isAlpha = (decide ('A'.val ≤ c.val ∧ c.val ≤ 'Z'.val) ||
      (decide ('a'.val ≤ c.val) && decide (c.val ≤ 'z'.val))) := rfl
  rw [halpha]
  simp only [Bool.or_eq_true, Bool.and_eq_true, decide_eq_true_eq, UInt32.le_iff_toNat_le]
  rfl

theorem isDigit_iff (c : Char) : c.isDigit = true ↔ 48 ≤ c.toNat ∧ c.toNat ≤ 57 := by
  simp only [Char.isDigit, ge_iff_le, Bool.and_eq_true, decide_eq_true_eq, UInt32.le_iff_toNat_le]
  rfl

/-- A character that begins a name begins nothing else. -/
theorem ne_of_isIdentifierStart {c : Char} (h : Text.isIdentifierStart c = true) :
    c ≠ '$' ∧ c ≠ '\'' ∧ c ≠ '"' ∧ c ≠ '/' ∧ c.isDigit = false := by
  refine ⟨?_, ?_, ?_, ?_, ?_⟩
  · rintro rfl
    exact absurd h (by decide)
  · rintro rfl
    exact absurd h (by decide)
  · rintro rfl
    exact absurd h (by decide)
  · rintro rfl
    exact absurd h (by decide)
  · refine Bool.eq_false_iff.2 fun hd => ?_
    rw [isDigit_iff] at hd
    simp only [Text.isIdentifierStart, Bool.or_eq_true, Bool.and_eq_true, beq_iff_eq, isAlpha_iff,
      decide_eq_true_eq] at h
    rcases h with (rfl | h) | ⟨h, -⟩
    · exact absurd hd (by decide)
    · omega
    · omega

/-- No literal begins with a word that no quote or hash follows. -/
theorem contextual?_word {word rest : List Char} {admitted : Admitted}
    (ha : admitted.literalSuffix = false) (hw : IsWord word) (hr : EndsName rest) (hq : Quiet rest) :
    contextual? admitted (word ++ rest) = none := by
  obtain ⟨c, cs, rfl, hstart⟩ := hw.start
  obtain ⟨-, hquote, hstring, hslash, hdigit⟩ := ne_of_isIdentifierStart hstart
  have htail : Quiet (cs ++ rest) :=
    quiet_append (fun d hd => hw.part d (List.mem_cons_of_mem _ hd)) hq
  have hraw (more : List Char) (h : cs ++ rest = 'r' :: more) : Quiet more := by
    cases cs with
    | nil => exact absurd (hr 'r' (by rw [← List.nil_append rest, h]; rfl)) (by decide)
    | cons d cs =>
      rw [← (List.cons.inj h).2]
      exact quiet_append (fun e he => hw.part e (by simp [he])) hq
  unfold contextual?
  simp only [ha, Bool.false_eq_true, if_false, List.isEmpty_nil, Bool.not_true, List.cons_append]
  split
  · next h => exact absurd (List.cons.inj h).1 hslash
  · next h => exact absurd (List.cons.inj h).1 hslash
  · next h => exact absurd (List.cons.inj h).1 hquote
  · next h => exact absurd (List.cons.inj h).1 hstring
  · next h =>
    rw [← (List.cons.inj h).2, scanRaw?_eq_none htail, ite_self]
  · next h => exact absurd rfl (htail _ (by rw [(List.cons.inj h).2]; rfl)).2.1
  · next h => exact absurd rfl (htail _ (by rw [(List.cons.inj h).2]; rfl)).1
  · next h => exact absurd rfl (htail _ (by rw [(List.cons.inj h).2]; rfl)).1
  · next h => rw [scanRaw?_eq_none (hraw _ (List.cons.inj h).2), ite_self]
  · next h => rw [scanRaw?_eq_none (hraw _ (List.cons.inj h).2), ite_self]
  · next h =>
    obtain ⟨rfl, -⟩ := List.cons.inj h
    simp [hdigit]
  · rfl

/-- A word is read where it ends, unless what follows makes a literal of it. -/
theorem next_word {word rest : List Char} {admitted : Admitted}
    (ha : admitted.literalSuffix = false) (hw : IsWord word) (hr : EndsName rest) (hq : Quiet rest) :
    next contextual? admitted (word ++ rest) = .plain (wordKind word) word.length := by
  have hself := identifierPrefix_append hw hr
  have hliteral := contextual?_word ha hw hr hq
  obtain ⟨c, cs, rfl, hstart⟩ := hw.start
  obtain ⟨hdollar, hquote, hstring, -, hdigit⟩ := ne_of_isIdentifierStart hstart
  have htail : Quiet (cs ++ rest) :=
    quiet_append (fun d hd => hw.part d (List.mem_cons_of_mem _ hd)) hq
  have hraw : rawName? (c :: cs ++ rest) = none := by
    unfold rawName?
    split
    · next h =>
      have h : cs ++ rest = '#' :: _ := (List.cons.inj h).2
      exact absurd rfl (htail _ (by rw [h]; rfl)).2.2
    · rfl
  unfold next
  rw [List.cons_append, mark?_eq_none (hw.part c List.mem_cons_self)]
  simp only [hstring, hdigit, decide_false, Bool.or_self, Bool.false_eq_true, if_false]
  rw [← List.cons_append]
  unfold wordOrLiteral
  rw [hraw, hliteral]
  have hword : Lexeme.word (c :: cs ++ rest) = .plain (wordKind (c :: cs)) (c :: cs).length := by
    unfold Lexeme.word
    rw [hself]
    rfl
  rw [hword]
  split <;> rfl

/-! ### Digits -/

/-- The kind of a number. -/
theorem number_kind [Text.Xid] (float : Bool) (cs : List Char) :
    (Number.scan float cs).kind = .integerToken ∨ (Number.scan float cs).kind = .floatToken := by
  unfold Number.scan
  split
  · exact .inl rfl
  · exact .inl rfl
  · exact .inl rfl
  · exact (ite_eq_or_eq _ _ _).imp (congrArg Lexeme.kind) (congrArg Lexeme.kind)

theorem isIdentifierPart_of_isDigit {c : Char} (h : c.isDigit = true) :
    Text.isIdentifierPart c = true := by
  simp [Text.isIdentifierPart, Char.isAlphanum, h]

/-- A digit of any base, or the separator, belongs to a name. -/
theorem isIdentifierPart_of_digit {base : Nat} {c : Char}
    (h : Number.isDigitOrSeparator base c = true) : Text.isIdentifierPart c = true := by
  have hletter (hc : 65 ≤ c.toNat ∧ c.toNat ≤ 90 ∨ 97 ≤ c.toNat ∧ c.toNat ≤ 122) :
      Text.isIdentifierPart c = true := by
    have halpha : c.isAlpha = true := (isAlpha_iff c).2 hc
    simp [Text.isIdentifierPart, Char.isAlphanum, halpha]
  simp only [Number.isDigitOrSeparator, Text.isHexDigit, Bool.or_eq_true, Bool.and_eq_true,
    beq_iff_eq, decide_eq_true_eq, Char.le_def, UInt32.le_iff_toNat_le] at h
  have ha : 'a'.val.toNat = 97 := rfl
  have hf : 'f'.val.toNat = 102 := rfl
  have hA : 'A'.val.toNat = 65 := rfl
  have hF : 'F'.val.toNat = 70 := rfl
  have hc : c.toNat = c.val.toNat := rfl
  rcases h with rfl | ⟨(h | h) | h, -⟩
  · decide
  · exact isIdentifierPart_of_isDigit h
  · exact hletter (.inr (by omega))
  · exact hletter (.inl (by omega))

theorem ne_of_isDigit {c d : Char} (hc : c.isDigit = true) (hd : d.isDigit = false) : c ≠ d := by
  rintro rfl
  simp [hc] at hd

/-- No name begins with a digit. -/
theorem isIdentifierStart_of_isDigit {c : Char} (h : c.isDigit = true) :
    Text.isIdentifierStart c = false :=
  Bool.eq_false_iff.2 fun hstart => by
    simp [(ne_of_isIdentifierStart hstart).2.2.2.2] at h

/-- What begins with a digit is a number, where numbers are admitted. -/
theorem contextual?_digit {c : Char} {cs : List Char} (admitted : Admitted)
    (hc : c.isDigit = true) : contextual? admitted (c :: cs) =
      onlyIf admitted.integer (Number.scan admitted.float (c :: cs)) := by
  have hname : (if admitted.literalSuffix then Text.identifierPrefix (c :: cs) else []) = [] := by
    simp [Text.identifierPrefix, isIdentifierStart_of_isDigit hc]
  unfold contextual?
  simp only [hname, Bool.false_eq_true, if_false, List.isEmpty_nil, Bool.not_true]
  split
  all_goals try next h => exact absurd (List.cons.inj h).1 (ne_of_isDigit hc rfl)
  · next h =>
    obtain ⟨rfl, -⟩ := List.cons.inj h
    simp [hc]
  · next h => simp at h

/-- Where numbers are not admitted, a digit cannot be read. -/
theorem next_digit_getD {c : Char} {cs : List Char} (admitted : Admitted) (hc : c.isDigit = true) :
    next contextual? admitted (c :: cs) =
      (onlyIf admitted.integer (Number.scan admitted.float (c :: cs))).getD
        (.plain .errorSentinel 1) := by
  have hquote : c ≠ '\'' := ne_of_isDigit hc rfl
  have hdollar : c ≠ '$' := ne_of_isDigit hc rfl
  unfold next
  rw [mark?_eq_none (isIdentifierPart_of_isDigit hc)]
  simp [hc, contextual?_digit admitted hc]

/-- What begins with a digit is read as a number, where numbers are admitted. -/
theorem next_digit {c : Char} {cs : List Char} {admitted : Admitted} (hc : c.isDigit = true)
    (hi : admitted.integer = true) :
    next contextual? admitted (c :: cs) = Number.scan admitted.float (c :: cs) := by
  rw [next_digit_getD admitted hc, hi]
  rfl

/-- A run of digits reaches up to the first character that is none. -/
theorem digitRun_append {base : Nat} {ds rest : List Char}
    (hds : ∀ c ∈ ds, Number.isDigitOrSeparator base c = true)
    (hrest : ∀ c, rest.head? = some c → Number.isDigitOrSeparator base c = false) :
    Number.digitRun base (ds ++ rest) = ds := by
  have hstop : rest.takeWhile (Number.isDigitOrSeparator base) = [] := by
    cases rest with
    | nil => rfl
    | cons d rest => simp [hrest d rfl]
  unfold Number.digitRun
  rw [List.takeWhile_append_of_pos hds, hstop, List.append_nil]

theorem EndsName.isDigitOrSeparator {rest : List Char} (h : EndsName rest) {base : Nat} :
    ∀ c, rest.head? = some c → Number.isDigitOrSeparator base c = false := fun c hc =>
  Bool.eq_false_iff.2 fun hd => by simpa [h c hc] using isIdentifierPart_of_digit hd

/-- A number without a base is decimal. -/
theorem scan_eq_decimal {float : Bool} {c : Char} {cs : List Char}
    (h : ∀ d, cs.head? = some d → d ∉ ['x', 'o', 'b']) :
    Number.scan float (c :: cs) = Number.decimal float (c :: cs) := by
  unfold Number.scan
  split
  · next hcs => exact absurd (by decide) (h 'x' (by rw [(List.cons.inj hcs).2]; rfl))
  · next hcs => exact absurd (by decide) (h 'o' (by rw [(List.cons.inj hcs).2]; rfl))
  · next hcs => exact absurd (by decide) (h 'b' (by rw [(List.cons.inj hcs).2]; rfl))
  · rfl

/-- Digits are read up to where they end, if no point belongs to them. -/
theorem next_digits {word rest : List Char} {admitted : Admitted} (hne : word ≠ [])
    (hw : ∀ c ∈ word, c.isDigit = true) (hr : EndsName rest) (hi : admitted.integer = true)
    (hf : admitted.float = false) :
    next contextual? admitted (word ++ rest) = .plain .integerToken word.length := by
  obtain ⟨c, cs, rfl⟩ := List.exists_cons_of_ne_nil hne
  have hrun : Number.digitRun 10 (c :: cs ++ rest) = c :: cs :=
    digitRun_append (fun d hd => isDigitOrSeparator_of_isDigit (hw d hd)) hr.isDigitOrSeparator
  have hbase (d : Char) (hd : (cs ++ rest).head? = some d) : d ∉ ['x', 'o', 'b'] := by
    have hmark : ['x', 'o', 'b'].all (fun d => !d.isDigit && Text.isIdentifierPart d) = true := by
      decide
    intro hmem
    obtain ⟨hdigit, hpart⟩ := Bool.and_eq_true_iff.1 (List.all_eq_true.1 hmark d hmem)
    cases cs with
    | nil => simp [hr d hd] at hpart
    | cons e cs =>
      obtain rfl := Option.some.inj hd
      simp [hw e (by simp)] at hdigit
  rw [List.cons_append, next_digit (hw c List.mem_cons_self) hi, hf, scan_eq_decimal hbase,
    ← List.cons_append]
  unfold Number.decimal
  rw [hrun]
  rfl

end Lexeme

/-! ### The scanner -/

/-- A text that begins with neither white space nor a comment nor a hash. -/
def Begins (cs : List Char) : Prop :=
  ∃ c rest, cs = c :: rest ∧ Text.isWhiteSpace c = false ∧ c ≠ '#' ∧
    (c = '/' → rest.head? ≠ some '/' ∧ rest.head? ≠ some '*')

/-- A simple token of this kind, spelled `word`, begins a text, and then comes `rest`. -/
structure Spelled (admitted : Admitted) (cs : List Char) (kind : Kind) (word rest : List Char) :
    Prop where
  eq : cs = word ++ rest
  begins : Begins cs
  next : Lexeme.next Lexeme.contextual? admitted cs = .plain kind word.length

namespace Scanner

/-- The scanner at the token that comes next at a place. -/
def facing (admitted : Admitted) (place : Cursor) : Scanner :=
  ({ start := place, here := place, token := noToken place.offset } : Scanner).scan
    Lexeme.contextual? admitted

/-- The scanner at a simple token. -/
def upon (offset : Nat) (kind : Kind) (word rest : List Char) : Scanner :=
  { start := { offset, rest := word ++ rest }
    here := { offset := offset + byteLength word, rest }
    token := { kind, range := ⟨offset, offset + byteLength word⟩ } }

/-- The scanner moves on as from nowhere: only what is left of the text counts. -/
theorem scan_eq (admitted : Admitted) (s : Scanner) :
    s.scan Lexeme.contextual? admitted = facing admitted s.here := by
  unfold facing scan
  simp only
  split
  · rfl
  · unfold scanPastTrivia
    simp only
    split
    · rfl
    · split
      · rfl
      · unfold readToken
        split <;> rfl

@[simp] theorem skip_nil (recognize : Recognizer) (admitted : Admitted) (offset : Nat)
    (lineBreak : Bool) (comments : Array Token) :
    Trivia.skip recognize admitted offset lineBreak comments [] =
      { cursor := { offset, rest := [] }, lineBreak, comments } := by
  rw [Trivia.skip.eq_def]

theorem skip_blank (recognize : Recognizer) (admitted : Admitted) (offset : Nat)
    (lineBreak : Bool) (comments : Array Token) {c : Char} (h : Text.isWhiteSpace c = true)
    (cs : List Char) :
    Trivia.skip recognize admitted offset lineBreak comments (c :: cs) =
      Trivia.skip recognize admitted (offset + c.utf8Size) (lineBreak || Text.isLineBreak c)
        comments cs := by
  rw [Trivia.skip.eq_def]
  simp only [h, if_true]

theorem skip_spaces {admitted : Admitted} {cs : List Char} (h : Begins cs) (gap : Nat) :
    ∀ offset, Trivia.skip Lexeme.contextual? admitted offset false #[]
      (List.replicate gap ' ' ++ cs) =
        { cursor := { offset := offset + gap, rest := cs }
          lineBreak := false
          comments := #[] } := by
  induction gap with
  | zero =>
    intro offset
    obtain ⟨c, rest, rfl, hblank, -, hslash⟩ := h
    have hcomment (hc : c = '/') : Lexeme.contextual? admitted.comments (c :: rest) = none := by
      subst hc
      obtain ⟨hline, hblock⟩ := hslash rfl
      cases rest with
      | nil => rfl
      | cons d rest =>
        have hd : d ≠ '/' := fun h => hline (congrArg some h)
        have hd' : d ≠ '*' := fun h => hblock (congrArg some h)
        unfold Lexeme.contextual?
        simp [Admitted.comments, hd, hd']
    rw [List.replicate_zero, List.nil_append, Trivia.skip.eq_def]
    simp only [hblank, Bool.false_eq_true, if_false]
    split
    · next hc =>
      rw [hcomment (by simp at hc; exact hc.1)]
      rfl
    · rfl
  | succ gap ih =>
    intro offset
    rw [List.replicate_succ, List.cons_append, skip_blank _ _ _ _ _ (by rfl)]
    rw [show (false || Text.isLineBreak ' ') = false from rfl, ih, Nat.add_assoc,
      show ' '.utf8Size = 1 from rfl, Nat.add_comm 1]

/-- After spaces the scanner reads the lexeme that comes next. -/
theorem facing_eq (admitted : Admitted) {cs : List Char} (h : Begins cs)
    (ha : admitted.literalSuffix = false) (offset gap : Nat) :
    facing admitted { offset, rest := List.replicate gap ' ' ++ cs } =
      moveTo { start := default, here := default, token := default }
        { offset := offset + gap, rest := cs } (Lexeme.next Lexeme.contextual? admitted cs) := by
  have hshebang : shebang? { offset, rest := List.replicate gap ' ' ++ cs } = none := by
    obtain ⟨c, more, rfl, -, hhash, -⟩ := h
    unfold shebang?
    cases gap with
    | zero => simp [hhash]
    | succ gap => simp [List.replicate_succ]
  have hadmitted : admitted.withoutSuffix = admitted := by
    unfold Admitted.withoutSuffix
    rw [← ha]
  unfold facing scan scanPastTrivia
  simp only [ha, hshebang, skip_spaces h, hadmitted]
  simp [readToken, moveTo, markLineBreak]

theorem facing_spelled {admitted : Admitted} {cs word rest : List Char} {kind : Kind}
    (h : Spelled admitted cs kind word rest) (ha : admitted.literalSuffix = false)
    (offset gap : Nat) :
    facing admitted { offset, rest := List.replicate gap ' ' ++ cs } =
      upon (offset + gap) kind word rest := by
  rw [facing_eq admitted h.begins ha, h.next, h.eq]
  simp [moveTo, upon, Cursor.advance, Lexeme.plain, Lexeme.place, Lexeme.placePieces]

/-- Nothing is left at the end of a text. -/
theorem facing_nil {admitted : Admitted} (ha : admitted.literalSuffix = false) (offset : Nat) :
    (facing admitted { offset, rest := [] }).kind = .endOfFile ∧
      (facing admitted { offset, rest := [] }).leading = [] := by
  have hshebang : shebang? { offset, rest := [] } = none := by
    unfold shebang?
    split <;> rfl
  unfold facing scan scanPastTrivia
  simp only [ha, hshebang, skip_nil]
  exact ⟨rfl, rfl⟩

end Scanner

end ConcreteSyntax
