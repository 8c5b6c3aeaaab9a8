import ConcreteSyntax.Proofs.Expression.Facing
import ConcreteSyntax.Proofs.Expression.Term

/-! # The tokens of a written term

Which token a written term begins with (`Term.starts`), and which may follow it (`Follower`): the
mark of an infix operator between spaces, a postfix form, or what closes the place of the term. -/

namespace ConcreteSyntax

open Lexeme (marks extends? EndsName Quiet IsWord)

/-! ### Marks -/

theorem spells_mark {word rest : List Char} {kind : Kind} (hm : (word, kind) ∈ marks)
    (hrest : ∀ c, rest.head? = some c → extends? word c = false) (hb : Begins (word ++ rest)) :
    Spells (word ++ rest) kind word rest :=
  fun _ _ => ⟨rfl, hb, Lexeme.next_mark hm hrest⟩

/-- Whether no longer mark begins with a mark. -/
def Lexeme.isLongest (word : List Char) : Bool :=
  marks.all fun m => !word.isPrefixOf m.1 || m.1.length ≤ word.length

theorem Lexeme.extends?_of_isLongest {word : List Char} (h : isLongest word = true) (c : Char) :
    extends? word c = false := by
  refine List.any_eq_false.2 fun m hm hp => ?_
  have hp := List.isPrefixOf_iff_prefix.1 hp
  have hword : word.isPrefixOf m.1 = true :=
    List.isPrefixOf_iff_prefix.2 ((List.prefix_append word [c]).trans hp)
  have hle : m.1.length ≤ word.length := by
    simpa [hword] using List.all_eq_true.1 h m hm
  have := hp.length_le
  simp at this
  omega

/-- The marks of one character that begin no other, delimiters and the like. -/
def delimiters : List (Char × Kind) :=
  [('(', .openParen), (')', .closeParen), ('[', .openBracket), (']', .closeBracket),
    ('{', .openBrace), ('}', .closeBrace), ('?', .question), (',', .comma), (';', .semicolon),
    ('>', .gt)]

theorem spells_delimiter (c : Char) (kind : Kind) (rest : List Char)
    (hm : (c, kind) ∈ delimiters) : Spells (c :: rest) kind [c] rest := by
  have hall : ∀ p ∈ delimiters, ([p.1], p.2) ∈ marks ∧ Lexeme.isLongest [p.1] = true ∧
      Text.isWhiteSpace p.1 = false ∧ p.1 ≠ '#' ∧ p.1 ≠ '/' := by
    decide +kernel
  obtain ⟨hmark, hlong, hblank, hhash, hslash⟩ := hall _ hm
  exact spells_mark hmark (fun d _ => Lexeme.extends?_of_isLongest hlong d)
    ⟨c, rest, rfl, hblank, hhash, fun h => absurd h hslash⟩

/-! ### Names and digits -/

theorem isIdentifierPart_of_isIdentifierStart {c : Char} (h : Text.isIdentifierStart c = true) :
    Text.isIdentifierPart c = true := by
  simp only [Text.isIdentifierStart, Bool.or_eq_true, Bool.and_eq_true] at h
  simp only [Text.isIdentifierPart, Char.isAlphanum, Bool.or_eq_true, Bool.and_eq_true]
  rcases h with (h | h) | h
  · exact .inl (.inl h)
  · exact .inl (.inr (.inl h))
  · exact .inr ⟨h.1, (Bool.or_eq_true _ _).mpr (.inl h.2)⟩

theorem begins_of_isIdentifierPart {c : Char} (h : Text.isIdentifierPart c = true)
    (cs : List Char) : Begins (c :: cs) := by
  have hne (d : Char) (hd : Text.isIdentifierPart d = false) : c ≠ d := by
    rintro rfl
    exact absurd (hd.symm.trans h) nofun
  refine ⟨c, cs, rfl, ?_, hne '#' (by decide), fun hc => absurd hc (hne '/' (by decide))⟩
  have hall : ([' ', '\t', '\n', '\r', '\x0b', '\x0c', '\u0085', '\u200e', '\u200f', '\u2028',
      '\u2029'].all fun d => !Text.isIdentifierPart d) = true := by
    decide +kernel
  refine Bool.eq_false_iff.2 fun hw => ?_
  have hc := List.all_eq_true.1 hall c (by simpa [Text.isWhiteSpace, or_assoc] using hw)
  simp [h] at hc

namespace Name

theorem isWord (n : Name) : IsWord n.chars ∧ Lexeme.wordKind n.chars = .identifier := by
  have h := n.isName
  simp only [ConcreteSyntax.isName, Bool.and_eq_true, beq_iff_eq] at h
  obtain ⟨⟨hne, hself⟩, hkind⟩ := h
  refine ⟨?_, hkind⟩
  cases hn : n.chars with
  | nil => simp [hn] at hne
  | cons c cs =>
    rw [hn, Text.identifierPrefix] at hself
    split at hself
    · next hstart =>
      have htake := (List.cons.inj hself).2
      refine ⟨⟨c, cs, rfl, hstart⟩, List.forall_mem_cons.2
        ⟨isIdentifierPart_of_isIdentifierStart hstart, fun d hd => ?_⟩⟩
      rw [← htake] at hd
      exact List.all_eq_true.1 (List.all_takeWhile) d hd
    · simp at hself

end Name

/-- A word is spelled where it ends. -/
theorem spells_word {word rest : List Char} (hw : IsWord word) (hr : EndsName rest)
    (hq : Quiet rest) : Spells (word ++ rest) (Lexeme.wordKind word) word rest := by
  obtain ⟨c, cs, rfl, hstart⟩ := hw.start
  exact fun a ha => ⟨rfl, begins_of_isIdentifierPart (hw.part c List.mem_cons_self) _,
    Lexeme.next_word ha.literalSuffix hw hr hq⟩

/-- A word before a blank is spelled. -/
theorem spells_wordBlank {word rest : List Char} (hw : IsWord word) :
    Spells (word ++ ' ' :: rest) (Lexeme.wordKind word) word (' ' :: rest) :=
  spells_word hw (fun _ hc => Option.some.inj hc ▸ by decide)
    fun _ hc => Option.some.inj hc ▸ by decide

theorem Name.spells (n : Name) {rest : List Char} (hr : EndsName rest) (hq : Quiet rest) :
    Spells (n.chars ++ rest) .identifier n.chars rest :=
  n.isWord.2 ▸ spells_word n.isWord.1 hr hq

/-! ### What follows a term -/

/-- The tokens that go on with a name otherwise than as an operand. -/
def Kind.continuesName : Kind → Bool
  | .colonColon | .bang | .openBrace | .constKw | .mutKw => true
  | _ => false

/-- A token of this kind, a `>` joined, comes next in a text that no name goes on into, and what
stood before it may be an operand. -/
structure Follower (cs : List Char) (kind : Kind) : Prop where
  endsName : EndsName cs
  quiet : Quiet cs
  ends : kind.continuesName = false
  comes : ∃ gap word rest, Comes cs gap kind word rest

theorem Follower.of_char {c : Char} {cs : List Char} {kind : Kind}
    (hc : Text.isIdentifierPart c = false ∧ c ≠ '"' ∧ c ≠ '\'' ∧ c ≠ '#')
    (hk : kind.continuesName = false) {gap : Nat} {word rest : List Char}
    (h : Comes (c :: cs) gap kind word rest) : Follower (c :: cs) kind where
  ends := hk
  endsName := fun _ hd => Option.some.inj hd ▸ hc.1
  quiet := fun _ hd => Option.some.inj hd ▸ hc.2
  comes := ⟨gap, word, rest, h⟩

/-- The dot before a name or a number. -/
theorem spells_dot {word : List Char} (hw : ∃ c cs, word = c :: cs ∧ Text.isIdentifierPart c = true)
    (rest : List Char) : Spells ('.' :: (word ++ rest)) .dot ['.'] (word ++ rest) := by
  obtain ⟨c, cs, rfl, hc⟩ := hw
  have hrest (d : Char) (hd : (c :: cs ++ rest).head? = some d) : extends? ['.'] d = false :=
    Lexeme.extends?_of_isIdentifierPart _ (Option.some.inj hd ▸ hc)
  exact spells_mark (by decide +kernel) hrest
    ⟨'.', c :: cs ++ rest, rfl, by decide, by decide, nofun⟩

theorem Name.part_head (n : Name) :
    ∃ c cs, n.chars = c :: cs ∧ Text.isIdentifierPart c = true := by
  obtain ⟨c, cs, hn, hstart⟩ := n.isWord.1.start
  exact ⟨c, cs, hn, isIdentifierPart_of_isIdentifierStart hstart⟩

theorem Digits.all_isDigit (d : Digits) : d.chars ≠ [] ∧ ∀ c ∈ d.chars, c.isDigit = true := by
  have h := d.isDigits
  simp only [Bool.and_eq_true, Bool.not_eq_true', List.isEmpty_eq_false_iff, List.all_eq_true] at h
  exact h

theorem Digits.part_head (d : Digits) :
    ∃ c cs, d.chars = c :: cs ∧ Text.isIdentifierPart c = true := by
  obtain ⟨hne, hall⟩ := d.all_isDigit
  obtain ⟨c, cs, hd⟩ := List.exists_cons_of_ne_nil hne
  exact ⟨c, cs, hd, Lexeme.isIdentifierPart_of_isDigit (hall c (by simp [hd]))⟩

/-- The word of `.await`. -/
def awaitWord : List Char := ['a', 'w', 'a', 'i', 't']

theorem awaitWord_part :
    ∃ c cs, awaitWord = c :: cs ∧ Text.isIdentifierPart c = true :=
  ⟨_, _, rfl, by decide⟩

/-- Whether a mark that a space follows begins with neither white space nor a comment nor a hash. -/
def beginsMark : List Char → Bool
  | [] => false
  | c :: cs =>
    !Text.isWhiteSpace c && c != '#' &&
      (c != '/' || (cs.head? != some '/' && cs.head? != some '*'))

theorem begins_of_beginsMark {word : List Char} (h : beginsMark word = true) (rest : List Char) :
    Begins (word ++ ' ' :: rest) := by
  cases word with
  | nil => exact absurd h (by decide)
  | cons c cs =>
    simp only [beginsMark, Bool.and_eq_true, Bool.or_eq_true, Bool.not_eq_true', bne_iff_ne,
      ne_eq] at h
    refine ⟨c, cs ++ ' ' :: rest, rfl, h.1.1, h.1.2, fun hc => ?_⟩
    have hhead := h.2.resolve_left (not_not_intro hc)
    cases cs with
    | nil => simp
    | cons d cs => exact hhead

theorem Kind.isGreater_cases {k : Kind} (h : k.isGreater = true) :
    k = .gt ∨ k = .gtEq ∨ k = .shr ∨ k = .shrEq := by
  unfold Kind.isGreater at h
  split at h
  · exact .inl rfl
  · exact .inr (.inl rfl)
  · exact .inr (.inr (.inl rfl))
  · exact .inr (.inr (.inr rfl))
  · exact nomatch h

/-- A `>` after a space, joined with what touches it. -/
theorem comes_greater {tail word rest : List Char} {kind : Kind}
    (hjoin : ∀ offset, (Scanner.upon offset .gt ['>'] tail).joinGreater =
      .upon offset kind word rest) (heq : '>' :: tail = word ++ rest) :
    Comes (' ' :: '>' :: tail) 1 kind word rest where
  eq := congrArg (' ' :: ·) heq
  joined := by
    rintro s offset ⟨a, ha, hs⟩
    have hspells : Spells ('>' :: tail) .gt ['>'] tail := spells_delimiter '>' .gt tail (by decide)
    have hupon : Scanner.facing a { offset, rest := ' ' :: '>' :: tail } = _ :=
      Scanner.facing_spelled (hspells a ha) ha.literalSuffix offset 1
    rcases hs with rfl | rfl
    · rw [hupon, hjoin]
    · rw [Scanner.joinGreater_idem, hupon, hjoin]

/-- The classes of the infix operators between two expressions. -/
def OperatorClass.joining : List OperatorClass :=
  [.multiplicative, .additive, .shift, .bitwiseAnd, .bitwiseXor, .bitwiseOr, .comparison,
    .logicalAnd, .logicalOr, .assignment, .compoundAssignment]

/-- The marks of the infix operators between two expressions. -/
def Kind.joining : List Kind :=
  [.star, .slash, .percent, .plus, .minus, .shl, .shr, .amp, .caret, .pipe, .eqEq, .bangEq, .lt,
    .ltEq, .gt, .gtEq, .ampAmp, .pipePipe, .eq, .plusEq, .minusEq, .starEq, .slashEq, .percentEq,
    .caretEq, .ampEq, .pipeEq, .shlEq, .shrEq]

theorem Kind.mem_joining_of_isCompoundAssignment {k : Kind} (h : k.isCompoundAssignment = true) :
    k ∈ Kind.joining := by
  have hall : ∀ i < Kind.shrEq.index + 1, Kind.plusEq.index ≤ i →
      Kind.ofNat i ∈ Kind.joining := by
    decide
  simp only [Kind.isCompoundAssignment, Kind.between, Bool.and_eq_true, decide_eq_true_eq] at h
  have hk := hall k.index (Nat.lt_succ_of_le h.2) h.1
  rwa [Kind.index, Kind.ofNat_ctorIdx] at hk

namespace BinaryMark

theorem kind_mem (m : BinaryMark) : m.kind ∈ Kind.joining := by
  obtain ⟨kind, operator, h, hcast, hrange⟩ := m
  show kind ∈ Kind.joining
  cases hc : kind.isCompoundAssignment with
  | true => exact Kind.mem_joining_of_isCompoundAssignment hc
  | false =>
    unfold OperatorClass.ofInfix? at h
    split at h <;>
      first
      | decide
      | exact absurd (Option.some.inj h).symm hrange
      | exact absurd (Option.some.inj h).symm hcast
      | exact nomatch (hc ▸ h : (if false = true then _ else none) = some operator)

theorem operator_mem (m : BinaryMark) : m.operator ∈ OperatorClass.joining := by
  have hall : ∀ k ∈ Kind.joining, ∀ c ∈ OperatorClass.ofInfix? k, c ∈ OperatorClass.joining := by
    decide
  exact hall m.kind m.kind_mem _ m.ofKind

/-- What the table of marks says of the mark of an infix operator that no `>` is part of. -/
theorem mem_marks (m : BinaryMark) (h : m.kind.isGreater = false) :
    (m.text, m.kind) ∈ marks ∧ extends? m.text ' ' = false ∧ beginsMark m.text = true := by
  have hall : ∀ k ∈ Kind.joining, k.isGreater = false →
      ((k.markText.getD "").toList, k) ∈ marks ∧ extends? (k.markText.getD "").toList ' ' = false ∧
        beginsMark (k.markText.getD "").toList = true := by
    decide +kernel
  exact hall m.kind m.kind_mem h

/-- The mark of an infix operator between spaces. -/
theorem comes (m : BinaryMark) (rest : List Char) :
    Comes (' ' :: (m.text ++ ' ' :: rest)) 1 m.kind m.text (' ' :: rest) := by
  cases hgreater : m.kind.isGreater with
  | false =>
    obtain ⟨hmem, hext, hbegins⟩ := m.mem_marks hgreater
    have hspells : Spells (m.text ++ ' ' :: rest) m.kind m.text (' ' :: rest) :=
      spells_mark hmem (fun c hc => Option.some.inj hc ▸ hext) (begins_of_beginsMark hbegins rest)
    refine .of_spells hspells ?_ 1
    intro hk
    rw [hk] at hgreater
    exact nomatch hgreater
  | true =>
    have hkind := Kind.isGreater_cases hgreater
    unfold text
    rcases hkind with hk | hk | hk | hk <;> rw [hk]
    · exact comes_greater (fun _ => rfl) rfl
    · exact comes_greater (fun _ => rfl) rfl
    · exact comes_greater (fun _ => rfl) rfl
    · exact comes_greater (fun _ => rfl) rfl

theorem ends (m : BinaryMark) : m.kind.continuesName = false := by
  have hall : ∀ k ∈ Kind.joining, k.continuesName = false := by decide
  exact hall m.kind m.kind_mem

theorem follower (m : BinaryMark) (rest : List Char) :
    Follower (' ' :: (m.text ++ ' ' :: rest)) m.kind :=
  .of_char (by decide) m.ends (m.comes rest)

end BinaryMark

/-- A mark that no name goes on into follows a term. -/
theorem Spells.follower {c : Char} {cs word rest : List Char} {kind : Kind}
    (h : Spells (c :: cs) kind word rest) (hk : kind ≠ .gt ∧ kind.continuesName = false)
    (hc : Text.isIdentifierPart c = false ∧ c ≠ '"' ∧ c ≠ '\'' ∧ c ≠ '#') :
    Follower (c :: cs) kind :=
  .of_char hc hk.2 (.of_spells h hk.1 0)

/-! ### The first token of a term -/

/-- The tokens that a term may begin with. -/
def Kind.startsTerm : Kind → Bool
  | .identifier | .openParen | .minus | .bang | .star | .amp | .ampAmp => true
  | _ => false

theorem Kind.isGreater_of_startsTerm {k : Kind} (h : k.startsTerm = true) :
    k.isGreater = false := by
  refine Bool.eq_false_iff.2 fun hg => ?_
  rcases Kind.isGreater_cases hg with rfl | rfl | rfl | rfl <;> exact nomatch h

namespace Term

theorem bracket_true_append (text cs : List Char) :
    bracket true text ++ cs = '(' :: (text ++ ')' :: cs) := by
  simp [bracket]

theorem bracket_false_append (text cs : List Char) : bracket false text ++ cs = text ++ cs := rfl

/-- The character that a term begins with. -/
def StartsWith (cs : List Char) : Prop :=
  ∃ c rest, cs = c :: rest ∧
    (Text.isIdentifierStart c = true ∨ c ∈ ['-', '!', '*', '&', '('])

theorem startsWith_append {cs : List Char} (h : StartsWith cs) (ds : List Char) :
    StartsWith (cs ++ ds) := by
  obtain ⟨c, rest, rfl, hc⟩ := h
  exact ⟨c, rest ++ ds, rfl, hc⟩

theorem startsWith_bracket {cs : List Char} (h : StartsWith cs) (b : Bool) :
    StartsWith (bracket b cs) := by
  cases b with
  | false => exact h
  | true => exact ⟨'(', _, rfl, .inr (by simp)⟩

theorem startsWith (e : Term) : StartsWith e.text := by
  match e with
  | .name n =>
    obtain ⟨c, cs, hn, hstart⟩ := n.isWord.1.start
    exact ⟨c, cs, by simpa [text] using hn, .inl hstart⟩
  | .unary mark operand =>
    rw [text]
    refine startsWith_append ?_ _
    cases mark
    all_goals exact ⟨_, _, rfl, .inr (by decide)⟩
  | .binary _ left _ => rw [text]; exact startsWith_append (startsWith_bracket left.startsWith _) _
  | .field value _ => rw [text]; exact startsWith_append (startsWith_bracket value.startsWith _) _
  | .element value _ => rw [text]; exact startsWith_append (startsWith_bracket value.startsWith _) _
  | .await value => rw [text]; exact startsWith_append (startsWith_bracket value.startsWith _) _
  | .question body => rw [text]; exact startsWith_append (startsWith_bracket body.startsWith _) _
  | .index indexed _ =>
    rw [text]; exact startsWith_append (startsWith_bracket indexed.startsWith _) _
  | .call function _ =>
    rw [text]; exact startsWith_append (startsWith_bracket function.startsWith _) _

/-- The mark of an operator before a term is read alone, unless both begin with a `&`. -/
theorem spells_unary {c : Char} {kind : Kind} {cs : List Char}
    (hm : (c, kind) ∈ [('-', Kind.minus), ('!', .bang), ('*', .star), ('&', .amp)])
    (h : StartsWith cs) (hne : c = '&' → cs.head? ≠ some '&') : Spells (c :: cs) kind [c] cs := by
  have hmarks : ∀ p ∈ [('-', Kind.minus), ('!', .bang), ('*', .star), ('&', .amp)],
      ([p.1], p.2) ∈ marks ∧ ['-', '!', '*', '&', '('].all (fun d =>
        (p.1 == '&' && d == '&') || !extends? [p.1] d) = true := by
    decide +kernel
  obtain ⟨hmark, hext⟩ := hmarks _ hm
  have hslash : c ≠ '/' ∧ c ≠ '#' ∧ Text.isWhiteSpace c = false := by
    simp only [List.mem_cons, Prod.mk.injEq, List.not_mem_nil, or_false] at hm
    rcases hm with ⟨rfl, -⟩ | ⟨rfl, -⟩ | ⟨rfl, -⟩ | ⟨rfl, -⟩ <;> decide
  refine spells_mark hmark (fun d hd => ?_)
    ⟨c, cs, rfl, hslash.2.2, hslash.2.1, fun hc => absurd hc hslash.1⟩
  obtain ⟨e, rest, rfl, he⟩ := h
  obtain rfl := Option.some.inj hd
  rcases he with he | he
  · exact Lexeme.extends?_of_isIdentifierPart _ (isIdentifierPart_of_isIdentifierStart he)
  · have hone := List.all_eq_true.1 hext e he
    simp only [Bool.or_eq_true, Bool.and_eq_true, beq_iff_eq, Bool.not_eq_true'] at hone
    exact hone.resolve_left fun ⟨hc, hamp⟩ => hne hc (congrArg some hamp)

theorem spells_ampAmp (cs : List Char) : Spells ('&' :: '&' :: cs) .ampAmp ['&', '&'] cs :=
  spells_mark (show (['&', '&'], Kind.ampAmp) ∈ marks by decide +kernel)
    (fun d _ => Lexeme.extends?_of_isLongest (by decide +kernel) d)
    ⟨'&', '&' :: cs, rfl, by decide, by decide, nofun⟩

/-- The mark of a mutable reference begins with that of a reference. -/
theorem spells_ampMut (cs : List Char) :
    Spells ('&' :: 'm' :: 'u' :: 't' :: ' ' :: cs) .amp ['&'] ('m' :: 'u' :: 't' :: ' ' :: cs) :=
  spells_unary (by decide) ⟨'m', _, rfl, .inl (by decide)⟩ fun _ => nofun

/-- A text begins with a token that a term may begin with. What follows a name is no part of it. -/
structure Opens (cs : List Char) (kind : Kind) (word rest : List Char) : Prop where
  spells : Spells cs kind word rest
  starts : kind.startsTerm = true
  follower : kind = .identifier → ∃ next, Follower rest next

/-- The first token of a term that is, if it is tight, no operator. -/
def Starts (cs : List Char) (tight : Prop) : Prop :=
  ∃ kind word rest, Opens cs kind word rest ∧
    (tight → (kind = .identifier ∨ kind = .openParen) ∧ cs.head? ≠ some '&')

theorem starts_openParen (cs : List Char) (tight : Prop) : Starts ('(' :: cs) tight :=
  ⟨_, _, _, ⟨spells_delimiter '(' .openParen cs (by decide), rfl, nofun⟩,
    fun _ => ⟨.inr rfl, nofun⟩⟩

/-- A term that begins with an operator. -/
theorem Starts.of_operator {cs word rest : List Char} {kind : Kind} (h : Spells cs kind word rest)
    (hk : kind.startsTerm = true ∧ kind ≠ .identifier) : Starts cs False :=
  ⟨kind, word, rest, ⟨h, hk.1, fun hi => absurd hi hk.2⟩, nofun⟩

theorem starts_bracket {e : Term} {cs : List Char} {min : Precedence} {tight : Prop}
    (h : Starts (e.text ++ cs) (e.level = .call)) (hmin : tight → min = .call) :
    Starts (bracket (e.isLooser min) e.text ++ cs) tight := by
  cases hb : e.isLooser min with
  | true =>
    rw [bracket_true_append]
    exact starts_openParen _ tight
  | false =>
    obtain ⟨kind, word, rest, hs, hcall⟩ := h
    refine ⟨kind, word, rest, hs, fun ht => hcall ?_⟩
    have htight : ∀ p : Precedence, ¬ p.rank < Precedence.call.rank → p = .call := by
      intro p
      cases p <;> decide
    refine htight _ ?_
    simpa [isLooser, hmin ht] using hb

theorem starts_mark (c : Char) (kind : Kind) {cs : List Char}
    (hm : (c, kind) ∈ [('-', Kind.minus), ('!', .bang), ('*', .star), ('&', .amp)])
    (h : StartsWith cs) (hne : c = '&' → cs.head? ≠ some '&') : Starts (c :: cs) False := by
  have hall : ∀ p ∈ [('-', Kind.minus), ('!', .bang), ('*', .star), ('&', .amp)],
      p.2.startsTerm = true ∧ p.2 ≠ .identifier := by
    decide
  exact .of_operator (spells_unary hm h hne) (hall _ hm)

/-- The first token before a term that an operator stands before. -/
theorem starts_unary (mark : UnaryMark) {cs : List Char} (h : StartsWith cs) :
    Starts (mark.text ++ cs) False := by
  cases mark with
  | minus => exact starts_mark '-' .minus (by decide) h nofun
  | bang => exact starts_mark '!' .bang (by decide) h nofun
  | star => exact starts_mark '*' .star (by decide) h nofun
  | ampMut => exact .of_operator (spells_ampMut cs) ⟨rfl, nofun⟩
  | amp =>
    by_cases hamp : cs.head? = some '&'
    · obtain ⟨more, rfl⟩ := List.head?_eq_some_iff.1 hamp
      exact .of_operator (spells_ampAmp more) ⟨rfl, nofun⟩
    · exact starts_mark '&' .amp (by decide) h fun _ => hamp

/-- The first token of a term, wherever it stands. -/
theorem starts (e : Term) {cs : List Char} {kind : Kind} (h : Follower cs kind) :
    Starts (e.text ++ cs) (e.level = .call) := by
  match e with
  | .name n =>
    rw [text]
    refine ⟨_, _, _, ⟨n.spells h.endsName h.quiet, rfl, fun _ => ⟨kind, h⟩⟩,
      fun _ => ⟨.inl rfl, fun hamp => ?_⟩⟩
    obtain ⟨c, rest, hn, hpart⟩ := n.part_head
    rw [hn] at hamp
    obtain rfl := Option.some.inj hamp
    exact absurd hpart (by decide)
  | .unary mark operand =>
    rw [text, List.append_assoc]
    obtain ⟨kind, word, rest, hs, -⟩ := starts_unary mark (startsWith_append
      (startsWith_bracket operand.startsWith (operand.isLooser mark.operator.precedence)) cs)
    exact ⟨kind, word, rest, hs, by cases mark <;> nofun⟩
  | .binary mark left right =>
    rw [text, List.append_assoc]
    have hloose : ∀ c ∈ OperatorClass.joining, c.precedence ≠ .call := by decide
    have hfollow := mark.follower (bracket
      (right.isLooser (mark.operator.operandPrecedence .right)) right.text ++ cs)
    have hleft : Starts (bracket (left.isLooser (mark.operator.operandPrecedence .left)) left.text ++
        ' ' :: (mark.text ++ ' ' :: _)) False := starts_bracket (left.starts hfollow) nofun
    obtain ⟨kind, word, rest, hs, -⟩ := hleft
    exact ⟨kind, word, rest, by simpa using hs, fun ht => absurd ht (hloose _ mark.operator_mem)⟩
  | .field value n =>
    rw [text, List.append_assoc]
    exact starts_bracket (value.starts
      ((spells_dot n.part_head cs).follower (by decide) (by decide))) fun _ => rfl
  | .element value digits =>
    rw [text, List.append_assoc]
    exact starts_bracket (value.starts
      ((spells_dot digits.part_head cs).follower (by decide) (by decide))) fun _ => rfl
  | .await value =>
    rw [text, List.append_assoc]
    exact starts_bracket (value.starts
      ((spells_dot awaitWord_part cs).follower (by decide) (by decide))) fun _ => rfl
  | .question body =>
    rw [text, List.append_assoc]
    exact starts_bracket (body.starts
      ((spells_delimiter '?' .question cs (by decide)).follower (by decide) (by decide)))
      fun _ => rfl
  | .index indexed inside =>
    rw [text, List.append_assoc]
    exact starts_bracket (indexed.starts
      ((spells_delimiter '[' .openBracket _ (by decide)).follower (by decide) (by decide)))
      fun _ => rfl
  | .call function arguments =>
    rw [text, List.append_assoc]
    exact starts_bracket (function.starts
      ((spells_delimiter '(' .openParen _ (by decide)).follower (by decide) (by decide)))
      fun _ => rfl

end Term

theorem Session.Before.upon_opens {source : String} {draft : Draft} {cs word rest : List Char}
    {kind : Kind} {s : Session} (h : s.Before source draft cs)
    (ho : Term.Opens cs kind word rest) : ∃ offset, s.Upon source draft offset kind word rest :=
  h.upon ho.spells (Kind.isGreater_of_startsTerm ho.starts)

end ConcreteSyntax
