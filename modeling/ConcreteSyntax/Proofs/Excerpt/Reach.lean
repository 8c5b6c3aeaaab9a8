import ConcreteSyntax.Proofs.Excerpt.Scanner
import ConcreteSyntax.Proofs.Token.Repertoire

/-! # Looking ahead inside a text

Where a text ends, a longer one may go on. So what a look ahead finds there may differ, unless a mark
that may end an item is still to come: from a scanner that reaches such a mark (`Scanner.Reaches`)
the next tokens are firm, and a scanner of the whole finds the same ones (`Scanner.Abreast.next`). No
look ahead goes beyond such a mark; the tokens that it passes are guides (`Kind.isGuide`), but for a
literal, behind which the scanner may be asked for more than the usual
(`Scanner.Abreast.behind_literal`). -/

namespace ConcreteSyntax

open Text (Place byteLength)

/-! ### Kinds of tokens -/

namespace Kind

/-- The marks that end an item or a statement. -/
def isEnd : Kind → Bool
  | .semicolon | .closeBrace => true
  | _ => false

theorem eq_of_isEnd {k : Kind} (h : k.isEnd = true) : k = .semicolon ∨ k = .closeBrace := by
  unfold isEnd at h
  split at h
  · exact .inl rfl
  · exact .inr rfl
  · exact nomatch h

/-- The literals that a suffix may touch. -/
def takesSuffix : Kind → Bool
  | .integerToken | .floatToken | .stringToken | .rawStringToken | .charToken => true
  | _ => false

theorem eq_of_takesSuffix {k : Kind} (h : k.takesSuffix = true) :
    k = .integerToken ∨ k = .floatToken ∨ k = .stringToken ∨ k = .rawStringToken ∨
      k = .charToken := by
  unfold takesSuffix at h
  split at h
  · exact .inl rfl
  · exact .inr (.inl rfl)
  · exact .inr (.inr (.inl rfl))
  · exact .inr (.inr (.inr (.inl rfl)))
  · exact .inr (.inr (.inr (.inr rfl)))
  · exact nomatch h

/-- The tokens behind which the scanner only reads on as usual, and which keep their shape. -/
def isGuide (k : Kind) : Bool :=
  !(k.isEnd || k.takesSuffix) && match k with
  | .endOfFile | .dot | .gt | .ampAmp | .shl | .pipePipe => false
  | _ => true

/-- What the grammar asks the scanner for behind a token of this kind. -/
def Asks (k : Kind) (next : Admitted) : Prop :=
  next = .usual ∨ next = .tupleIndex ∧ (k = .dot ∨ k = .integerToken) ∨
    next = .afterLiteral ∧ k.takesSuffix = true

theorem Asks.reads {k : Kind} {next : Admitted} (h : k.Asks next) :
    next.ReadsLiterals ∧ next.char = true ∧ next.lifetime = true := by
  rcases h with rfl | ⟨rfl, -⟩ | ⟨rfl, -⟩ <;> exact ⟨⟨rfl, rfl⟩, rfl, rfl⟩

end Kind

/-! ### Ways of reading on -/

namespace Trivia

theorem skip_congr (recognize : Recognizer) {a b : Admitted} (h : a.comments = b.comments)
    (offset : Nat) (lineBreak : Bool) (comments : Array Token) (cs : List Char) :
    skip recognize a offset lineBreak comments cs = skip recognize b offset lineBreak comments cs := by
  have hany : a.anyComment = b.anyComment := by
    show a.comments.anyComment = b.comments.anyComment
    rw [h]
  fun_induction skip recognize a offset lineBreak comments cs with
  | case1 => rw [Scanner.skip_nil]
  | case2 offset lineBreak comments c rest hw ih =>
    rw [ih, Scanner.skip_blank _ _ _ _ _ hw]
  | case3 offset lineBreak comments c rest hw hslash hr =>
    rw [hany] at hslash
    rw [h] at hr
    rw [skip, if_neg hw, if_pos hslash]
    simp only [hr, h]
  | case4 offset lineBreak comments c rest hw hslash l hcomment hr token ih =>
    rw [hany] at hslash
    rw [h] at hr
    rw [skip, if_neg hw, if_pos hslash]
    simp only [hr, h, hcomment, if_true]
    exact ih
  | case5 offset lineBreak comments c rest hw hslash l hcomment hr =>
    rw [hany] at hslash
    rw [h] at hr
    rw [skip, if_neg hw, if_pos hslash]
    simp only [hr, h, hcomment, Bool.false_eq_true, if_false]
  | case6 offset lineBreak comments c rest hw hslash =>
    rw [hany] at hslash
    rw [skip, if_neg hw, if_neg hslash]

end Trivia

namespace Lexeme

/-- Without points, only numbers are read in another way. -/
theorem next_tupleIndex (cs : List Char) :
    next contextual? .tupleIndex cs = next contextual? .usual cs ∨
      ((next contextual? .tupleIndex cs).kind.takesSuffix = true ∧
        (next contextual? .usual cs).kind.takesSuffix = true) := by
  have hnumber (float : Bool) (cs : List Char) : (Number.scan float cs).kind.takesSuffix = true := by
    rcases number_kind float cs with h | h <;> rw [h] <;> rfl
  cases cs with
  | nil => exact .inl rfl
  | cons c cs =>
    by_cases hdigit : c.isDigit = true
    · right
      rw [next_digit hdigit rfl, next_digit hdigit rfl]
      exact ⟨hnumber _ _, hnumber _ _⟩
    · left
      have hsame : contextual? .tupleIndex (c :: cs) = contextual? .usual (c :: cs) := by
        generalize hcs : c :: cs = ds
        fun_cases contextual? .tupleIndex ds
        case case1 suffix hsuffix => cases hsuffix
        case case15 h _ _ =>
          rw [← (List.cons.inj hcs).1] at h
          exact absurd h hdigit
        case case16 h1 h2 h3 h4 h5 h6 h7 h8 h9 h10 hno _ _ =>
          rw [contextual?.eq_11 _ _ _ h1 h2 h3 h4 h5 h6 h7 h8 h9 h10]
          simp only [hno]
          rfl
        all_goals first | rfl | exact absurd rfl ‹_›
      unfold next wordOrLiteral
      simp only [hsame]

/-- A context-sensitive lexeme that begins with a letter is a literal or a fault. -/
theorem contextual?_name {admitted : Admitted} {c : Char} {cs : List Char} {l : Lexeme}
    (ha : admitted.literalSuffix = false) (hstart : Text.isIdentifierStart c = true)
    (h : contextual? admitted (c :: cs) = some l) :
    l.kind.takesSuffix = true ∨ l.kind = .errorSentinel := by
  obtain ⟨-, hquote, hstring, hslash, hdigit⟩ := ne_of_isIdentifierStart hstart
  have hscan (lead : Nat) (flags : TokenFlags) (cs : List Char) :
      (StringLiteral.scan lead flags cs).kind.takesSuffix = true ∨
        (StringLiteral.scan lead flags cs).kind = .errorSentinel := by
    unfold StringLiteral.scan
    split
    · exact .inr rfl
    · exact .inl rfl
  have hraw {lead : Nat} {flags : TokenFlags} {cs : List Char} {l : Lexeme}
      (h : StringLiteral.scanRaw? lead flags cs = some l) :
      l.kind.takesSuffix = true ∨ l.kind = .errorSentinel := by
    unfold StringLiteral.scanRaw? at h
    simp only at h
    split at h
    · split at h
      · obtain rfl := Option.some.inj h
        exact .inr rfl
      · obtain rfl := Option.some.inj h
        exact .inl rfl
    · exact nomatch h
  have hprefixed (flags : TokenFlags) (cs : List Char) :
      (QuoteMark.prefixed flags cs).kind.takesSuffix = true ∨
        (QuoteMark.prefixed flags cs).kind = .errorSentinel := by
    unfold QuoteMark.prefixed
    cases hl : QuoteMark.character? 1 flags cs with
    | none => exact .inr rfl
    | some l =>
      left
      show l.kind.takesSuffix = true
      rw [QuoteMark.kind_of_character? hl]
      rfl
  unfold contextual? at h
  simp only [ha, Bool.false_eq_true, if_false, List.isEmpty_nil, Bool.not_true] at h
  split at h
  · next he => exact absurd (List.cons.inj he).1 hslash
  · next he => exact absurd (List.cons.inj he).1 hslash
  · next he => exact absurd (List.cons.inj he).1 hquote
  · next he => exact absurd (List.cons.inj he).1 hstring
  · split at h
    · exact hraw h
    · exact nomatch h
  · obtain ⟨-, rfl⟩ := onlyIf_eq_some h
    exact hprefixed _ _
  · obtain ⟨-, rfl⟩ := onlyIf_eq_some h
    exact hscan _ _ _
  · obtain ⟨-, rfl⟩ := onlyIf_eq_some h
    exact hscan _ _ _
  · split at h
    · exact hraw h
    · exact nomatch h
  · split at h
    · exact hraw h
    · exact nomatch h
  · next he =>
    rw [← (List.cons.inj he).1, hdigit] at h
    exact nomatch h
  · exact nomatch h

theorem start_of_name {cs : List Char} (h : Text.identifierPrefix cs ≠ []) :
    ∃ c rest, cs = c :: rest ∧ Text.isIdentifierStart c = true := by
  cases cs with
  | nil => exact absurd rfl h
  | cons c rest =>
    refine ⟨c, rest, rfl, ?_⟩
    by_contra hstart
    exact h (if_neg hstart)

theorem next_of_start {admitted : Admitted} {c : Char} {cs : List Char}
    (h : Text.isIdentifierStart c = true) :
    next contextual? admitted (c :: cs) = wordOrLiteral contextual? admitted (c :: cs) := by
  obtain ⟨hdollar, hquote, hstring, -, hdigit⟩ := ne_of_isIdentifierStart h
  have hpart : Text.isIdentifierPart c = true := by
    simp only [Text.isIdentifierStart, Text.isIdentifierPart, Text.Xid.isStart, Text.Xid.isContinue,
      Char.isAlphanum, Bool.or_eq_true, Bool.and_eq_true] at h ⊢
    tauto
  unfold next
  rw [mark?_eq_none hpart]
  simp only
  exact if_neg (by simp [hstring, hdigit])

theorem wordOrLiteral_cases (recognize : Recognizer) (admitted : Admitted) (cs : List Char) :
    wordOrLiteral recognize admitted cs = word cs ∨
      recognize admitted cs = some (wordOrLiteral recognize admitted cs) ∨
      rawName? cs = some (wordOrLiteral recognize admitted cs) := by
  have hchoice (literal : Option Lexeme) : (literal <|> rawName? cs).getD (word cs) = word cs ∨
      literal = some ((literal <|> rawName? cs).getD (word cs)) ∨
      rawName? cs = some ((literal <|> rawName? cs).getD (word cs)) := by
    cases literal with
    | some l => exact .inr (.inl rfl)
    | none =>
      cases hraw : rawName? cs with
      | none => exact .inl rfl
      | some l => exact .inr (.inr rfl)
  unfold wordOrLiteral
  simp only
  split
  · exact hchoice _
  · exact hchoice _
  · exact hchoice _
  · exact (hchoice none).imp_right (·.imp_left nofun)

/-- What begins with a letter is a word, the name after `r#`, a literal or a fault. -/
theorem next_name (admitted : Admitted) {cs : List Char} (ha : admitted.literalSuffix = false)
    (hname : Text.identifierPrefix cs ≠ []) : next contextual? admitted cs = word cs ∨
      (next contextual? admitted cs).kind = .identifier ∨
      (next contextual? admitted cs).kind.takesSuffix = true ∨
      (next contextual? admitted cs).kind = .errorSentinel := by
  obtain ⟨c, rest, rfl, hstart⟩ := start_of_name hname
  rw [next_of_start hstart]
  rcases wordOrLiteral_cases contextual? admitted (c :: rest) with h | h | h
  · exact .inl h
  · exact .inr (.inr (contextual?_name ha hstart h))
  · refine .inr (.inl ?_)
    generalize wordOrLiteral contextual? admitted (c :: rest) = l at h
    unfold rawName? at h
    split at h
    · simp only at h
      split at h
      · exact nomatch h
      · obtain rfl := Option.some.inj h
        rfl
    · exact nomatch h

theorem wordKind_cases (text : List Char) : wordKind text = .underscore ∨
    wordKind text = .identifier ∨ wordKind text ∈ Kind.reservedWords ∧
      (wordKind text).wordText = some (String.ofList text) := by
  unfold wordKind
  split
  · exact .inl rfl
  · cases h : Kind.ofReserved? (String.ofList text) with
    | none => exact .inr (.inl rfl)
    | some k =>
      unfold Kind.ofReserved? at h
      have htext := List.find?_some h
      exact .inr (.inr ⟨List.mem_of_find?_eq_some h, eq_of_beq htext⟩)

/-- `self` and `mut` begin no literal. -/
theorem next_eq_word {cs : List Char}
    (h : (word cs).kind = .selfKw ∨ (word cs).kind = .mutKw) :
    next contextual? .usual cs = word cs := by
  have hname : Text.identifierPrefix cs ≠ [] := by
    intro hnil
    simp [word, hnil] at h
  have hkind : (word cs).kind = wordKind (Text.identifierPrefix cs) := by
    simp [word, hname, Lexeme.plain]
  obtain ⟨c, rest, rfl, hstart⟩ := start_of_name hname
  have hletter : c = 's' ∨ c = 'm' := by
    rw [hkind] at h
    have htext := (wordKind_cases (Text.identifierPrefix (c :: rest))).resolve_left (by
      rcases h with h | h <;> rw [h] <;> decide)
    have htext := (htext.resolve_left (by rcases h with h | h <;> rw [h] <;> decide)).2
    simp only [Text.identifierPrefix, hstart, if_true] at h htext
    rcases h with h | h
    · rw [h] at htext
      have hword := congrArg String.toList (Option.some.inj htext)
      exact .inl (List.cons.inj (hword.trans String.toList_ofList)).1.symm
    · rw [h] at htext
      have hword := congrArg String.toList (Option.some.inj htext)
      exact .inr (List.cons.inj (hword.trans String.toList_ofList)).1.symm
  rw [next_of_start hstart]
  rcases hletter with rfl | rfl <;> rfl

/-- Behind a word, the name after `r#` or a fault the scanner reads on as usual. -/
theorem isGuide_next_name {cs : List Char} (hname : Text.identifierPrefix cs ≠ []) :
    (next contextual? .usual cs).kind.isGuide = true ∨
      (next contextual? .usual cs).kind.takesSuffix = true := by
  rcases next_name .usual rfl hname with h | h | h | h
  · left
    have hkind : (word cs).kind = wordKind (Text.identifierPrefix cs) := by
      simp [word, hname, Lexeme.plain]
    rw [h, hkind]
    rcases wordKind_cases (Text.identifierPrefix cs) with h | h | ⟨h, -⟩
    · rw [h]; rfl
    · rw [h]; rfl
    · exact (show ∀ k ∈ Kind.reservedWords, k.isGuide = true by decide +kernel) _ h
  · rw [h]; exact .inl rfl
  · exact .inr h
  · rw [h]; exact .inl rfl

/-- A quote stands alone only before a name. -/
theorem name_of_quote {a : Admitted} {cs : List Char} (ha : a.ReadsLiterals)
    (hchar : a.char = true) (hlifetime : a.lifetime = true)
    (hsuffix : a.literalSuffix = false) (h : (next contextual? a cs).kind = .quote) :
    ∃ rest, cs = '\'' :: rest ∧ Text.identifierPrefix rest ≠ [] ∧
      (next contextual? a cs).length = 1 := by
  have hne : cs ≠ [] := by
    rintro rfl
    cases h
  obtain ⟨c, rest, rfl⟩ := List.exists_cons_of_ne_nil hne
  have hfits := next_fits ha hne
  have hquote : (c :: rest).take (next contextual? a (c :: rest)).length = ['\''] :=
    hfits.spelled "'" (by rw [h]; rfl)
  generalize hl : next contextual? a (c :: rest) = l at *
  have hpos := hfits.pos
  obtain ⟨n, hn⟩ : ∃ n, l.length = n + 1 := ⟨l.length - 1, by omega⟩
  have hle := hfits.le
  rw [hn, List.take_succ_cons] at hquote
  obtain ⟨rfl, hnil⟩ := List.cons.inj hquote
  have hzero : n = 0 := by
    have := congrArg List.length hnil
    simp only [List.length_take, List.length_cons, List.length_nil] at this hle
    omega
  refine ⟨rest, rfl, fun hname => ?_, by rw [hn, hzero]⟩
  have hmark : mark? ('\'' :: rest) = none := by
    have hmarks : ∀ m ∈ marks, ∃ d ds, m.1 = d :: ds ∧ d ≠ '\'' := by
      intro m hm
      have hhead : m.1 ≠ [] ∧ m.1.head? ≠ some '\'' :=
        (show ∀ m ∈ marks, m.1 ≠ [] ∧ m.1.head? ≠ some '\'' by decide +kernel) m hm
      obtain ⟨d, ds, hd⟩ := List.exists_cons_of_ne_nil hhead.1
      exact ⟨d, ds, hd, fun he => hhead.2 (by rw [hd, he]; rfl)⟩
    refine Option.map_eq_none_iff.2 (List.find?_eq_none.2 fun m hm hp => ?_)
    obtain ⟨d, ds, hd, hne⟩ := hmarks m hm
    rw [hd, List.isPrefixOf_cons_cons, Bool.and_eq_true, beq_iff_eq] at hp
    exact hne hp.1
  have hscan : contextual? a ('\'' :: rest) = QuoteMark.scan? a rest := by
    unfold contextual?
    simp [hsuffix]
  unfold next at hl
  rw [hmark] at hl
  simp only [hscan, QuoteMark.scan?, hname, hchar, hlifetime, List.isEmpty_nil, Bool.not_true,
    Bool.and_false, Bool.false_and, Bool.false_eq_true, if_false] at hl
  subst hl
  split at h
  · next l hl =>
    have hkind := QuoteMark.kind_of_character? hl
    cases hkind.symm.trans h
  · cases h

end Lexeme

namespace Scanner

open Lexeme (contextual?)

theorem kind_markLineBreak (s : Scanner) (b : Bool) : (s.markLineBreak b).kind = s.kind := by
  unfold Scanner.markLineBreak
  split <;> rfl

theorem here_markLineBreak (s : Scanner) (b : Bool) : (s.markLineBreak b).here = s.here := by
  unfold Scanner.markLineBreak
  split <;> rfl

theorem suffixOnly_eq (cs : List Char) : contextual? .suffixOnly cs =
    if (Text.identifierPrefix cs).isEmpty then none
    else some (.plain .literalSuffix (Text.identifierPrefix cs).length) := by
  by_cases hnil : Text.identifierPrefix cs = []
  · have hnothing : contextual? {} cs = none := by
      fun_cases contextual? {} cs
      case case1 suffix hsuffix => cases hsuffix
      all_goals first | rfl | cases ‹Admitted.rawString {} = true›
    rw [Lexeme.contextual?_withoutSuffix fun _ => hnil, if_pos (by rw [hnil]; rfl)]
    exact hnothing
  · unfold contextual?
    simp [Admitted.suffixOnly, hnil]

/-- Behind a literal that no name touches the scanner reads on as usual. -/
theorem facing_afterLiteral {c : Cursor} (h : Text.identifierPrefix c.rest = []) :
    facing .afterLiteral c = facing .usual c := by
  have hsuffix : contextual? .suffixOnly c.rest = none := by rw [suffixOnly_eq, h]; rfl
  have hskip (offset : Nat) (cs : List Char) :=
    Trivia.skip_congr contextual? (a := .afterLiteral) (b := .usual) rfl offset false
      #[] cs
  unfold facing scan scanPastTrivia
  simp only [hsuffix, hskip]
  simp [Admitted.afterLiteral, Admitted.usual, Admitted.withoutSuffix]

/-- A name that touches a literal is its suffix. -/
theorem facing_suffix {c : Cursor} (hcut : c.cut = 0) (h : Text.identifierPrefix c.rest ≠ []) :
    (facing .afterLiteral c).kind = .literalSuffix ∧
      (facing .afterLiteral c).here = c.advance (Text.identifierPrefix c.rest).length := by
  have hsuffix : contextual? .suffixOnly c.rest =
      some (.plain .literalSuffix (Text.identifierPrefix c.rest).length) := by
    rw [suffixOnly_eq, if_neg (by simpa using h)]
  have hface : facing .afterLiteral c = moveTo { start := c, here := c, token := noToken c.offset } c
      (.plain .literalSuffix (Text.identifierPrefix c.rest).length) := by
    unfold facing scan
    simp only [hcut, hsuffix]
    rfl
  rw [hface]
  exact ⟨rfl, rfl⟩

/-- Behind a dot the scanner reads on as usual, but for numbers. -/
theorem facing_tupleIndex {text : List Char} {c : Cursor} (hc : c.In text) :
    facing .tupleIndex c = facing .usual c ∨
      (facing .tupleIndex c).kind.takesSuffix = true ∧
        (facing .usual c).kind.takesSuffix = true := by
  have hskip := Trivia.skip_congr contextual? (a := .tupleIndex) (b := .usual) rfl
    c.offset false #[] c.rest
  by_cases hshebang : shebang? c = none
  · have hpast (admitted : Admitted) (ha : admitted.literalSuffix = false) :
        facing admitted c = ({ start := c, here := c, token := noToken c.offset } :
          Scanner).scanPastTrivia contextual? admitted := by
      unfold facing scan
      simp [not_not.2 hc.1, ha, hshebang]
    rw [hpast _ rfl, hpast _ rfl, scanPastTrivia_eq hc hskip, scanPastTrivia_eq hc rfl]
    cases (Trivia.skip contextual? .usual c.offset false #[] c.rest).endless with
    | some l => exact .inl rfl
    | none =>
      simp only [kind_markLineBreak]
      refine (Lexeme.next_tupleIndex _).imp (fun h => ?_) id
      show (moveTo _ _ (Lexeme.next contextual? .tupleIndex _)).markLineBreak _ = _
      rw [h]
      rfl
  · obtain ⟨l, hl⟩ := Option.ne_none_iff_exists'.1 hshebang
    left
    unfold facing scan
    simp [not_not.2 hc.1, hl, Admitted.tupleIndex, Admitted.usual]

theorem begins_of_name {cs : List Char} (h : Text.identifierPrefix cs ≠ []) : Begins cs := by
  obtain ⟨c, rest, rfl, hstart⟩ := Lexeme.start_of_name h
  obtain ⟨-, -, -, hslash, -⟩ := Lexeme.ne_of_isIdentifierStart hstart
  have hblank : Text.isWhiteSpace c = false := by
    refine Bool.eq_false_iff.2 fun hblank => ?_
    simp only [Text.isWhiteSpace, Bool.or_eq_true, beq_iff_eq] at hblank
    rcases hblank with (((((((((rfl | rfl) | rfl) | rfl) | rfl) | rfl) | rfl) | rfl) | rfl) | rfl) | rfl
      <;> exact absurd hstart (by decide +kernel)
  have hhash : c ≠ '#' := by
    rintro rfl
    exact absurd hstart (by decide)
  exact ⟨c, rest, rfl, hblank, hhash, fun hc => absurd hc hslash⟩

/-- A name is read at once. -/
theorem facing_name {admitted : Admitted} (ha : admitted.literalSuffix = false) {c : Cursor}
    (hcut : c.cut = 0) (h : Text.identifierPrefix c.rest ≠ []) :
    facing admitted c = moveTo { start := default, here := default, token := default } c
      (Lexeme.next contextual? admitted c.rest) := by
  obtain ⟨offset, cut, rest⟩ := c
  obtain rfl : cut = 0 := hcut
  exact facing_eq admitted (begins_of_name h) ha offset 0

/-- Behind a quote that stands alone comes a name. -/
theorem name_of_quote {text : List Char} {s : Scanner} {admitted : Admitted}
    (ha : admitted.ReadsLiterals) (hchar : admitted.char = true) (hlifetime : admitted.lifetime = true)
    (hhere : s.here.In text) (hk : (s.scan contextual? admitted).kind = .quote) :
    Text.identifierPrefix (s.scan contextual? admitted).here.rest ≠ [] := by
  unfold scan at hk ⊢
  simp only [not_not.2 hhere.1, if_false] at hk ⊢
  split at hk
  · next l hl =>
    have hkind : l.kind = .literalSuffix ∨ l.kind = .shebang := by
      rw [Option.orElse_eq_orElse, Option.orElse_eq_or, Option.or_eq_some_iff] at hl
      rcases hl with hs | ⟨-, hb⟩
      · rw [suffixOnly_eq] at hs
        split at hs
        · split at hs
          · cases hs
          · obtain rfl := Option.some.inj hs
            exact .inl rfl
        · cases hs
      · unfold shebang? at hb
        split at hb
        · split at hb
          · cases hb
          · obtain rfl := Option.some.inj hb
            exact .inr rfl
          · cases hb
        · cases hb
    rcases hkind with h | h <;> cases h.symm.trans hk
  · have hpast := scanPastTrivia_eq (s := { s with leading := [] }) (a := admitted) hhere rfl
    have hsound := Trivia.skip_sound contextual? Lexeme.contextual_fits admitted false #[] hhere.2
    simp only at hpast
    generalize ht : Trivia.skip contextual? admitted s.here.offset false #[] s.here.rest = t at *
    rw [hpast, kind_markLineBreak] at hk
    rw [hpast, here_markLineBreak]
    cases hendless : t.endless with
    | some l =>
      rw [hendless] at hk
      have hfaultless := (hsound.endless l hendless).1.faultless (by rw [show l.kind = .quote from hk]; rfl)
      rw [← ht] at hendless
      exact absurd hfaultless.1 (Trivia.endless_fault hendless)
    | none =>
      rw [hendless] at hk
      obtain ⟨rest, hrest, hname, hlength⟩ :=
        Lexeme.name_of_quote (a := admitted.withoutSuffix) (by exact ha) hchar hlifetime rfl hk
      show Text.identifierPrefix (t.cursor.rest.drop _) ≠ []
      rw [Option.getD_none, hlength, hrest]
      exact hname

/-! ### Scanners with the end of an item before them -/

/-- Taking tokens without a fault, each in a way in which the grammar takes it, leads to a mark that
may end an item. -/
inductive Reaches : Scanner → Prop
  | ends {s : Scanner} (h : s.kind.isEnd = true) : Reaches s
  | take {s : Scanner} {next : Admitted} (hask : s.kind.Asks next) (hfaults : s.token.faults = [])
      (hkind : s.kind ≠ .endOfFile) (h : Reaches (s.scan contextual? next)) : Reaches s
  | split {s : Scanner} {first : Kind} (hsplit : SplitsInto s.kind first)
      (h : Reaches (s.split first)) : Reaches s
  | join {s : Scanner} (h : Reaches s.joinGreater) : Reaches s
  | flush {s : Scanner} (h : Reaches { s with leading := [] }) : Reaches s

/-- Nothing is wrong at a token from which the end of an item is reached. -/
theorem Reaches.firm {text : List Char} {s : Scanner} (h : s.Reaches) (hs : s.Sound text) :
    s.token.faults = [] ∧ s.kind ≠ .endOfFile := by
  induction h with
  | @ends s h =>
    have hplain : s.kind.mayBeFaulty = false ∧ s.kind ≠ .endOfFile := by
      rcases Kind.eq_of_isEnd h with h | h <;> rw [h] <;> exact ⟨rfl, by decide⟩
    exact ⟨hs.laid.faultless hplain.1, hplain.2⟩
  | take hask hfaults hkind h ih => exact ⟨hfaults, hkind⟩
  | @split s first hsplit h ih =>
    have hplain : s.kind.mayBeFaulty = false ∧ s.kind ≠ .endOfFile := by
      simp only [SplitsInto, List.mem_cons, Prod.mk.injEq, List.not_mem_nil, or_false] at hsplit
      rcases hsplit with ⟨hs, -⟩ | ⟨hs, -⟩ | ⟨hs, -⟩ <;> rw [hs] <;> exact ⟨rfl, by decide⟩
    exact ⟨hs.laid.faultless hplain.1, hplain.2⟩
  | @join s h ih =>
    by_cases hk : s.kind = .gt
    · exact ⟨hs.laid.faultless (by rw [show s.token.kind = .gt from hk]; rfl), by rw [hk]; decide⟩
    · rw [joinGreater_eq_self hk] at ih
      exact ih hs
  | flush h ih => exact ih ⟨hs.1, hs.2, hs.3, hs.4, hs.5, hs.6, hs.7, hs.8⟩

/-- Behind a guide the end of an item is still to come. -/
theorem Reaches.next {s : Scanner} (h : s.Reaches) (hk : s.kind.isGuide = true) :
    (s.scan contextual? .usual).Reaches := by
  induction h with
  | ends h => simp [Kind.isGuide, h] at hk
  | @take s next hask hfaults hkind h ih =>
    rcases hask with rfl | ⟨-, hdot⟩ | ⟨-, hsuffix⟩
    · exact h
    · rcases hdot with hdot | hdot <;> rw [hdot] at hk <;> cases hk
    · simp [Kind.isGuide, hsuffix] at hk
  | @split s first hsplit h ih =>
    simp only [SplitsInto, List.mem_cons, Prod.mk.injEq, List.not_mem_nil, or_false] at hsplit
    rcases hsplit with ⟨hs, -⟩ | ⟨hs, -⟩ | ⟨hs, -⟩ <;> rw [hs] at hk <;> cases hk
  | @join s h ih =>
    have hgt : s.kind ≠ .gt := by
      intro hgt
      rw [hgt] at hk
      cases hk
    rw [joinGreater_eq_self hgt] at ih
    exact ih hk
  | flush h ih => exact ih hk

/-- Behind a literal the end of an item is still to come in one of the ways of reading on. -/
theorem Reaches.behind {s : Scanner} (h : s.Reaches) (hk : s.kind.takesSuffix = true ∨ s.kind = .dot) :
    ∃ next, s.kind.Asks next ∧ (s.scan contextual? next).Reaches := by
  induction h with
  | @ends s h =>
    rcases Kind.eq_of_isEnd h with h | h <;> rw [h] at hk <;> simp [Kind.takesSuffix] at hk
  | @take s next hask hfaults hkind h ih => exact ⟨next, hask, h⟩
  | @split s first hsplit h ih =>
    simp only [SplitsInto, List.mem_cons, Prod.mk.injEq, List.not_mem_nil, or_false] at hsplit
    rcases hsplit with ⟨hs, -⟩ | ⟨hs, -⟩ | ⟨hs, -⟩ <;> rw [hs] at hk <;> simp [Kind.takesSuffix] at hk
  | @join s h ih =>
    have hgt : s.kind ≠ .gt := by
      intro hgt
      rw [hgt] at hk
      simp [Kind.takesSuffix] at hk
    rw [joinGreater_eq_self hgt] at ih
    exact ih hk
  | flush h ih => exact ih hk

/-! ### Scanners before the same tokens -/

/-- A scanner of the whole at the token at which a scanner of the text stands, and so for the tokens
that a look ahead finds. -/
structure Abreast (E : Excerpt) (s s' : Scanner) : Prop where
  sound : s.Sound E.text
  placed : s.Placed E s'
  named : s.kind = .quote → Text.identifierPrefix s.here.rest ≠ []
  reaches : E.tail = [] ∨ s.Reaches

namespace Abreast

variable {E : Excerpt} {s s' : Scanner}

/-- Scanners that go on from the same place. -/
theorem scan {next : Admitted}
    (ha : next.ReadsLiterals ∧ next.char = true ∧ next.lifetime = true) (hs : s.here.In E.text)
    (hmove : s'.here = E.move s.here) (hr : E.tail = [] ∨ (s.scan contextual? next).Reaches) :
    (s.scan contextual? next).Abreast E (s'.scan contextual? next) := by
  have hsound := (scan_sound ha.1 hs).1
  exact ⟨hsound, scan_placed ha.1 hs hmove (hr.imp_right (·.firm hsound)),
    name_of_quote ha.1 ha.2.1 ha.2.2 hs, hr⟩

theorem usual (h : s.Abreast E s') (hr : E.tail = [] ∨ (s.scan contextual? .usual).Reaches) :
    (s.scan contextual? .usual).Abreast E (s'.scan contextual? .usual) :=
  .scan ⟨⟨rfl, rfl⟩, rfl, rfl⟩ h.sound.here h.placed.here hr

/-- Behind a guide stands the same token. -/
theorem next (h : s.Abreast E s') (hk : s.kind.isGuide = true) :
    (s.scan contextual? .usual).Abreast E (s'.scan contextual? .usual) :=
  h.usual (h.reaches.imp_right (·.next hk))

/-- A place of the whole behind a token. -/
theorem here_in (h : s.Abreast E s') : s'.here.In E.whole := by
  rw [h.placed.here]
  exact Excerpt.move_in h.sound.here

theorem identifierPrefix_here (h : s.Abreast E s') :
    Text.identifierPrefix s'.here.rest = Text.identifierPrefix s.here.rest := by
  rw [h.placed.here]
  exact E.read_tail Text.identifierPrefix _ fun more => Text.identifierPrefix_break _

/-- Where only numbers are read in another way, the same token stands, or a literal in both. -/
theorem behind_tupleIndex (h : s.Abreast E s') (hr : (s.scan contextual? .tupleIndex).Reaches) :
    (s.scan contextual? .usual).Abreast E (s'.scan contextual? .usual) ∨
      (s.scan contextual? .usual).kind.takesSuffix = true ∧
        (s'.scan contextual? .usual).kind.takesSuffix = true := by
  rcases facing_tupleIndex h.sound.here with hsame | ⟨hsuffix, husual⟩
  · rw [← scan_eq, ← scan_eq] at hsame
    rw [hsame] at hr
    exact .inl (h.usual (.inr hr))
  · have hface : (s.scan contextual? .tupleIndex).Abreast E (s'.scan contextual? .tupleIndex) :=
      .scan ⟨⟨rfl, rfl⟩, rfl, rfl⟩ h.sound.here h.placed.here (.inr hr)
    have hsuffix' : (facing .tupleIndex s'.here).kind.takesSuffix = true := by
      rw [← scan_eq, hface.placed.kind, scan_eq]
      exact hsuffix
    rw [scan_eq, scan_eq]
    refine .inr ⟨husual, ?_⟩
    rcases facing_tupleIndex h.here_in with hsame | ⟨-, husual⟩
    · rwa [← hsame]
    · exact husual

/-- Behind a dot stands the same token, or a literal in both. -/
theorem behind_dot (h : s.Abreast E s') (hk : s.kind = .dot) :
    (s.scan contextual? .usual).Abreast E (s'.scan contextual? .usual) ∨
      (s.scan contextual? .usual).kind.takesSuffix = true ∧
        (s'.scan contextual? .usual).kind.takesSuffix = true := by
  rcases h.reaches with htail | hr
  · exact .inl (h.usual (.inl htail))
  · obtain ⟨next, hask, hr⟩ := hr.behind (.inr hk)
    rcases hask with rfl | ⟨rfl, -⟩ | ⟨-, hsuffix⟩
    · exact .inl (h.usual (.inr hr))
    · exact h.behind_tupleIndex hr
    · rw [hk] at hsuffix
      exact nomatch hsuffix

/-- What a look behind a literal asks for. -/
def IsSought (k : Kind) : Prop := k = .colon ∨ k = .openBrace ∨ k = .selfKw ∨ k = .mutKw

/-- Behind a literal stands the same token, or a literal in both, or a name touches it. -/
theorem behind (h : s.Abreast E s') (hk : s.kind.takesSuffix = true) :
    (s.scan contextual? .usual).Abreast E (s'.scan contextual? .usual) ∨
      (s.scan contextual? .usual).kind.takesSuffix = true ∧
        (s'.scan contextual? .usual).kind.takesSuffix = true ∨
      Text.identifierPrefix s.here.rest ≠ [] ∧ (s.scan contextual? .afterLiteral).Reaches := by
  rcases h.reaches with htail | hr
  · exact .inl (h.usual (.inl htail))
  · obtain ⟨next, hask, hr⟩ := hr.behind (.inl hk)
    rcases hask with rfl | ⟨rfl, -⟩ | ⟨rfl, -⟩
    · exact .inl (h.usual (.inr hr))
    · exact (h.behind_tupleIndex hr).imp_right .inl
    · by_cases hname : Text.identifierPrefix s.here.rest = []
      · rw [scan_eq, facing_afterLiteral hname, ← scan_eq] at hr
        exact .inl (h.usual (.inr hr))
      · exact .inr (.inr ⟨hname, hr⟩)

/-- The kind of a name. -/
theorem kind_of_name {c : Cursor} {k : Kind} (hcut : c.cut = 0)
    (hname : Text.identifierPrefix c.rest ≠ []) (hk : IsSought k) :
    (facing .usual c).kind = k ↔ (Lexeme.word c.rest).kind = k := by
  rw [facing_name rfl hcut hname]
  show (Lexeme.next contextual? .usual c.rest).kind = k ↔ _
  constructor
  · intro h
    rcases Lexeme.next_name .usual rfl hname with hword | hother | hother | hother
    · rwa [← hword]
    all_goals
      rw [h] at hother
      rcases hk with rfl | rfl | rfl | rfl <;> cases hother
  · intro h
    have hwordKind : (Lexeme.word c.rest).kind = Lexeme.wordKind (Text.identifierPrefix c.rest) := by
      simp [Lexeme.word, hname, Lexeme.plain]
    have hreserved : k ∈ Kind.reservedWords := by
      rw [← h, hwordKind]
      rcases Lexeme.wordKind_cases (Text.identifierPrefix c.rest) with hother | hother | ⟨hk, -⟩
      · rw [← hwordKind, h] at hother
        rcases hk with rfl | rfl | rfl | rfl <;> cases hother
      · rw [← hwordKind, h] at hother
        rcases hk with rfl | rfl | rfl | rfl <;> cases hother
      · exact hk
    rw [Lexeme.next_eq_word]
    · exact h
    · rw [h]
      rcases hk with rfl | rfl | rfl | rfl
      · exact absurd hreserved (by decide +kernel)
      · exact absurd hreserved (by decide +kernel)
      · exact .inl rfl
      · exact .inr rfl

/-- A look behind a literal finds what it asks for in both or in neither. -/
theorem behind_literal (h : s.Abreast E s') (hk : s.kind.takesSuffix = true) {k : Kind}
    (hsought : IsSought k) :
    (s'.scan contextual? .usual).kind = k ↔ (s.scan contextual? .usual).kind = k := by
  rcases h.behind hk with hface | ⟨hbase, hwhole⟩ | ⟨hname, -⟩
  · rw [hface.placed.kind]
  · have hother {k' : Kind} (h : k'.takesSuffix = true) : k' ≠ k := by
      rintro rfl
      rcases hsought with rfl | rfl | rfl | rfl <;> exact nomatch h
    exact iff_of_false (hother hwhole) (hother hbase)
  · rw [scan_eq, scan_eq, kind_of_name h.here_in.1 (by rwa [h.identifierPrefix_here]) hsought,
      kind_of_name h.sound.here.1 hname hsought, h.placed.here]
    exact iff_of_eq (congrArg (·.kind = k)
      (E.read_tail Lexeme.word _ fun more => Lexeme.word_break _))

/-- And what stands behind `mut`. -/
theorem behind_mut (h : s.Abreast E s') (hk : s.kind.takesSuffix = true)
    (hmut : (s.scan contextual? .usual).kind = .mutKw) :
    ((s.scan contextual? .usual).scan contextual? .usual).Abreast E
      ((s'.scan contextual? .usual).scan contextual? .usual) := by
  rcases h.behind hk with hface | ⟨hbase, -⟩ | ⟨hname, hr⟩
  · exact hface.next (by rw [hmut]; rfl)
  · rw [hmut] at hbase
    exact nomatch hbase
  · have hsound : (s.scan contextual? .usual).Sound E.text :=
      (scan_sound ⟨rfl, rfl⟩ h.sound.here).1
    have hfirm : (s.scan contextual? .usual).Firm E := by
      refine .inr ⟨hsound.laid.faultless ?_, ?_⟩
      · rw [show (s.scan contextual? .usual).token.kind = .mutKw from hmut]
        rfl
      · rw [hmut]
        nofun
    have hplaced := scan_placed ⟨rfl, rfl⟩ h.sound.here h.placed.here hfirm
    refine .scan ⟨⟨rfl, rfl⟩, rfl, rfl⟩ hsound.here hplaced.here (.inr ?_)
    obtain ⟨hkind, hhere⟩ := facing_suffix h.sound.here.1 hname
    have hnext := hr.next (by rw [scan_eq, hkind]; rfl)
    rw [scan_eq, scan_eq, hhere] at hnext
    have hself : (s.scan contextual? .usual).here =
        s.here.advance (Text.identifierPrefix s.here.rest).length := by
      rw [scan_eq] at hmut ⊢
      have hword := (kind_of_name h.sound.here.1 hname (.inr (.inr (.inr rfl)))).1 hmut
      rw [facing_name rfl h.sound.here.1 hname, Lexeme.next_eq_word (.inr hword)]
      show s.here.advance (Lexeme.word s.here.rest).length = _
      simp [Lexeme.word, hname, Lexeme.plain]
    rw [scan_eq, hself]
    exact hnext

/-- Behind a quote stands the same name or literal. -/
theorem behind_quote (h : s.Abreast E s') (hk : s.kind = .quote) :
    (s.scan contextual? .usual).Abreast E (s'.scan contextual? .usual) ∧
      ((s.scan contextual? .usual).kind.isGuide = true ∨
        (s.scan contextual? .usual).kind.takesSuffix = true) := by
  refine ⟨h.next (by rw [hk]; rfl), ?_⟩
  rw [scan_eq, facing_name rfl h.sound.here.1 (h.named hk)]
  exact Lexeme.isGuide_next_name (h.named hk)

end Abreast

end Scanner

end ConcreteSyntax
