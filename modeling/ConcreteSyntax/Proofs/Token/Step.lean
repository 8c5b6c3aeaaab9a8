import ConcreteSyntax.Proofs.Token.ReadAt

/-! # What a call of the scanner can do

Each case once, so that what holds of every token is shown case by case. A context-sensitive lexeme is
a suffix, a comment, a lifetime, a character, a string, a raw string or a number, and its class is
admitted (`Lexeme.recognized_of_contextual`). Any lexeme is one of these, or a mark, a word, a name or
what cannot be read (`Lexeme.reads_next`). The scanner moves to what touches the token before, to a
comment that does not end, or past white space and comments to the next lexeme
(`Scanner.moves_scan`). -/

namespace ConcreteSyntax

open QuoteMark (character? unclosed)

variable [Text.Xid]

namespace Lexeme

/-- The context-sensitive lexemes at the front of a text. A character that no quote closes is one of
its class, too, as is a string or a comment that does not end. -/
inductive Recognized (admitted : Admitted) : List Char → Lexeme → Prop
  | suffix {cs : List Char} (ha : admitted.literalSuffix = true)
      (hname : Text.identifierPrefix cs ≠ []) :
      Recognized admitted cs (.plain .literalSuffix (Text.identifierPrefix cs).length)
  | lineComment (ha : admitted.lineComment = true) (cs : List Char) :
      Recognized admitted ('/' :: '/' :: cs) (Comment.line ('/' :: '/' :: cs))
  | blockComment (ha : admitted.blockComment = true) (body : List Char) :
      Recognized admitted ('/' :: '*' :: body) (Comment.block body)
  | lifetime (ha : admitted.lifetime = true) (cs : List Char) :
      Recognized admitted ('\'' :: cs) QuoteMark.alone
  | char (ha : admitted.char = true) {lead : LiteralPrefix} (hlead : lead ≠ .terminated)
      {cs : List Char} {l : Lexeme} (h : character? lead.letters.length lead.flags cs = some l) :
      Recognized admitted (lead.letters ++ '\'' :: cs) l
  | unclosed (ha : admitted.char = true) {lead : LiteralPrefix} (hlead : lead ≠ .terminated)
      (cs : List Char) :
      Recognized admitted (lead.letters ++ '\'' :: cs)
        (unclosed lead.letters.length lead.flags cs)
  | string (ha : admitted.string = true) (lead : LiteralPrefix) (cs : List Char) :
      Recognized admitted (lead.letters ++ '"' :: cs)
        (StringLiteral.scan lead.letters.length lead.flags cs)
  | rawString (ha : admitted.rawString = true) (lead : LiteralPrefix) {cs : List Char} {l : Lexeme}
      (h : StringLiteral.scanRaw? lead.letters.length lead.flags cs = some l) :
      Recognized admitted (lead.letters ++ 'r' :: cs) l
  | number (ha : admitted.integer = true) {c : Char} (hc : c.isDigit = true) (cs : List Char) :
      Recognized admitted (c :: cs) (Number.scan admitted.float (c :: cs))

variable {admitted : Admitted} {cs : List Char} {l : Lexeme}

/-- What a single quote begins is a lifetime or a character. -/
theorem recognized_of_quote (h : QuoteMark.scan? admitted cs = some l) :
    Recognized admitted ('\'' :: cs) l := by
  unfold QuoteMark.scan? at h
  dsimp only at h
  split at h
  · next hname =>
    obtain rfl := Option.some.inj h
    simp only [Bool.and_eq_true] at hname
    exact .lifetime hname.1.1 cs
  · split at h
    · obtain ⟨ha, h⟩ := Option.ite_none_right_eq_some.1 h
      obtain rfl := Option.some.inj h
      exact .lifetime ha cs
    · next hchar =>
      have hchar : admitted.char = true := by simpa using hchar
      split at h
      · next hl =>
        obtain rfl := Option.some.inj h
        exact @Recognized.char _ _ hchar .text nofun _ _ hl
      · split at h
        · next hname =>
          obtain rfl := Option.some.inj h
          exact .lifetime (Bool.and_eq_true_iff.1 hname).1 cs
        · obtain rfl := Option.some.inj h
          exact @Recognized.unclosed _ _ hchar .text nofun cs

/-- **What is recognised is of a class that is admitted.** -/
theorem recognized_of_contextual (h : contextual? admitted cs = some l) :
    Recognized admitted cs l := by
  have hsuffix : (if admitted.literalSuffix then Text.identifierPrefix cs else []) ≠ [] →
      admitted.literalSuffix = true ∧
        (if admitted.literalSuffix then Text.identifierPrefix cs else []) =
          Text.identifierPrefix cs := by
    split
    · next ha => exact fun _ => ⟨ha, rfl⟩
    · exact fun hne => absurd rfl hne
  unfold contextual? at h
  dsimp only at h
  generalize (if admitted.literalSuffix then Text.identifierPrefix cs else []) = suffix at h hsuffix
  split at h
  · next hname =>
    have hne : suffix ≠ [] := by simpa using hname
    obtain ⟨ha, rfl⟩ := hsuffix hne
    obtain rfl := Option.some.inj h
    exact .suffix ha hne
  · split at h
    · obtain ⟨ha, rfl⟩ := onlyIf_eq_some h
      exact .lineComment ha _
    · obtain ⟨ha, rfl⟩ := onlyIf_eq_some h
      exact .blockComment ha _
    · exact recognized_of_quote h
    · obtain ⟨ha, rfl⟩ := onlyIf_eq_some h
      exact .string ha .text _
    · obtain ⟨ha, h⟩ := Option.ite_none_right_eq_some.1 h
      exact .rawString ha .text h
    · next rest =>
      obtain ⟨ha, rfl⟩ := onlyIf_eq_some h
      unfold QuoteMark.prefixed
      cases hl : character? 1 { bytePrefix := true } rest with
      | some l => exact @Recognized.char _ _ ha .bytes nofun _ _ hl
      | none => exact @Recognized.unclosed _ _ ha .bytes nofun rest
    · obtain ⟨ha, rfl⟩ := onlyIf_eq_some h
      exact .string ha .bytes _
    · obtain ⟨ha, rfl⟩ := onlyIf_eq_some h
      exact .string ha .terminated _
    · obtain ⟨ha, h⟩ := Option.ite_none_right_eq_some.1 h
      exact .rawString ha .bytes h
    · obtain ⟨ha, h⟩ := Option.ite_none_right_eq_some.1 h
      exact .rawString ha .terminated h
    · obtain ⟨hd, h⟩ := Option.ite_none_right_eq_some.1 h
      obtain ⟨ha, rfl⟩ := onlyIf_eq_some h
      exact .number ha hd _
    · exact nomatch h

/-- The lexemes that are read at the front of a text. What depends on the admitted classes is asked
for nowhere before a slash: comments are skipped with the white space. -/
inductive Reads (admitted : Admitted) : List Char → Lexeme → Prop
  | mark {cs : List Char} {l : Lexeme} (h : mark? cs = some l) : Reads admitted cs l
  | contextual {cs : List Char} {l : Lexeme} (hslash : cs.head? ≠ some '/')
      (h : Recognized admitted cs l) : Reads admitted cs l
  | dollar (cs : List Char) : Reads admitted ('$' :: cs) (dollar cs)
  | quote (cs : List Char) : Reads admitted ('\'' :: cs) (.plain .quote 1)
  | unreadable (c : Char) (cs : List Char) : Reads admitted (c :: cs) (.plain .errorSentinel 1)
  | rawName {cs : List Char} {l : Lexeme} (h : rawName? cs = some l) : Reads admitted cs l
  | word (c : Char) (cs : List Char) : Reads admitted (c :: cs) (word (c :: cs))
  | atEnd : Reads admitted [] (.plain .endOfFile 0)

/-- Where something is recognised it is read, and else what stands there instead. -/
theorem reads_getD (hslash : cs.head? ≠ some '/') (h : Reads admitted cs l) :
    Reads admitted cs ((contextual? admitted cs).getD l) := by
  cases hl : contextual? admitted cs with
  | some l' => exact .contextual hslash (recognized_of_contextual hl)
  | none => exact h

theorem reads_wordOrLiteral (c : Char) (cs : List Char) :
    Reads admitted (c :: cs) (wordOrLiteral contextual? admitted (c :: cs)) := by
  have hname : Reads admitted (c :: cs) ((rawName? (c :: cs)).getD (word (c :: cs))) := by
    cases hl : rawName? (c :: cs) with
    | some l => exact .rawName hl
    | none => exact .word c cs
  have hor (o : Option Lexeme) :
      ((o <|> rawName? (c :: cs)).getD (word (c :: cs))) =
        o.getD ((rawName? (c :: cs)).getD (word (c :: cs))) := by
    cases o <;> rfl
  unfold wordOrLiteral
  rw [hor]
  split
  · next h =>
    obtain ⟨rfl, -⟩ := List.cons.inj h
    exact reads_getD nofun hname
  · next h =>
    obtain ⟨rfl, -⟩ := List.cons.inj h
    exact reads_getD nofun hname
  · next h =>
    obtain ⟨rfl, -⟩ := List.cons.inj h
    exact reads_getD nofun hname
  · exact hname

/-- **Each lexeme is read in one of these ways.** -/
theorem reads_next (admitted : Admitted) (cs : List Char) :
    Reads admitted cs (next contextual? admitted cs) := by
  unfold next
  split
  · next h => exact .mark h
  · split
    · exact .dollar _
    · exact reads_getD nofun (.quote _)
    · next c rest _ _ _ =>
      split
      · next hc =>
        refine reads_getD (fun h => ?_) (.unreadable c rest)
        obtain rfl := Option.some.inj h
        exact absurd hc (by decide)
      · exact reads_wordOrLiteral c rest
    · exact .atEnd

end Lexeme

/-- What is skipped ends at no other lexeme than a comment without an end. -/
theorem Trivia.recognized_of_endless {admitted : Admitted} {offset : Nat} {lineBreak : Bool}
    {comments : Array Token} {cs : List Char} {l : Lexeme}
    (h : (Trivia.skip Lexeme.contextual? admitted offset lineBreak comments cs).endless = some l) :
    l.kind.isComment = false ∧ ∃ rest, Lexeme.Recognized admitted.comments rest l := by
  fun_induction Trivia.skip Lexeme.contextual? admitted offset lineBreak comments cs with
  | case2 offset lineBreak comments c rest hw ih => exact ih h
  | case4 offset lineBreak comments c rest hw hslash l' hcomment hl token ih =>
    simp only [hl, hcomment] at h
    exact ih h
  | case5 offset lineBreak comments c rest hw hslash l' hcomment hl =>
    simp only [hl, hcomment] at h
    obtain rfl := Option.some.inj h
    exact ⟨Bool.eq_false_iff.2 hcomment, _, Lexeme.recognized_of_contextual hl⟩
  | case3 offset lineBreak comments c rest hw hslash hl =>
    simp only [hl] at h
    cases h
  | case1 | case6 => cases h

namespace Scanner

/-- What the scanner skips before the next token. -/
def trivia (admitted : Admitted) (s : Scanner) : Trivia :=
  Trivia.skip Lexeme.contextual? admitted s.here.offset false #[] s.here.rest

/-- The scanners to which a call may lead. -/
inductive Moves (admitted : Admitted) (s : Scanner) : Scanner → Prop
  /-- A suffix touches the token before. -/
  | suffix (hcut : s.here.cut = 0) (ha : admitted.literalSuffix = true) {l : Lexeme}
      (hl : Lexeme.contextual? .suffixOnly s.here.rest = some l) :
      Moves admitted s ({ s with leading := [] }.moveTo s.here l)
  /-- So does a shebang, at the start of a text. -/
  | shebang (hcut : s.here.cut = 0) {l : Lexeme} (hl : shebang? s.here = some l) :
      Moves admitted s ({ s with leading := [] }.moveTo s.here l)
  /-- The scanner stands inside a character. -/
  | inside (hcut : s.here.cut ≠ 0) :
      Moves admitted s
        ({ s with leading := [] }.readToken Lexeme.contextual? admitted.withoutSuffix s.here)
  /-- Behind white space and comments stands a comment that does not end. -/
  | endless (hcut : s.here.cut = 0) {l : Lexeme} (hl : (s.trivia admitted).endless = some l) :
      Moves admitted s
        ({ s with leading := (s.trivia admitted).comments.toList }.moveTo
          (s.trivia admitted).cursor l)
  /-- Behind white space and comments stands a lexeme or the end of the text. -/
  | past (hcut : s.here.cut = 0) (hnone : (s.trivia admitted).endless = none) :
      Moves admitted s
        (({ s with leading := (s.trivia admitted).comments.toList }.readToken Lexeme.contextual?
          admitted.withoutSuffix (s.trivia admitted).cursor).markLineBreak
            (s.trivia admitted).lineBreak)

/-- **A call of the scanner leads to one of these.** -/
theorem moves_scan (admitted : Admitted) (s : Scanner) :
    Moves admitted s (s.scan Lexeme.contextual? admitted) := by
  by_cases hcut : s.here.cut = 0
  · unfold scan
    simp only [hcut, ne_eq, not_true_eq_false, if_false]
    split
    · next l hl =>
      rw [Option.orElse_eq_orElse, Option.orElse_eq_or, Option.or_eq_some_iff] at hl
      rcases hl with hs | ⟨-, hb⟩
      · obtain ⟨ha, hs⟩ := Option.ite_none_right_eq_some.1 hs
        exact .suffix hcut ha hs
      · exact .shebang hcut hb
    · unfold scanPastTrivia
      simp only [hcut, ne_eq, not_true_eq_false, if_false]
      split
      · next hl => exact .endless hcut hl
      · next hnone => exact .past hcut hnone
  · unfold scan scanPastTrivia
    simp only [hcut, ne_eq, not_false_eq_true, if_true]
    exact .inside hcut

end Scanner

end ConcreteSyntax
