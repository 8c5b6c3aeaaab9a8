import ConcreteSyntax.Proofs.Token.ReadAt

/-! # Where a raw string ends

A raw string ends at the first quote with as many `#` behind it as before its opening quote. What
stands between the two is its content, as it is (`StringLiteral.readAt_raw`): neither a quote with
fewer `#` behind it nor the end of the content can make it close early, since a terminator that
began in the content would have its `#` in the content, too (`StringLiteral.rawLength?_append`). -/

namespace ConcreteSyntax

open Text (byteLength)

namespace StringLiteral

/-- The mark that closes a raw string. -/
def rawClosing (hashes : Nat) : List Char := '"' :: List.replicate hashes '#'

/-- The mark that opens a raw string, with its prefix. -/
def rawOpening (lead : LiteralPrefix) (hashes : Nat) : List Char :=
  lead.letters ++ 'r' :: (List.replicate hashes '#' ++ ['"'])

/-- The token of a raw string: the opening mark, the content if there is some, and the closing
mark. -/
def rawToken (lead : LiteralPrefix) (hashes : Nat) (content : List Char) (offset : Nat) : Token :=
  let opened := offset + (rawOpening lead hashes).length
  let closing := opened + byteLength content
  let stop := closing + (hashes + 1)
  { kind := .rawStringToken
    range := ⟨offset, stop⟩
    flags := lead.flags
    pieces := ⟨.rawStringStart, offset, opened⟩ ::
      ((if content = [] then [] else [⟨.stringContent, opened, closing⟩]) ++
        [⟨.rawStringEnd, closing, stop⟩]) }

/-! ### The terminator -/

/-- A terminator that begins in the content lies in it. -/
theorem isInfix_of_closing {hashes : Nat} {content rest : List Char}
    (h : List.replicate hashes '#' <+: content ++ rawClosing hashes ++ rest) :
    List.replicate hashes '#' <+: content := by
  rw [List.append_assoc] at h
  rcases List.prefix_or_prefix_of_prefix h (List.prefix_append content _) with h' | h'
  · exact h'
  · -- else the closing quote would be one of the marks
    obtain ⟨more, hmore⟩ := h'
    cases more with
    | nil => exact ⟨[], by simpa using hmore.symm⟩
    | cons c more =>
      rw [← hmore, List.prefix_append_right_inj] at h
      have hc : c = '"' := by
        obtain ⟨tail, htail⟩ := h
        exact (List.cons.inj htail).1
      have hmem : c ∈ List.replicate hashes '#' := by simp [← hmore]
      rw [hc] at hmem
      exact absurd (List.eq_of_mem_replicate hmem) (by decide)

/-- The first terminator is the one behind a content that holds none. -/
theorem rawLength?_append {hashes : Nat} {content : List Char} (rest : List Char)
    (h : ¬ rawClosing hashes <:+: content) :
    rawLength? hashes (content ++ rawClosing hashes ++ rest) = some content.length := by
  induction content with
  | nil => simp [rawClosing, rawLength?]
  | cons c content ih =>
    have hrest : ¬ rawClosing hashes <:+: content := fun hin => h (List.infix_cons hin)
    rw [List.cons_append, List.cons_append, rawLength?, ih hrest]
    split
    · next hend =>
      obtain ⟨hc, hmarks⟩ := Bool.and_eq_true_iff.1 hend
      obtain rfl : c = '"' := by simpa using hc
      have hin := isInfix_of_closing (List.isPrefixOf_iff_prefix.1 hmarks)
      exact absurd ((List.prefix_cons_inj _).2 hin).isInfix h
    · rfl

/-- Without a terminator there is no end. -/
theorem rawLength?_eq_none {hashes : Nat} {cs : List Char} (h : ¬ rawClosing hashes <:+: cs) :
    rawLength? hashes cs = none := by
  induction cs with
  | nil => rfl
  | cons c cs ih =>
    have hrest : ¬ rawClosing hashes <:+: cs := fun hin => h (List.infix_cons hin)
    rw [rawLength?, ih hrest]
    split
    · next hend =>
      obtain ⟨hc, hmarks⟩ := Bool.and_eq_true_iff.1 hend
      obtain rfl : c = '"' := by simpa using hc
      exact absurd ((List.prefix_cons_inj _).2 (List.isPrefixOf_iff_prefix.1 hmarks)).isInfix h
    · rfl

/-! ### The token -/

theorem utf8Size_rawClosing {hashes : Nat} : ∀ c ∈ rawClosing hashes, c.utf8Size = 1 := by
  intro c hc
  rcases List.mem_cons.1 hc with rfl | hc
  · rfl
  · rw [List.eq_of_mem_replicate hc]
    rfl

theorem utf8Size_rawOpening {lead : LiteralPrefix} {hashes : Nat} :
    ∀ c ∈ rawOpening lead hashes, c.utf8Size = 1 := by
  intro c hc
  simp only [rawOpening, List.mem_append, List.mem_cons, List.not_mem_nil, or_false] at hc
  rcases hc with hc | rfl | hc | rfl
  · cases lead with
    | text => exact nomatch hc
    | bytes => rw [List.mem_singleton.1 hc]; rfl
    | terminated => rw [List.mem_singleton.1 hc]; rfl
  · rfl
  · rw [List.eq_of_mem_replicate hc]; rfl
  · rfl

/-- The marks behind the `r` are counted up to the opening quote. -/
theorem takeWhile_marks (hashes : Nat) (rest : List Char) :
    (List.replicate hashes '#' ++ '"' :: rest).takeWhile (· == '#') =
      List.replicate hashes '#' := by
  rw [List.takeWhile_append_of_pos (by simp)]
  simp

/-- What is read behind the opening mark of a raw string. -/
theorem scanRaw?_opening (lead : LiteralPrefix) (hashes : Nat) (rest : List Char) :
    scanRaw? lead.letters.length lead.flags (List.replicate hashes '#' ++ '"' :: rest) =
      some (match rawLength? hashes rest with
        | none => unterminated lead.flags (rawOpening lead hashes ++ rest).length
            (.unterminatedRawString hashes)
        | some length =>
          { kind := .rawStringToken
            length := (rawOpening lead hashes).length + length + (hashes + 1)
            flags := lead.flags
            pieces := (.rawStringStart, (rawOpening lead hashes).length) ::
              (contentPiece length ++ [(.rawStringEnd, hashes + 1)]) }) := by
  have hlead : lead.letters.length + hashes + 2 = (rawOpening lead hashes).length := by
    simp [rawOpening]
    omega
  unfold scanRaw?
  simp only [takeWhile_marks, List.length_replicate, List.drop_left' (List.length_replicate ..),
    hlead]
  cases rawLength? hashes rest with
  | none =>
    have hlength : lead.letters.length + 1 + (List.replicate hashes '#' ++ '"' :: rest).length =
        (rawOpening lead hashes ++ rest).length := by
      simp [rawOpening]
      omega
    simp only [hlength]
  | some length =>
    have hsum : (((Kind.rawStringStart, (rawOpening lead hashes).length) ::
        (contentPiece length ++ [(.rawStringEnd, hashes + 1)])).map (·.2)).foldr (· + ·) 0 =
          (rawOpening lead hashes).length + length + (hashes + 1) := by
      change Lexeme.piecesLength _ = _
      simp only [Lexeme.piecesLength_cons, Lexeme.piecesLength_append, Lexeme.piecesLength_nil,
        Lexeme.stringContent_sound.1]
      omega
    simp only [hsum]

/-- The raw string in its place. -/
theorem place_raw (lead : LiteralPrefix) (hashes offset : Nat) (content rest : List Char) :
    ({ kind := .rawStringToken
       length := (rawOpening lead hashes).length + content.length + (hashes + 1)
       flags := lead.flags
       pieces := (.rawStringStart, (rawOpening lead hashes).length) ::
         (contentPiece content.length ++ [(.rawStringEnd, hashes + 1)]) } : Lexeme).place offset
      (rawOpening lead hashes ++ content ++ rawClosing hashes ++ rest) =
        rawToken lead hashes content offset := by
  have hopening := Text.byteLength_eq_length (@utf8Size_rawOpening lead hashes)
  have hclosing := Text.byteLength_eq_length (@utf8Size_rawClosing hashes)
  have hhashes : (rawClosing hashes).length = hashes + 1 := by simp [rawClosing]
  have hend (start : Nat) : Lexeme.placePieces start (rawClosing hashes ++ rest)
      [(.rawStringEnd, hashes + 1)] = [⟨.rawStringEnd, start, start + (hashes + 1)⟩] := by
    rw [← hhashes, Lexeme.placePieces_cons, hclosing]
    rfl
  have hpieces : Lexeme.placePieces offset
      (rawOpening lead hashes ++ (content ++ (rawClosing hashes ++ rest)))
      ((.rawStringStart, (rawOpening lead hashes).length) ::
        (contentPiece content.length ++ [(.rawStringEnd, hashes + 1)])) =
          (rawToken lead hashes content offset).pieces := by
    rw [Lexeme.placePieces_cons, hopening]
    unfold rawToken contentPiece
    by_cases hcontent : content = []
    · simp [hcontent, hend]
    · have hlength : content.length ≠ 0 := fun h => hcontent (List.length_eq_zero_iff.1 h)
      simp only [hlength, hcontent, if_false, List.cons_append, List.nil_append,
        Lexeme.placePieces_cons, hend]
  have hrange : byteLength ((rawOpening lead hashes ++ content ++ rawClosing hashes ++ rest).take
      ((rawOpening lead hashes).length + content.length + (hashes + 1))) =
        (rawOpening lead hashes).length + byteLength content + (hashes + 1) := by
    rw [List.take_left' (by simp [hhashes]; omega)]
    simp only [Text.byteLength_append, hopening, hclosing, hhashes]
  have hread : (rawToken lead hashes content offset).pieces.filterMap Lexeme.pieceFault? = [] := by
    unfold rawToken
    split <;> rfl
  unfold Lexeme.place
  rw [hrange]
  simp only [List.append_assoc, hpieces, hread]
  simp [rawToken, Nat.add_assoc]

section

variable [Text.Xid] {admitted : Admitted}

/-- Behind a prefix and an `r` a raw string is looked for. -/
theorem contextual?_raw (ha : admitted.rawString = true) (hs : admitted.literalSuffix = false)
    (lead : LiteralPrefix) (cs : List Char) :
    Lexeme.contextual? admitted (lead.letters ++ 'r' :: cs) =
      scanRaw? lead.letters.length lead.flags cs := by
  cases lead <;> simp [LiteralPrefix.letters, LiteralPrefix.flags, Lexeme.contextual?, ha, hs]

/-- **Raw strings close at the first terminator.** Where raw strings are admitted, and no suffix is,
an opening mark with its `#`, a content without the terminator and the terminator are one token,
whatever follows; its content piece is the content. An opening mark without a terminator behind it
is an error up to the end of the text. -/
theorem readAt_raw (ha : admitted.rawString = true) (hs : admitted.literalSuffix = false)
    (lead : LiteralPrefix) (hashes offset : Nat) :
    (∀ content rest, ¬ rawClosing hashes <:+: content →
      Token.ReadAt admitted offset (rawOpening lead hashes ++ content ++ rawClosing hashes ++ rest)
        (rawToken lead hashes content offset)) ∧
    ∀ rest, ¬ rawClosing hashes <:+: rest →
      Token.ReadAt admitted offset (rawOpening lead hashes ++ rest)
        (.endless lead.flags (.unterminatedRawString hashes)
          ⟨offset, offset + byteLength (rawOpening lead hashes ++ rest)⟩) := by
  have hread (tail : List Char) (l : Lexeme)
      (hl : scanRaw? lead.letters.length lead.flags (List.replicate hashes '#' ++ '"' :: tail) =
        some l) : Token.ReadAt admitted offset (rawOpening lead hashes ++ tail)
          (l.place offset (rawOpening lead hashes ++ tail)) := by
    have h := contextual?_raw ha hs lead (List.replicate hashes '#' ++ '"' :: tail)
    have htext : lead.letters ++ 'r' :: (List.replicate hashes '#' ++ '"' :: tail) =
        rawOpening lead hashes ++ tail := by
      simp [rawOpening]
    rw [htext, hl] at h
    obtain ⟨c, cs, hc, hcs⟩ : ∃ c cs, c ∈ Lexeme.quoteStarts ∧
        rawOpening lead hashes ++ tail = c :: cs := by
      cases lead <;> exact ⟨_, _, by decide, rfl⟩
    rw [hcs] at h ⊢
    exact Token.readAt_of_contextual hc (fun h' => absurd (hs.symm.trans h') nofun) h offset
  refine ⟨fun content rest hcontent => ?_, fun rest hrest => ?_⟩
  · have h := hread (content ++ rawClosing hashes ++ rest) _ (scanRaw?_opening lead hashes _)
    rw [rawLength?_append rest hcontent] at h
    simpa only [← List.append_assoc, place_raw] using h
  · have h := hread rest _ (scanRaw?_opening lead hashes rest)
    rw [rawLength?_eq_none hrest] at h
    rwa [Lexeme.place_unterminated] at h

end

/-- A content with a quote that too few `#` follow and with a `#` at its end, and an opening mark
whose terminator the end of the text cuts off. -/
theorem readAt_raw_short :
    Token.ReadAt .usual 0 "br##\"a\"#b#\"##;".toList
        { kind := .rawStringToken
          range := ⟨0, 13⟩
          flags := { bytePrefix := true }
          pieces := [⟨.rawStringStart, 0, 5⟩, ⟨.stringContent, 5, 10⟩, ⟨.rawStringEnd, 10, 13⟩] } ∧
      Token.ReadAt .usual 0 "r##\"a\"#".toList
        { kind := .errorSentinel
          range := ⟨0, 7⟩
          flags := { unterminated := true }
          faults := [⟨.unterminatedRawString 2, 0, 7⟩] } :=
  ⟨(readAt_raw rfl rfl .bytes 2 0).1 "a\"#b#".toList [';'] (by decide),
    (readAt_raw rfl rfl .text 2 0).2 "a\"#".toList (by decide)⟩

/-- Where literal suffixes are admitted as well, as behind a literal, the `r` is one. -/
theorem raw_taken_for_suffix :
    Admitted.afterLiteral.rawString = true ∧
      Token.ReadAt .afterLiteral 0 (rawOpening .text 0 ++ [] ++ rawClosing 0 ++ [])
        { kind := .literalSuffix, range := ⟨0, 1⟩ } ∧
      ¬ Token.ReadAt .afterLiteral 0 (rawOpening .text 0 ++ [] ++ rawClosing 0 ++ [])
        (rawToken .text 0 [] 0) := by
  have hsuffix := @Token.readAt_suffix _ .afterLiteral
    (rawOpening .text 0 ++ [] ++ rawClosing 0 ++ []) rfl (by decide) 0
  exact ⟨rfl, hsuffix, fun h => absurd (congrArg Token.kind (hsuffix.unique h)) (by decide)⟩

end StringLiteral

end ConcreteSyntax
