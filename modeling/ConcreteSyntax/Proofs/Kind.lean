import ConcreteSyntax.Kind.Class

/-! # What kinds ask for

Some kinds ask for a text of their own, some for pieces, some may be faulty; most ask for nothing
(`Kind.isFree`), and any part of a text may be of such a kind if the grammar says so. -/

namespace ConcreteSyntax.Kind

/-! ### Kinds of tokens -/

/-- The kinds of tokens in which a fault may be found. -/
def mayBeFaulty : Kind → Bool
  | .unknown | .errorSentinel | .integerToken | .stringToken | .charToken => true
  | _ => false

/-- The kinds of tokens that always have pieces. -/
def hasPieces : Kind → Bool
  | .stringToken | .rawStringToken | .charToken | .floatToken => true
  | _ => false

/-- The kinds of the pieces of tokens. A piece may be an escape that could not be read. -/
def isPiece (k : Kind) : Bool :=
  k.between .lineCommentStart .docComment || k.between .stringStart .exponent ||
    k == .errorSentinel

/-- The text that a token of a kind has, if it is always the same. -/
def written? (k : Kind) : Option String := k.wordText <|> k.markText

/-! ### Kinds of nodes -/

/-- A kind of nodes, or of leaves with content, that asks for no text: a part of any text may be of
this kind, if the grammar says so. -/
def isFree (k : Kind) : Bool :=
  k.isNamed && (k.wordText <|> k.markText).isNone && !k.isComment && !k.isCompositeLiteral &&
    k != .endOfFile && k != .error && k != .errorSentinel

/-- A literal that is read in pieces. -/
def isPieced : Kind → Bool
  | .stringLiteral | .rawStringLiteral | .charLiteral | .integerLiteral | .floatLiteral => true
  | _ => false

/-- A kind of which a token may be missing. -/
def isStandIn (k : Kind) : Bool :=
  !k.isComment && !k.isCompositeLiteral && k != .endOfFile && k != .error && k != .errorSentinel

/-- The kinds of names, under which a token may be read. -/
def isName : Kind → Bool
  | .identifier | .typeIdentifier | .fieldIdentifier | .shorthandFieldIdentifier | .primitiveType
  | .fragmentSpecifier => true
  | _ => false

/-- The kinds of the name at the end of a path, of a value and of a type. -/
def isPathEnd : Kind → Bool
  | .identifier | .typeIdentifier => true
  | _ => false

/-- The kinds that a node may have after it was read again. -/
def isReread : Kind → Bool
  | .identifier | .typeIdentifier | .scopedIdentifier | .scopedTypeIdentifier | .genericType
  | .letChain => true
  | _ => false

/-! ### Texts -/

variable {k : Kind} {text : String}

theorem written?_of_mark (h : k.markText = some text) : k.written? = some text := by
  cases k <;> first | exact h | exact nomatch h

theorem written?_of_word (h : k.wordText = some text) : k.written? = some text := by
  rw [written?, h]
  rfl

theorem exists_markText (h : k.isMark = true) : ∃ text, k.markText = some text := by
  refine Option.isSome_iff_exists.1 ?_
  revert h
  cases k <;> decide

theorem exists_wordText (h : k.isWord = true) : ∃ text, k.wordText = some text := by
  refine Option.isSome_iff_exists.1 ?_
  revert h
  cases k <;> decide

/-- No word begins as a raw name does. -/
theorem wordText_ne_raw (k : Kind) (name : String) : k.wordText ≠ some ("r#" ++ name) := by
  have hhash : (k.wordText.getD "").toList.contains '#' = false := by cases k <;> decide
  intro h
  rw [h] at hhash
  simp at hhash

/-! ### Comments -/

theorem isComment_iff : k.isComment = true ↔ k = .lineComment ∨ k = .blockComment := by
  cases k <;> simp [isComment]

theorem isComment_eq_false (hl : k ≠ .lineComment) (hb : k ≠ .blockComment) :
    k.isComment = false :=
  Bool.eq_false_iff.2 fun h => (isComment_iff.1 h).elim hl hb

/-! ### Errors -/

theorem ne_of_isPiece (h : k.isPiece = true) : k ≠ .error := by
  rintro rfl
  exact nomatch h

theorem ne_of_isFree (h : k.isFree = true) : k ≠ .error ∧ k ≠ .errorSentinel := by
  refine ⟨?_, ?_⟩
  · rintro rfl
    exact nomatch h
  · rintro rfl
    exact nomatch h

/-- A token that is missing is no error. -/
theorem ne_of_isStandIn (h : k.isStandIn = true) : k ≠ .error ∧ k ≠ .errorSentinel := by
  refine ⟨?_, ?_⟩
  · rintro rfl
    exact nomatch h
  · rintro rfl
    exact nomatch h

/-- A word is no error. -/
theorem ne_of_wordText (h : k.wordText = some text) : k ≠ .error ∧ k ≠ .errorSentinel := by
  refine ⟨?_, ?_⟩
  · rintro rfl
    exact nomatch h
  · rintro rfl
    exact nomatch h

/-! ### One class and another -/

theorem isComment_of_isPiece (h : k.isPiece = true) : k.isComment = false :=
  isComment_eq_false (fun hk => nomatch (hk ▸ h : Kind.lineComment.isPiece = true))
    fun hk => nomatch (hk ▸ h : Kind.blockComment.isPiece = true)

theorem isComment_of_isFree (h : k.isFree = true) : k.isComment = false := by
  simp only [isFree, Bool.and_eq_true, Bool.not_eq_true'] at h
  exact h.1.1.1.1.2

theorem isNamed_of_isFree (h : k.isFree = true) : k.isNamed = true := by
  simp only [isFree, Bool.and_eq_true] at h
  exact h.1.1.1.1.1.1

theorem isNamed_of_isComment (h : k.isComment = true) : k.isNamed = true := by
  rcases isComment_iff.1 h with rfl | rfl <;> rfl

theorem isComment_of_wordText (h : k.wordText = some text) : k.isComment = false :=
  isComment_eq_false (fun hk => nomatch (hk ▸ h : Kind.lineComment.wordText = some text))
    fun hk => nomatch (hk ▸ h : Kind.blockComment.wordText = some text)

/-- A token of a kind that asks for no text may be missing. -/
theorem isStandIn_of_isFree (h : k.isFree = true) : k.isStandIn = true := by
  simp only [isFree, Bool.and_eq_true] at h
  simp only [isStandIn, h, Bool.and_self]

theorem isFree_of_isPieced (h : k.isPieced = true) : k.isFree = true := by
  unfold isPieced at h
  split at h <;> first | rfl | exact absurd h nofun

theorem isFree_of_isName (h : k.isName = true) : k.isFree = true := by
  unfold isName at h
  split at h <;> first | rfl | exact absurd h nofun

theorem isToken_of_isName (h : k.isName = true) : k.isToken = true := by
  unfold isName at h
  split at h <;> first | rfl | exact absurd h nofun

theorem isToken_of_wordText (h : k.wordText = some text) : k.isToken = true := by
  revert h
  cases k <;> first | exact fun _ => rfl | exact fun h => nomatch h

theorem isReread_of_isPathEnd (h : k.isPathEnd = true) : k.isReread = true := by
  unfold isPathEnd at h
  split at h <;> first | rfl | exact absurd h nofun

theorem isFree_of_isReread (h : k.isReread = true) : k.isFree = true := by
  unfold isReread at h
  split at h <;> first | rfl | exact absurd h nofun

/-- A comment may not be faulty. -/
theorem mayBeFaulty_of_isComment (h : k.isComment = true) : k.mayBeFaulty = false := by
  rcases isComment_iff.1 h with rfl | rfl <;> rfl

end ConcreteSyntax.Kind
