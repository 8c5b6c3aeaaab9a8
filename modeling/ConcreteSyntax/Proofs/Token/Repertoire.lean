import ConcreteSyntax.Proofs.Token.Spelling
import ConcreteSyntax.Proofs.Token.Step

/-! # The kinds of what is read

A context-sensitive lexeme is a literal, a comment, a lifetime, a suffix or a fault
(`Lexeme.contextual_kind`); any other one is a mark, a word, a name or a metavariable
(`Lexeme.next_kind`). The scanner moves to one of these, or to a shebang
(`Scanner.scan_mem_kinds`). -/

namespace ConcreteSyntax

theorem QuoteMark.kind_of_character? {lead : Nat} {flags : TokenFlags} {cs : List Char}
    {l : Lexeme} (h : QuoteMark.character? lead flags cs = some l) : l.kind = .charToken := by
  unfold QuoteMark.character? at h
  split at h
  · exact nomatch h
  · split at h
    · obtain rfl := Option.some.inj h
      rfl
    · exact nomatch h

namespace Lexeme

/-- The kinds of context-sensitive lexemes. -/
def contextualKinds : List Kind :=
  [.literalSuffix, .lineComment, .blockComment, .errorSentinel, .quote, .charToken, .stringToken,
    .rawStringToken, .integerToken, .floatToken]

/-- The kinds of lexemes that are read in every context. -/
def constantKinds : List Kind :=
  [.dollar, .metavariable, .quote, .errorSentinel, .unknown, .identifier, .underscore, .endOfFile] ++
    marks.map (·.2) ++ Kind.reservedWords

theorem line_kind (cs : List Char) : (Comment.line cs).kind = .lineComment := by
  unfold Comment.line
  split <;> rfl

theorem block_kind (body : List Char) :
    (Comment.block body).kind = .blockComment ∨ (Comment.block body).kind = .errorSentinel := by
  unfold Comment.block
  split
  · exact .inr rfl
  · split <;> exact .inl rfl

theorem string_kind (lead : Nat) (flags : TokenFlags) (cs : List Char) :
    (StringLiteral.scan lead flags cs).kind = .stringToken ∨
      (StringLiteral.scan lead flags cs).kind = .errorSentinel := by
  unfold StringLiteral.scan
  split
  · exact .inr rfl
  · exact .inl rfl

theorem rawString_kind {lead : Nat} {flags : TokenFlags} {cs : List Char} {l : Lexeme}
    (h : StringLiteral.scanRaw? lead flags cs = some l) :
    l.kind = .rawStringToken ∨ l.kind = .errorSentinel := by
  unfold StringLiteral.scanRaw? at h
  dsimp only at h
  split at h
  · split at h
    · obtain rfl := Option.some.inj h
      exact .inr rfl
    · obtain rfl := Option.some.inj h
      exact .inl rfl
  · exact nomatch h

theorem mark_kind {cs : List Char} {l : Lexeme} (h : mark? cs = some l) : l.kind ∈ marks.map (·.2) := by
  obtain ⟨m, hfound, rfl⟩ := Option.map_eq_some_iff.1 h
  exact List.mem_map_of_mem (List.mem_of_find?_eq_some hfound)

variable [Text.Xid]

theorem recognized_kind {admitted : Admitted} {cs : List Char} {l : Lexeme}
    (h : Recognized admitted cs l) : l.kind ∈ contextualKinds := by
  have hor {k k' : Kind} (h : l.kind = k ∨ l.kind = k') (hk : k ∈ contextualKinds)
      (hk' : k' ∈ contextualKinds) : l.kind ∈ contextualKinds :=
    h.elim (fun h => h ▸ hk) fun h => h ▸ hk'
  cases h with
  | suffix => exact (by decide : Kind.literalSuffix ∈ contextualKinds)
  | lineComment _ cs => exact line_kind _ ▸ (by decide)
  | blockComment _ body => exact hor (block_kind body) (by decide) (by decide)
  | lifetime => exact (by decide : Kind.quote ∈ contextualKinds)
  | char _ _ h => exact QuoteMark.kind_of_character? h ▸ (by decide)
  | unclosed => exact (by decide : Kind.errorSentinel ∈ contextualKinds)
  | string _ lead cs => exact hor (string_kind _ _ cs) (by decide) (by decide)
  | rawString _ lead h => exact hor (rawString_kind h) (by decide) (by decide)
  | number _ _ cs => exact hor (number_kind _ _) (by decide) (by decide)

/-- What depends on the admitted classes is a literal, a comment, a lifetime, a suffix or a fault. -/
theorem contextual_kind {admitted : Admitted} {cs : List Char} {l : Lexeme}
    (h : contextual? admitted cs = some l) : l.kind ∈ contextualKinds :=
  recognized_kind (recognized_of_contextual h)

theorem rawName_kind {cs : List Char} {l : Lexeme} (h : rawName? cs = some l) :
    l.kind = .identifier := by
  unfold rawName? at h
  split at h
  · dsimp only at h
    split at h
    · exact nomatch h
    · obtain rfl := Option.some.inj h
      rfl
  · exact nomatch h

theorem word_kind (cs : List Char) : (word cs).kind ∈ constantKinds := by
  unfold word
  dsimp only
  split
  · exact List.mem_append_left _ (List.mem_append_left _ (by decide))
  · show wordKind _ ∈ _
    unfold wordKind
    split
    · exact List.mem_append_left _ (List.mem_append_left _ (by decide))
    · cases h : Kind.ofReserved? (String.ofList (Text.identifierPrefix cs)) with
      | none => exact List.mem_append_left _ (List.mem_append_left _ (by decide))
      | some k => exact List.mem_append_right _ (List.mem_of_find?_eq_some h)

/-- What is not recognised by its class is a mark, a word, a name or a metavariable. -/
theorem reads_kind {admitted : Admitted} {cs : List Char} {l : Lexeme} (h : Reads admitted cs l) :
    l.kind ∈ constantKinds ∨ Recognized admitted cs l := by
  have hconstant {k : Kind} (hk : k ∈ [Kind.dollar, .metavariable, .quote, .errorSentinel, .unknown,
      .identifier, .underscore, .endOfFile]) : k ∈ constantKinds :=
    List.mem_append_left _ (List.mem_append_left _ hk)
  cases h with
  | mark h => exact .inl (List.mem_append_left _ (List.mem_append_right _ (mark_kind h)))
  | contextual _ h => exact .inr h
  | dollar rest =>
    left
    unfold dollar
    dsimp only
    split
    · exact hconstant (k := .dollar) (by decide)
    · exact hconstant (k := .metavariable) (by decide)
  | quote => exact .inl (hconstant (k := .quote) (by decide))
  | unreadable => exact .inl (hconstant (k := .errorSentinel) (by decide))
  | rawName h => exact .inl (rawName_kind h ▸ hconstant (by decide))
  | word c cs => exact .inl (word_kind _)
  | atEnd => exact .inl (hconstant (k := .endOfFile) (by decide))

/-- Every lexeme is context-sensitive, a mark, a word, a name or a metavariable. -/
theorem next_kind (admitted : Admitted) (cs : List Char) :
    (next contextual? admitted cs).kind ∈ constantKinds ∨
      (next contextual? admitted cs).kind ∈ contextualKinds :=
  (reads_kind (reads_next admitted cs)).imp_right recognized_kind

/-- The kinds of all lexemes. -/
def kinds : List Kind := .shebang :: constantKinds ++ contextualKinds

theorem next_mem_kinds (admitted : Admitted) (cs : List Char) :
    (next contextual? admitted cs).kind ∈ kinds :=
  (next_kind admitted cs).elim (fun h => List.mem_append_left _ (List.mem_cons_of_mem _ h))
    (List.mem_append_right _)

theorem contextual_mem_kinds {admitted : Admitted} {cs : List Char} {l : Lexeme}
    (h : contextual? admitted cs = some l) : l.kind ∈ kinds :=
  List.mem_append_right _ (contextual_kind h)

end Lexeme

variable [Text.Xid]

namespace Scanner

/-- The kinds at which the scanner may stand: those of lexemes, and of marks that were joined. -/
def kinds : List Kind := Lexeme.kinds ++ [.gtEq, .shr, .shrEq]

omit [Text.Xid] in
theorem shebang_kind {c : Cursor} {l : Lexeme} (h : shebang? c = some l) : l.kind = .shebang := by
  unfold shebang? at h
  split at h
  · split at h
    · exact nomatch h
    · obtain rfl := Option.some.inj h
      rfl
    · exact nomatch h
  · exact nomatch h

theorem readToken_mem_kinds (admitted : Admitted) (s : Scanner) (place : Cursor) :
    (s.readToken Lexeme.contextual? admitted place).kind ∈ Lexeme.kinds := by
  unfold readToken
  split
  · exact (by decide : Kind.unknown ∈ Lexeme.kinds)
  · exact Lexeme.next_mem_kinds admitted place.rest

omit [Text.Xid] in
theorem markLineBreak_kind (s : Scanner) (b : Bool) : (s.markLineBreak b).kind = s.kind := by
  cases b <;> rfl

theorem scan_mem_lexemeKinds (s : Scanner) (admitted : Admitted) :
    (s.scan Lexeme.contextual? admitted).kind ∈ Lexeme.kinds := by
  have h := moves_scan admitted s
  generalize s.scan Lexeme.contextual? admitted = t at h ⊢
  cases h with
  | suffix _ _ hl => exact Lexeme.contextual_mem_kinds hl
  | @shebang _ l hl =>
    have hk : l.kind = .shebang := shebang_kind hl
    exact List.mem_append_left _ (hk ▸ List.mem_cons_self : l.kind ∈ _)
  | inside => exact readToken_mem_kinds _ _ _
  | endless _ hl =>
    obtain ⟨-, rest, hl⟩ := Trivia.recognized_of_endless hl
    exact List.mem_append_right _ (Lexeme.recognized_kind hl)
  | past =>
    rw [markLineBreak_kind]
    exact readToken_mem_kinds _ _ _

/-- The scanner moves to a lexeme, wherever it stood. -/
theorem scan_mem_kinds (s : Scanner) (admitted : Admitted) :
    (s.scan Lexeme.contextual? admitted).kind ∈ kinds :=
  List.mem_append_left _ (scan_mem_lexemeKinds s admitted)

end Scanner

end ConcreteSyntax
