import ConcreteSyntax.Proofs.Token.Break
import ConcreteSyntax.Proofs.Text.Blank
import ConcreteSyntax.Token.Scanner

/-! # Tokens where their class is admitted

What it means that a literal or a quote stands at the front of a text (`Token.ReadAt`): it is
recognised there, and a scanner that stands there takes it for its next token. For the characters
with which such tokens begin the second follows from the first (`Token.readAt_of_contextual`): no
white space, no comment and no mark begins with one of them. Where literal suffixes are admitted,
though, the letters before a quote are taken for a suffix. -/

namespace ConcreteSyntax

variable [Text.Xid]

/-- The token is recognised at the front of `cs`, and is what a scanner reads next there. -/
structure Token.ReadAt (admitted : Admitted) (offset : Nat) (cs : List Char) (t : Token) :
    Prop where
  recognized : (Lexeme.contextual? admitted cs).map (·.place offset cs) = some t
  scanned : ∀ s : Scanner, s.here = { offset, rest := cs } →
    (s.scan Lexeme.contextual? admitted).token = t

namespace Lexeme

/-- The characters with which literals between quotes and lifetimes begin. -/
def quoteStarts : List Char := ['\'', '"', 'r', 'b', 'c']

omit [Text.Xid] in
theorem mark?_quoteStart {c : Char} (hc : c ∈ quoteStarts) (cs : List Char) :
    mark? (c :: cs) = none := by
  have hhead : quoteStarts.all (fun c => marks.all fun m => m.1.head? != some c) = true := by
    decide +kernel
  refine mark?_eq_none_of_head (fun m hm => ?_) cs
  exact bne_iff_ne.1 (List.all_eq_true.1 (List.all_eq_true.1 hhead c hc) m hm)

/-- What is recognised behind such a character is what the scanner reads. -/
theorem next_contextual {admitted : Admitted} {c : Char} {cs : List Char} {l : Lexeme}
    (hc : c ∈ quoteStarts) (h : contextual? admitted (c :: cs) = some l) :
    next contextual? admitted (c :: cs) = l := by
  unfold next
  rw [mark?_quoteStart hc]
  simp only [quoteStarts, List.mem_cons, List.not_mem_nil, or_false] at hc
  rcases hc with rfl | rfl | rfl | rfl | rfl
  · simp [h]
  · simp [h]
  all_goals simp [wordOrLiteral, h]

/-- No suffix is read where no name begins. -/
theorem contextual?_suffixOnly {cs : List Char} (h : Text.identifierPrefix cs = []) :
    contextual? .suffixOnly cs = none := by
  unfold contextual?
  simp only [Admitted.suffixOnly, h, if_true, List.isEmpty_nil, Bool.not_true, Bool.false_eq_true,
    if_false, onlyIf, QuoteMark.scan?, Bool.false_and, Bool.not_false]
  split <;> simp

end Lexeme

/-- Where neither white space nor a comment nor a shebang nor a suffix begins, the scanner reads the
next lexeme. -/
theorem Scanner.token_scan {admitted : Admitted} {c : Char} {cs : List Char}
    (hblank : Text.isWhiteSpace c = false) (hhash : c ≠ '#') (hslash : c ≠ '/')
    (hs : admitted.literalSuffix = true → Text.identifierPrefix (c :: cs) = []) {s : Scanner}
    {offset : Nat} (hhere : s.here = { offset, rest := c :: cs }) :
    (s.scan Lexeme.contextual? admitted).token =
      (Lexeme.next Lexeme.contextual? admitted.withoutSuffix (c :: cs)).place offset (c :: cs) := by
  have hsuffix : (if admitted.literalSuffix then Lexeme.contextual? .suffixOnly (c :: cs)
      else none) = none := by
    split
    · next ha => exact Lexeme.contextual?_suffixOnly (hs ha)
    · rfl
  have hshebang : Scanner.shebang? { offset, rest := c :: cs } = none := by
    simp [Scanner.shebang?, hhash]
  have hskip : Trivia.skip Lexeme.contextual? admitted offset false #[] (c :: cs) =
      { cursor := { offset, rest := c :: cs }, lineBreak := false, comments := #[] } := by
    rw [Trivia.skip.eq_def]
    simp [hblank, hslash]
  unfold Scanner.scan Scanner.scanPastTrivia
  simp [hhere, hsuffix, hshebang, hskip, Scanner.readToken, Scanner.moveTo, Scanner.markLineBreak]

/-- A literal between quotes or a lifetime that is recognised is what the scanner reads. -/
theorem Token.readAt_of_contextual {admitted : Admitted} {c : Char} {cs : List Char} {l : Lexeme}
    (hc : c ∈ Lexeme.quoteStarts)
    (hs : admitted.literalSuffix = true → Text.identifierPrefix (c :: cs) = [])
    (h : Lexeme.contextual? admitted (c :: cs) = some l) (offset : Nat) :
    Token.ReadAt admitted offset (c :: cs) (l.place offset (c :: cs)) := by
  refine ⟨by rw [h]; rfl, fun s hhere => ?_⟩
  have hall : Lexeme.quoteStarts.all
      (fun c => !Text.isWhiteSpace c && c != '#' && c != '/') = true := by decide
  obtain ⟨⟨hblank, hhash⟩, hslash⟩ : (Text.isWhiteSpace c = false ∧ c ≠ '#') ∧ c ≠ '/' := by
    simpa using List.all_eq_true.1 hall c hc
  rw [Scanner.token_scan hblank hhash hslash hs hhere,
    Lexeme.next_contextual hc ((Lexeme.contextual?_withoutSuffix hs).symm.trans h)]

/-- Where literal suffixes are admitted, a name is taken for one, whatever it begins. -/
theorem Token.readAt_suffix {admitted : Admitted} {cs : List Char}
    (ha : admitted.literalSuffix = true) (hname : Text.identifierPrefix cs ≠ []) (offset : Nat) :
    Token.ReadAt admitted offset cs
      { kind := .literalSuffix
        range := ⟨offset, offset + Text.byteLength (Text.identifierPrefix cs)⟩ } := by
  have hread (a : Admitted) (h : a.literalSuffix = true) : Lexeme.contextual? a cs =
      some (.plain .literalSuffix (Text.identifierPrefix cs).length) := by
    unfold Lexeme.contextual?
    simp [h, hname]
  have hplace : (Lexeme.plain .literalSuffix (Text.identifierPrefix cs).length).place offset cs =
      { kind := .literalSuffix
        range := ⟨offset, offset + Text.byteLength (Text.identifierPrefix cs)⟩ } := by
    simp [Lexeme.place, Lexeme.plain, Lexeme.placePieces, Lexeme.take_identifierPrefix]
  refine ⟨by rw [hread admitted ha, Option.map_some, hplace], fun s hhere => ?_⟩
  unfold Scanner.scan
  simp [hhere, ha, hread .suffixOnly rfl, Scanner.moveTo, hplace]

/-- Only one token is read at a place. -/
theorem Token.ReadAt.unique {admitted : Admitted} {offset : Nat} {cs : List Char} {t t' : Token}
    (h : Token.ReadAt admitted offset cs t) (h' : Token.ReadAt admitted offset cs t') : t = t' :=
  Option.some.inj (h.recognized.symm.trans h'.recognized)

/-! ### What is read -/

/-- The token of what is begun and not ended. -/
def Token.endless (flags : TokenFlags) (fault : FaultKind) (range : Range) : Token :=
  { kind := .errorSentinel
    range
    flags := { flags with unterminated := true }
    faults := [⟨fault, range⟩] }

omit [Text.Xid] in
/-- A piece that is a word begins where the row does, and the next one behind that word. -/
theorem Lexeme.placePieces_cons (offset : Nat) (kind : Kind) (word rest : List Char)
    (more : List (Kind × Nat)) :
    placePieces offset (word ++ rest) ((kind, word.length) :: more) =
      ⟨kind, offset, offset + Text.byteLength word⟩ ::
        placePieces (offset + Text.byteLength word) rest more := by
  simp [placePieces]

omit [Text.Xid] in
/-- Where every character is a single byte, bytes are characters. -/
theorem Text.byteLength_eq_length {cs : List Char} (h : ∀ c ∈ cs, c.utf8Size = 1) :
    byteLength cs = cs.length := by
  induction cs with
  | nil => rfl
  | cons c cs ih =>
    rw [byteLength_cons, h c List.mem_cons_self, ih fun d hd => h d (List.mem_cons_of_mem c hd),
      List.length_cons, Nat.add_comm]

omit [Text.Xid] in
/-- What is begun and not ended reaches to the end of the text. -/
theorem Lexeme.place_unterminated (flags : TokenFlags) (fault : FaultKind) (offset : Nat)
    (cs : List Char) :
    (StringLiteral.unterminated flags cs.length fault).place offset cs =
      Token.endless flags fault ⟨offset, offset + Text.byteLength cs⟩ := by
  simp [place, StringLiteral.unterminated, Token.endless, placePieces]

/-! ### Prefixes -/

/-- What a literal between quotes stands for: text, bytes, or a string that ends in a zero byte. -/
inductive LiteralPrefix where
  | text | bytes | terminated
  deriving DecidableEq

namespace LiteralPrefix

/-- The letters of a prefix. -/
def letters : LiteralPrefix → List Char
  | .text => []
  | .bytes => ['b']
  | .terminated => ['c']

/-- How a prefix is marked on the token. -/
def flags : LiteralPrefix → TokenFlags
  | .text => {}
  | .bytes => { bytePrefix := true }
  | .terminated => { cPrefix := true }

end LiteralPrefix

end ConcreteSyntax
