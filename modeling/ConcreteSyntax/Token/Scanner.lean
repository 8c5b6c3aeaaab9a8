import ConcreteSyntax.Token.Mark

/-! # The scanner

The scanner stands at a token of the text and moves to the next one on demand. `Scanner.scan` skips
white space, collects the comments before the token and reads it; `Scanner.rescan` reads the same
token again with other classes admitted; `Scanner.joinGreater` and `Scanner.split` change the length
of the current token. Looking ahead is scanning with a copy. -/

namespace ConcreteSyntax

variable [Text.Xid]

/-! ### Places in a text -/

/-- A place in a text: its offset, the characters from there on, and, when the place lies inside a
character, the number of its bytes that are left. -/
structure Cursor where
  offset : Nat
  cut : Nat := 0
  rest : List Char
  deriving DecidableEq, Inhabited

namespace Cursor

/-- The start of a text. -/
def ofText (text : String) : Cursor := { offset := 0, rest := text.toList }

/-- The place some characters further on. -/
def advance (c : Cursor) (length : Nat) : Cursor :=
  { offset := c.offset + Text.byteLength (c.rest.take length), rest := c.rest.drop length }

/-- The place `bytes` after the offset at which `cs` begins. -/
def skipFrom (offset bytes : Nat) : List Char → Cursor
  | [] => { offset, rest := [] }
  | c :: cs =>
    if bytes = 0 then { offset, rest := c :: cs }
    else if bytes < c.utf8Size then
      { offset := offset + bytes, cut := c.utf8Size - bytes, rest := cs }
    else skipFrom (offset + c.utf8Size) (bytes - c.utf8Size) cs

/-- The place some bytes further on, which may lie inside a character. -/
def skip (c : Cursor) (bytes : Nat) : Cursor :=
  if bytes ≤ c.cut then { c with offset := c.offset + bytes, cut := c.cut - bytes }
  else skipFrom (c.offset + c.cut) (bytes - c.cut) c.rest

/-- The character at a place, unless the place lies inside one. -/
def peek? (c : Cursor) : Option Char := if c.cut = 0 then c.rest.head? else none

end Cursor

/-! ### White space and comments -/

/-- What lies between two tokens: the place behind it, whether a line ended in it outside comments,
the comments, and the lexeme of a comment that does not end. -/
structure Trivia where
  cursor : Cursor
  lineBreak : Bool
  comments : Array Token
  endless : Option Lexeme := none

/-- The white space and the admitted comments at the front of `cs`, after those found before. -/
def Trivia.skip (recognize : Recognizer) (admitted : Admitted) (offset : Nat) (lineBreak : Bool)
    (comments : Array Token) (cs : List Char) : Trivia :=
  match cs with
  | [] => { cursor := { offset, rest := [] }, lineBreak, comments }
  | c :: rest =>
    if Text.isWhiteSpace c then
      Trivia.skip recognize admitted (offset + c.utf8Size) (lineBreak || Text.isLineBreak c)
        comments rest
    else if c = '/' && admitted.anyComment then
      match recognize admitted.comments cs with
      | none => { cursor := { offset, rest := cs }, lineBreak, comments }
      | some lexeme =>
        if lexeme.kind.isComment then
          let token := lexeme.place offset cs
          Trivia.skip recognize admitted token.range.stop lineBreak (comments.push token)
            (rest.drop (lexeme.length - 1))
        else { cursor := { offset, rest := cs }, lineBreak, comments, endless := some lexeme }
    else { cursor := { offset, rest := cs }, lineBreak, comments }
  termination_by cs.length
  decreasing_by
    all_goals simp only [List.length_cons, List.length_drop]
    all_goals omega

/-! ### Scanning -/

/-- A scanner at a token: where the token begins, where it ends, and the comments before it. -/
structure Scanner where
  start : Cursor
  here : Cursor
  token : Token
  leading : List Token := []
  deriving Inhabited

namespace Scanner

/-- The token that stands for none, before the first and after one was taken. -/
def noToken (offset : Nat) : Token := { kind := .unknown, range := .emptyAt offset }

/-- A scanner at the start of a text, before its first token. -/
def ofText (text : String) : Scanner :=
  let here := Cursor.ofText text
  { start := here, here, token := noToken 0 }

/-- The kind of the current token. -/
def kind (s : Scanner) : Kind := s.token.kind

/-- The text of the current token. -/
def tokenText (s : Scanner) (source : String) : String := s.token.text source

/-- The scanner at the token that a lexeme makes at a place. -/
def moveTo (s : Scanner) (place : Cursor) (lexeme : Lexeme) : Scanner :=
  { s with
    start := place
    here := place.advance lexeme.length
    token := lexeme.place place.offset place.rest }

/-- The line at the start of a text that names an interpreter: `#!`, but not `#![`. -/
def shebang? (c : Cursor) : Option Lexeme :=
  if c.offset = 0 then
    match c.rest with
    | '#' :: '!' :: '[' :: _ => none
    | '#' :: '!' :: _ => some (.plain .shebang (c.rest.takeWhile (· != '\n')).length)
    | _ => none
  else none

/-- The scanner at the token that begins at a place. Inside a character, each byte is a fault of its
own. -/
def readToken (recognize : Recognizer) (admitted : Admitted) (s : Scanner) (place : Cursor) :
    Scanner :=
  if place.cut ≠ 0 then
    let range : Range := ⟨place.offset, place.offset + 1⟩
    { s with
      start := place
      here := place.skip 1
      token := { kind := .unknown, range, faults := [⟨.invalidCharacter, range⟩] } }
  else s.moveTo place (Lexeme.next recognize admitted place.rest)

/-- The scanner with the mark that a line ends before its token, if one does. -/
def markLineBreak (s : Scanner) (lineBreak : Bool) : Scanner :=
  if lineBreak then
    { s with token := { s.token with flags := { s.token.flags with precedingLineBreak := true } } }
  else s

/-- The scanner at the next token, after white space and comments. -/
def scanPastTrivia (recognize : Recognizer) (admitted : Admitted) (s : Scanner) : Scanner :=
  let admitted' := admitted.withoutSuffix
  if s.here.cut ≠ 0 then readToken recognize admitted' s s.here
  else
    let trivia := Trivia.skip recognize admitted s.here.offset false #[] s.here.rest
    let s := { s with leading := trivia.comments.toList }
    match trivia.endless with
    | some lexeme => s.moveTo trivia.cursor lexeme
    | none => (readToken recognize admitted' s trivia.cursor).markLineBreak trivia.lineBreak

/-- The scanner at the next token. A suffix has to touch the token before it. -/
def scan (recognize : Recognizer) (admitted : Admitted) (s : Scanner) : Scanner :=
  let s := { s with leading := [] }
  let touching :=
    if s.here.cut ≠ 0 then none
    else (if admitted.literalSuffix then recognize .suffixOnly s.here.rest else none)
      <|> shebang? s.here
  match touching with
  | some lexeme => s.moveTo s.here lexeme
  | none => s.scanPastTrivia recognize admitted

/-- The scanner at the same place, the token read again with other classes admitted. The comments
before it stay. -/
def rescan (recognize : Recognizer) (admitted : Admitted) (s : Scanner) : Scanner :=
  (readToken recognize admitted.withoutSuffix s s.start).markLineBreak
    s.token.flags.precedingLineBreak

/-! ### Changing the current token -/

/-- The current token with another kind and number of bytes, counted from its start. -/
def resize (s : Scanner) (kind : Kind) (bytes : Nat) : Scanner :=
  { s with
    here := s.start.skip bytes
    token :=
      { kind, range := ⟨s.start.offset, s.start.offset + bytes⟩, flags := s.token.flags } }

/-- A `>` joined with a `>` or a `=` that touches it, where an operator is wanted. -/
def joinGreater (s : Scanner) : Scanner :=
  if s.kind ≠ .gt then s
  else match (s.start.skip 1).peek?, (s.start.skip 2).peek? with
    | some '>', some '=' => s.resize .shrEq 3
    | some '>', _ => s.resize .shr 2
    | some '=', _ => s.resize .gtEq 2
    | _, _ => s

/-- A compound mark cut down to its first part, as `&&` to `&`. The rest is scanned next. -/
def split (s : Scanner) (first : Kind) : Scanner :=
  let bytes := match first.markText with
    | some text => text.utf8ByteSize
    | none => 1
  if bytes < s.token.length then s.resize first bytes else s

/-- The scanner without its token, which was taken. -/
def withoutToken (s : Scanner) : Scanner :=
  { s with start := s.here, token := noToken s.here.offset }

/-- The scanner some tokens further on. -/
def ahead (recognize : Recognizer) (admitted : Admitted) (s : Scanner) : Nat → Scanner
  | 0 => s
  | n + 1 => (s.scan recognize admitted).ahead recognize admitted n

end Scanner

end ConcreteSyntax
