import ConcreteSyntax.Token.Lexeme

/-! # Comments

A line comment ends before the newline. Block comments nest, and end at the mark that closes the
outermost one. `///` and `/**` begin outer doc comments, `//!` and `/*!` inner ones, which fall into
pieces; a fourth slash, a third star or `/**/` makes a plain comment again. -/

namespace ConcreteSyntax.Comment

/-! ### Line comments -/

/-- The characters of a line without the line end: a newline, or a carriage return just before a
newline or the end of the text. -/
def lineText : List Char → List Char
  | [] => []
  | c :: cs =>
    if c = '\n' then []
    else if c = '\r' && (cs.isEmpty || cs.head? == some '\n') then []
    else c :: lineText cs

/-- A piece of one or more characters, or no piece. -/
def contentPiece (kind : Kind) (length : Nat) : List (Kind × Nat) :=
  if length = 0 then [] else [(kind, length)]

/-- A doc comment in one line, with `content` characters after its marker. -/
def lineDoc (marker : Kind) (flags : TokenFlags) (content : Nat) : Lexeme :=
  { kind := .lineComment
    length := content + 3
    flags
    pieces := (.lineCommentStart, 2) :: (marker, 1) :: contentPiece .docComment content }

/-- The line comment at the front of a text, which begins with two slashes. -/
def line (cs : List Char) : Lexeme :=
  match lineText cs with
  | _ :: _ :: '/' :: '/' :: rest => .plain .lineComment (rest.length + 4)
  | _ :: _ :: '/' :: content =>
    lineDoc .outerDocCommentMarker { outerDoc := true } content.length
  | _ :: _ :: '!' :: content =>
    lineDoc .innerDocCommentMarker { innerDoc := true } content.length
  | text => .plain .lineComment text.length

/-! ### Block comments -/

/-- The number of characters up to and including the mark that closes the comment around them, when
`depth` more comments are open inside it. -/
def closeLength? (depth : Nat) : List Char → Option Nat
  | [] => none
  | '*' :: '/' :: cs => if depth = 0 then some 2 else (closeLength? (depth - 1) cs).map (· + 2)
  | '/' :: '*' :: cs => (closeLength? (depth + 1) cs).map (· + 2)
  | _ :: cs => (closeLength? depth cs).map (· + 1)

/-- The marker of a doc comment and the number of characters after it, from what stands between the
marks of a block comment. -/
def blockDoc? : List Char → Option (Kind × TokenFlags × Nat)
  | '!' :: content => some (.innerDocCommentMarker, { innerDoc := true }, content.length)
  | ['*'] | '*' :: '*' :: _ => none
  | '*' :: content => some (.outerDocCommentMarker, { outerDoc := true }, content.length)
  | _ => none

/-- The block comment at the front of a text, of which `body` follows the opening mark. -/
def block (body : List Char) : Lexeme :=
  match closeLength? 0 body with
  | none =>
    { kind := .errorSentinel
      length := body.length + 2
      flags := { unterminated := true }
      fault := some .unterminatedBlockComment }
  | some length =>
    match blockDoc? (body.take (length - 2)) with
    | none => .plain .blockComment (length + 2)
    | some (marker, flags, content) =>
      { kind := .blockComment
        length := length + 2
        flags
        pieces := (.blockCommentStart, 2) :: (marker, 1) ::
          (contentPiece .docComment content ++ [(.blockCommentEnd, 2)]) }

end ConcreteSyntax.Comment
