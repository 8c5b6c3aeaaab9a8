import ConcreteSyntax.Token.Lexeme

/-! # Escapes

What a backslash takes with it inside a literal, whether the result means something or not. -/

namespace ConcreteSyntax

/-- An escape: its number of characters, the backslash included, and whether it is a valid one. -/
structure Escape where
  length : Nat
  valid : Bool
  deriving DecidableEq, Inhabited

namespace Escape

/-- The characters that a backslash alone gives a meaning. -/
def isSimple (c : Char) : Bool :=
  c == 'n' || c == 'r' || c == 't' || c == '\\' || c == '0' || c == '\'' || c == '"'

/-- The escape whose backslash stands before `cs`. A byte takes two digits, a code point one to six
in braces; in a string, a line end takes the white space after it along. -/
def scan (inString : Bool) (cs : List Char) : Escape :=
  match cs with
  | [] => ⟨1, false⟩
  | 'x' :: rest =>
    let digits := ((rest.take 2).takeWhile Text.isHexDigit).length
    ⟨digits + 2, digits == 2⟩
  | 'u' :: '\x7b' :: rest =>
    let digits := (rest.takeWhile fun c => Text.isHexDigit c || c == '_').length
    if rest[digits]? = some '\x7d' then ⟨digits + 4, 1 ≤ digits && digits ≤ 6⟩
    else ⟨digits + 3, false⟩
  | c :: _ =>
    if isSimple c then ⟨2, true⟩
    else if inString && (c == '\n' || c == '\r') then
      ⟨(cs.takeWhile Text.isWhiteSpace).length + 1, true⟩
    else ⟨2, false⟩

/-- An escape as a piece of a literal. -/
def piece (e : Escape) : Kind × Nat :=
  (if e.valid then .escapeSequence else .errorSentinel, e.length)

end Escape

end ConcreteSyntax
