import ConcreteSyntax.Text.IdentifierTable
import ConcreteSyntax.Text.InvisibleTable

/-! # Classes of characters

White space is the Unicode property `Pattern_White_Space`; identifiers begin with `XID_Start` or an
underscore and go on with `XID_Continue`.

A text between double quotes is for one-line summaries. Quotes, backslashes and the usual control
characters take a backslash. Any other character that cannot be seen on its own, being unprintable
or a mark that joins the character before it, is given by its code point. -/

namespace ConcreteSyntax.Text

/-- The characters that may stand between two tokens. -/
def isWhiteSpace (c : Char) : Bool :=
  c == ' ' || c == '\t' || c == '\n' || c == '\r' || c == '\x0b' || c == '\x0c' || c == '\u0085'
    || c == '\u200e' || c == '\u200f' || c == '\u2028' || c == '\u2029'

/-- White space that ends a line. A carriage return alone does not. -/
def isLineBreak (c : Char) : Bool :=
  c == '\n' || c == '\u0085' || c == '\u2028' || c == '\u2029'

/-- The Unicode properties `XID_Start` and `XID_Continue`, of which only the values for characters
beyond ASCII matter. -/
class Xid where
  isStart : Char → Bool
  isContinue : Char → Bool

/-- The properties by their tables. -/
instance Xid.unicode : Xid where
  isStart := inTable identifierStartTable
  isContinue c := inTable identifierStartTable c || inTable identifierContinueTable c

section

variable [Xid]

/-- A character that may begin an identifier. -/
def isIdentifierStart (c : Char) : Bool :=
  c == '_' || c.isAlpha || (c.toNat ≥ 0x80 && Xid.isStart c)

/-- A character that may continue an identifier. -/
def isIdentifierPart (c : Char) : Bool :=
  c == '_' || c.isAlphanum || (c.toNat ≥ 0x80 && Xid.isContinue c)

/-- The identifier at the front of a run of characters; empty if none begins there. -/
def identifierPrefix : List Char → List Char
  | [] => []
  | c :: cs => if isIdentifierStart c then c :: cs.takeWhile isIdentifierPart else []

end

/-- A digit of base sixteen. -/
def isHexDigit (c : Char) : Bool :=
  c.isDigit || ('a' ≤ c && c ≤ 'f') || ('A' ≤ c && c ≤ 'F')

/-- The number of bytes that a run of characters takes in UTF-8. -/
def byteLength : List Char → Nat
  | [] => 0
  | c :: cs => c.utf8Size + byteLength cs

/-! ### Quoted text -/

/-- A character as it stands between double quotes. -/
def quotedChar (c : Char) : String :=
  if c = '\x00' then "\\0"
  else if c = '\t' then "\\t"
  else if c = '\r' then "\\r"
  else if c = '\n' then "\\n"
  else if c = '"' then "\\\""
  else if c = '\\' then "\\\\"
  else if inTable extendingMarkTable c || inTable unprintableTable c then
    "\\u\x7b" ++ String.ofList (Nat.toDigits 16 c.toNat) ++ "\x7d"
  else c.toString

/-- A text between double quotes. -/
def quoted (text : String) : String :=
  "\"" ++ String.join (text.toList.map quotedChar) ++ "\""

end ConcreteSyntax.Text
