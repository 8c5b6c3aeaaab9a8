import ConcreteSyntax.Kind.Class
import ConcreteSyntax.Diagnostic.Basic

/-! # Tokens

A token has a kind, a range, flags on its shape, the pieces it is made of (none for a simple token),
and the faults found in it. Faults become diagnostics when the token enters a tree. -/

namespace ConcreteSyntax

/-! ### Shape -/

/-- The shape of a token: whether a line ends before it, whether it lacks its end, the base of a
number and its parts, the prefix of a literal, and the form of a doc comment. -/
structure TokenFlags where
  precedingLineBreak : Bool := false
  unterminated : Bool := false
  hexadecimal : Bool := false
  binary : Bool := false
  octal : Bool := false
  fraction : Bool := false
  scientific : Bool := false
  bytePrefix : Bool := false
  cPrefix : Bool := false
  rawIdentifier : Bool := false
  innerDoc : Bool := false
  outerDoc : Bool := false
  deriving DecidableEq, Inhabited

namespace TokenFlags

/-- The flags as the low bits of a number. -/
def toBits (f : TokenFlags) : Nat :=
  [f.precedingLineBreak, f.unterminated, f.hexadecimal, f.binary, f.octal, f.fraction, f.scientific,
    f.bytePrefix, f.cPrefix, f.rawIdentifier, f.innerDoc, f.outerDoc].foldr
      (fun bit bits => bit.toNat + 2 * bits) 0

end TokenFlags

/-- A part of a token, such as a quote, an escape or the marker of a doc comment. -/
structure Piece where
  kind : Kind
  range : Range
  deriving DecidableEq, Inhabited

/-! ### Faults -/

/-- What is wrong inside a token. -/
inductive FaultKind where
  | invalidCharacter
  | unterminatedString
  | unterminatedRawString (hashes : Nat)
  | unterminatedChar
  | unterminatedBlockComment
  | invalidEscape
  | digitsExpected
  deriving DecidableEq, Inhabited

/-- A fault and the bytes it is about. -/
structure Fault where
  kind : FaultKind
  range : Range
  deriving DecidableEq, Inhabited

namespace FaultKind

/-- The message about a fault in `text` and its arguments. -/
def message (text : String) : FaultKind → Message × List String
  | .invalidCharacter => (.invalidCharacter, [text])
  | .unterminatedString => (.unterminatedString, [])
  | .unterminatedRawString hashes =>
    (.unterminatedRawString, ["\"" ++ String.ofList (List.replicate hashes '#')])
  | .unterminatedChar => (.unterminatedChar, [])
  | .unterminatedBlockComment => (.unterminatedBlockComment, [])
  | .invalidEscape => (.invalidEscape, [text])
  | .digitsExpected => (.digitsExpected, [text])

end FaultKind

namespace Fault

/-- The diagnostic of a fault in a file with this text. -/
def diagnostic (f : Fault) (file source : String) : Diagnostic :=
  let (message, arguments) := f.kind.message (f.range.slice source)
  .located file f.range message arguments

end Fault

/-! ### Tokens -/

/-- A token of a text. -/
structure Token where
  kind : Kind
  range : Range
  flags : TokenFlags := {}
  pieces : List Piece := []
  faults : List Fault := []
  deriving DecidableEq, Inhabited

namespace Token

/-- The number of bytes. -/
def length (t : Token) : Nat := t.range.length

/-- Whether the token has no bytes. -/
def isEmpty (t : Token) : Bool := t.range.isEmpty

/-- The text of a token. -/
def text (t : Token) (source : String) : String := t.range.slice source

/-- Whether a line ends between the token before and this one. -/
def hasPrecedingLineBreak (t : Token) : Bool := t.flags.precedingLineBreak

end Token

end ConcreteSyntax
