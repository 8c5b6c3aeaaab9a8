/-! # Messages

A message has a stable number, a severity and a template. `{0}`, `{1}`, … in a template stand for
arguments, `Message.fill` puts them in. Numbers from 1000 are about single tokens, numbers from 2000
about the grammar. -/

namespace ConcreteSyntax

/-- How bad a problem is. -/
inductive Severity where
  | warning | error
  deriving DecidableEq, Inhabited

namespace Severity

/-- The severity as a report writes it. -/
def word : Severity → String
  | .warning => "warning"
  | .error => "error"

end Severity

/-- A numbered message with places for arguments. -/
structure Message where
  code : Nat
  severity : Severity
  template : String
  deriving DecidableEq, Inhabited

namespace Message

/-! ### Filling in arguments -/

/-- The value of a run of decimal digits that fits a machine word; a plus sign may come first. -/
def argumentIndex? (digits : List Char) : Option Nat :=
  let digits := match digits with
    | '+' :: rest => rest
    | all => all
  if digits.isEmpty || !digits.all Char.isDigit then none
  else
    let value := digits.foldl (fun n c => 10 * n + (c.toNat - '0'.toNat)) 0
    if value < 0x10000000000000000 then some value else none

/-- A template with its places filled. A missing argument is empty; a brace that opens no place
stands for itself. -/
def fillChars (arguments : List String) : List Char → List Char
  | [] => []
  | c :: cs =>
    if c = '\x7b' then
      let inner := cs.takeWhile (· ≠ '\x7d')
      match if inner.length < cs.length then argumentIndex? inner else none with
      | some index =>
        (arguments.getD index "").toList ++ fillChars arguments (cs.drop (inner.length + 1))
      | none => c :: fillChars arguments cs
    else c :: fillChars arguments cs
  termination_by cs => cs.length

/-- The text of a message with these arguments. -/
def fill (m : Message) (arguments : List String) : String :=
  String.ofList (fillChars arguments m.template.toList)

/-- Whether a message is about a single token. -/
def isLexical (m : Message) : Bool := 1000 ≤ m.code && m.code < 2000

/-! ### About single tokens -/

/-- A character that begins no token. -/
def invalidCharacter : Message := ⟨1001, .error, "Invalid character '\x7b0\x7d'."⟩

/-- A string that the text ends in. -/
def unterminatedString : Message := ⟨1002, .error, "Unterminated string literal."⟩

/-- A raw string whose closing mark never comes. -/
def unterminatedRawString : Message :=
  ⟨1003, .error, "Unterminated raw string literal; expected '\x7b0\x7d'."⟩

/-- A quote that opens neither a character nor a lifetime. -/
def unterminatedChar : Message := ⟨1004, .error, "Unterminated character literal."⟩

/-- A block comment that the text ends in. -/
def unterminatedBlockComment : Message :=
  ⟨1005, .error, "Unterminated block comment; '*/' expected."⟩

/-- A backslash that begins no escape. -/
def invalidEscape : Message := ⟨1006, .error, "Invalid escape sequence '\x7b0\x7d'."⟩

/-- A base without digits. -/
def digitsExpected : Message := ⟨1007, .error, "Digits expected after '\x7b0\x7d'."⟩

/-! ### About the grammar -/

/-- A token that has to come next. -/
def expected : Message := ⟨2001, .error, "'\x7b0\x7d' expected."⟩

/-- A construct that has to come next, and what came. -/
def expectedFound : Message := ⟨2002, .error, "Expected \x7b0\x7d, found '\x7b1\x7d'."⟩

/-- A token that fits nowhere here. -/
def unexpected : Message := ⟨2003, .error, "Unexpected token '\x7b0\x7d'."⟩

/-- An opener whose closer never comes. -/
def unclosed : Message := ⟨2004, .error, "Unclosed delimiter '\x7b0\x7d'."⟩

/-- A closer of the wrong kind. -/
def mismatched : Message :=
  ⟨2005, .error, "Mismatched closing delimiter '\x7b0\x7d'; expected '\x7b1\x7d'."⟩

/-- A fragment that no macro pattern knows. -/
def unknownFragment : Message := ⟨2006, .error, "Unknown macro fragment specifier '\x7b0\x7d'."⟩

/-- A construct nested deeper than the options allow. -/
def nestingLimit : Message := ⟨2007, .error, "Nesting limit of \x7b0\x7d exceeded."⟩

/-- A repetition that does not say how often. -/
def repetitionOperator : Message :=
  ⟨2008, .error, "Expected one of '*', '+' or '?' after a repetition."⟩

/-- A parameter without a pattern, where the options let it pass. -/
def anonymousDeprecated : Message :=
  ⟨2009, .warning, "Anonymous parameters are deprecated; add a pattern."⟩

/-- A parameter without a pattern, where the options forbid it. -/
def anonymousForbidden : Message := ⟨2010, .error, "Anonymous parameters are not allowed."⟩

/-- A `static ref` where the options forbid it. -/
def staticRef : Message := ⟨2011, .error, "'static ref' is not allowed."⟩

/-- Every message, by number. -/
def all : List Message :=
  [invalidCharacter, unterminatedString, unterminatedRawString, unterminatedChar,
    unterminatedBlockComment, invalidEscape, digitsExpected, expected, expectedFound, unexpected,
    unclosed, mismatched, unknownFragment, nestingLimit, repetitionOperator, anonymousDeprecated,
    anonymousForbidden, staticRef]

/-- The message with this number. -/
def ofCode? (code : Nat) : Option Message := all.find? (·.code == code)

end Message

end ConcreteSyntax
