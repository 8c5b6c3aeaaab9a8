import ConcreteSyntax.Token.Lexeme

/-! # Numbers

A number without its suffix. A point belongs to it only if neither another point nor a name follows,
so that `1..2`, `1.max(2)` and `t.0.1` keep their points; an `e` without digits begins a suffix. A
plain decimal integer has no pieces. -/

namespace ConcreteSyntax.Number

variable [Text.Xid]

/-- Whether a character is a digit of a base up to sixteen, or the separator. -/
def isDigitOrSeparator (base : Nat) (c : Char) : Bool :=
  c == '_' || (Text.isHexDigit c && digitValue c < base)
where
  /-- The value of a digit of base sixteen. -/
  digitValue (c : Char) : Nat :=
    if c.isDigit then c.toNat - '0'.toNat
    else if c.isLower then c.toNat - 'a'.toNat + 10
    else c.toNat - 'A'.toNat + 10

/-- The digits and separators at the front of a text. -/
def digitRun (base : Nat) (cs : List Char) : List Char := cs.takeWhile (isDigitOrSeparator base)

/-- An integer with a base, of which `cs` follows the two characters of the base. -/
def based (base : Nat) (flags : TokenFlags) (cs : List Char) : Lexeme :=
  let digits := digitRun base cs
  { kind := .integerToken
    length := digits.length + 2
    flags
    pieces := (.radixPrefix, 2) :: if digits.isEmpty then [] else [(.digits, digits.length)]
    fault := if digits.any (· != '_') then none else some .digitsExpected }

/-- The point and the digits after it, if they belong to the number before `cs`. -/
def fractionPieces : List Char → List (Kind × Nat)
  | '.' :: cs =>
    let belongs := match cs.head? with
      | some c => c != '.' && !Text.isIdentifierStart c
      | none => true
    if !belongs then []
    else if cs.head?.any Char.isDigit then [(.decimalPoint, 1), (.digits, (digitRun 10 cs).length)]
    else [(.decimalPoint, 1)]
  | _ => []

/-- The exponent, if one with a digit belongs to the number before `cs`. -/
def exponentPieces : List Char → List (Kind × Nat)
  | c :: cs =>
    if c = 'e' || c = 'E' then
      let sign := if cs.head? == some '+' || cs.head? == some '-' then 1 else 0
      let digits := digitRun 10 (cs.drop sign)
      if digits.any Char.isDigit then [(.exponent, sign + digits.length + 1)] else []
    else []
  | [] => []

/-- The number of characters of a row of pieces. -/
def lengthOf (pieces : List (Kind × Nat)) : Nat := (pieces.map (·.2)).foldr (· + ·) 0

/-- The decimal number at the front of a text; only its integer part unless floats are admitted. -/
def decimal (float : Bool) (cs : List Char) : Lexeme :=
  let whole := (digitRun 10 cs).length
  let fraction := if float then fractionPieces (cs.drop whole) else []
  let exponent :=
    if float then exponentPieces (cs.drop (whole + lengthOf fraction)) else []
  if fraction.isEmpty && exponent.isEmpty then .plain .integerToken whole
  else
    let pieces := (.digits, whole) :: (fraction ++ exponent)
    { kind := .floatToken
      length := lengthOf pieces
      flags := { fraction := !fraction.isEmpty, scientific := !exponent.isEmpty }
      pieces }

/-- The number at the front of a text, which begins with a digit. -/
def scan (float : Bool) (cs : List Char) : Lexeme :=
  match cs with
  | '0' :: 'x' :: rest => based 16 { hexadecimal := true } rest
  | '0' :: 'o' :: rest => based 8 { octal := true } rest
  | '0' :: 'b' :: rest => based 2 { binary := true } rest
  | _ => decimal float cs

end ConcreteSyntax.Number
