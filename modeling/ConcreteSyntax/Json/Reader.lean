import ConcreteSyntax.Text.Character

/-! # Reading JSON

A document is read from left to right, and the first flaw found ends the reading. `Flaw` tells three
cases apart: the text ends too early, it is not JSON, or it is JSON of the wrong type. Strings that
are kept must pair their surrogates; strings that are skipped need not. -/

namespace ConcreteSyntax.Json

/-- Why a document cannot be used. -/
inductive Flaw where
  | ended | malformed | unsuitable
  deriving DecidableEq, Inhabited

/-- A step that takes characters from the front of a document. -/
abbrev Reader := StateT (List Char) (Except Flaw)

namespace Reader

/-! ### Single characters -/

/-- A character that may stand between any two parts of a document. -/
def isBlank (c : Char) : Bool := c == ' ' || c == '\n' || c == '\t' || c == '\r'

/-- The next character, which stays. -/
def peek? : Reader (Option Char) := fun cs => .ok (cs.head?, cs)

/-- The next character, which is taken; the document must not end here. -/
def take : Reader Char
  | [] => .error .ended
  | c :: cs => .ok (c, cs)

/-- Takes the next character away. -/
def drop : Reader Unit := fun cs => .ok ((), cs.tail)

/-- The next character that is not blank, which stays; the document must not end before it. -/
def peekSolid : Reader Char := fun cs =>
  match cs.dropWhile isBlank with
  | [] => .error .ended
  | c :: rest => .ok (c, c :: rest)

/-- Takes the next character that is not blank, which must be `c`. -/
def solid (c : Char) : Reader Unit := do
  if (← peekSolid) = c then drop else throw .malformed

/-- Takes the rest of a fixed word. -/
def word : List Char → Reader Unit
  | [] => pure ()
  | c :: cs => do
    if (← take) = c then word cs else throw .malformed

/-- Nothing but blanks may follow. -/
def finish : Reader Unit := fun cs =>
  if (cs.dropWhile isBlank).isEmpty then .ok ((), []) else .error .malformed

/-! ### Strings -/

/-- The value of a digit of base sixteen. -/
def hexValue (c : Char) : Nat :=
  if c.isDigit then c.toNat - '0'.toNat
  else if c.isLower then c.toNat - 'a'.toNat + 10
  else c.toNat - 'A'.toNat + 10

/-- Takes four digits of base sixteen. A text with fewer than four bytes left has ended. -/
def fourDigits : Reader Nat := fun cs =>
  let digits := cs.take 4
  if digits.length = 4 && digits.all Text.isHexDigit then
    .ok (digits.foldl (fun n c => 16 * n + hexValue c) 0, cs.drop 4)
  else if Text.byteLength digits < 4 then .error .ended
  else .error .malformed

/-- What a single character after a backslash stands for. -/
def simpleEscape? : Char → Option Char
  | '"' => some '"'
  | '\\' => some '\\'
  | '/' => some '/'
  | 'b' => some '\x08'
  | 'f' => some '\x0c'
  | 'n' => some '\n'
  | 'r' => some '\r'
  | 't' => some '\t'
  | _ => none

/-- The character of four digits, and of four more if they begin a pair of surrogates. -/
def escapedCodePoint : Reader Char := do
  let first ← fourDigits
  if 0xdc00 ≤ first && first ≤ 0xdfff then throw .malformed
  else if first < 0xd800 || 0xdbff < first then return Char.ofNat first
  else
    unless (← take) = '\\' do throw .malformed
    unless (← take) = 'u' do throw .malformed
    let second ← fourDigits
    if second < 0xdc00 || 0xdfff < second then throw .malformed
    return Char.ofNat ((first - 0xd800) * 0x400 + (second - 0xdc00) + 0x10000)

/-- What stands for one character in a string whose next character is `c`, already taken: itself, or
an escape. Strict reading decodes it, loose reading only takes it. -/
def stringChar (strict : Bool) (c : Char) : Reader Char := do
  if c = '\\' then
    let e ← take
    match simpleEscape? e with
    | some decoded => return decoded
    | none =>
      if e ≠ 'u' then throw .malformed
      else if strict then escapedCodePoint
      else
        let _ ← fourDigits
        return e
  else if c.toNat < 0x20 then throw .malformed
  else return c

/-- A string up to its closing quote, which is taken; `fuel` bounds its length. -/
def stringUpTo (strict : Bool) : Nat → Reader (List Char)
  | 0 => throw .ended
  | fuel + 1 => do
    let c ← take
    if c = '"' then return []
    else
      let decoded ← stringChar strict c
      return decoded :: (← stringUpTo strict fuel)

/-- A string whose opening quote was taken. -/
def stringRest (strict : Bool) : Reader (List Char) := do
  stringUpTo strict ((← get).length + 1)

/-! ### Numbers -/

/-- A number that is read: a natural number of at most 64 bits, or any other number. -/
inductive Number where
  | natural (value : Nat)
  | other
  deriving DecidableEq, Inhabited

/-- The digits at the front, which are taken. -/
def digits : Reader (List Nat) := fun cs =>
  .ok ((cs.takeWhile Char.isDigit).map fun c => c.toNat - '0'.toNat, cs.dropWhile Char.isDigit)

/-- Digits, of which there must be one. -/
def someDigits : Reader (List Nat) := do
  if (← peek?).any Char.isDigit then digits
  else
    let _ ← take
    throw .malformed

/-- The digits of a whole number: no other digit follows a leading zero. -/
def wholeDigits : Reader (List Nat) := do
  let all ← someDigits
  match all with
  | 0 :: _ :: _ => throw .malformed
  | _ => return all

/-- A decimal number `significand * 10 ^ exponent` as it is collected digit by digit. A digit that
would carry the significand past 64 bits is dropped, and with it every later one. -/
structure Decimal where
  significand : Nat := 0
  exponent : Int := 0
  full : Bool := false

/-- One more digit before the point. -/
def Decimal.addWhole (d : Decimal) (digit : Nat) : Decimal :=
  let next := 10 * d.significand + digit
  if d.full || 0x10000000000000000 ≤ next then { d with exponent := d.exponent + 1, full := true }
  else { d with significand := next }

/-- One more digit after the point. -/
def Decimal.addFraction (d : Decimal) (digit : Nat) : Decimal :=
  let next := 10 * d.significand + digit
  if d.full || 0x10000000000000000 ≤ next then { d with full := true }
  else { d with significand := next, exponent := d.exponent - 1 }

/-- Whether a decimal number is too large for double precision. -/
def Decimal.isTooLarge (d : Decimal) : Bool :=
  if d.significand = 0 || d.exponent < 0 then false
  else if 308 < d.exponent then true
  else (Float.ofNat d.significand * Float.ofScientific 1 false d.exponent.toNat).isInf

/-- The number with the exponent after its letter: a sign, if there is one, and digits. -/
def exponentOf (d : Decimal) : Reader Decimal := do
  let sign ← peek?
  if sign == some '+' || sign == some '-' then drop
  let size : Nat := (← someDigits).foldl (fun n digit => 10 * n + digit) 0
  return { d with
    exponent := if sign == some '-' then d.exponent - Int.ofNat size
      else d.exponent + Int.ofNat size }

/-- A number whose sign was taken. The result is exact for natural numbers of 64 bits; every other
number only has to be well-formed and not too large. -/
def number (positive : Bool) : Reader Number := do
  let whole ← wholeDigits
  let start := whole.foldl Decimal.addWhole {}
  let fraction ← (do
    if (← peek?) == some '.' then
      drop
      return some (← someDigits)
    else return none : Reader (Option (List Nat)))
  let collected := match fraction with
    | some digits => digits.foldl Decimal.addFraction { start with full := false }
    | none => start
  let letter ← peek?
  let hasExponent := letter == some 'e' || letter == some 'E'
  let collected ← (if hasExponent then do drop; exponentOf collected else return collected)
  if fraction.isNone && !hasExponent && !start.full then
    return if positive then .natural start.significand else .other
  else if collected.isTooLarge then throw .malformed
  else return .other

/-! ### Values that are skipped -/

/-- Turns an early end into a malformed document: in a number that is skipped, the end of the text
is a character like any other. -/
def endIsMalformed (r : Reader α) : Reader α := fun cs =>
  match r cs with
  | .error .ended => .error .malformed
  | result => result

/-- A number that is skipped; the sign was taken. -/
def skipNumber : Reader Unit := endIsMalformed do
  let _ ← wholeDigits
  if (← peek?) == some '.' then
    drop
    let _ ← someDigits
  let letter ← peek?
  if letter == some 'e' || letter == some 'E' then
    drop
    let sign ← peek?
    if sign == some '+' || sign == some '-' then drop
    let _ ← someDigits

/-- A label and its colon. -/
def skipLabel : Reader Unit := do
  solid '"'
  let _ ← stringRest false
  solid ':'

mutual

/-- A value that is skipped; `fuel` bounds the number of its parts. -/
def skipValueUpTo : Nat → Reader Unit
  | 0 => throw .ended
  | fuel + 1 => do
    let c ← peekSolid
    drop
    if c = 'n' then word "ull".toList
    else if c = 't' then word "rue".toList
    else if c = 'f' then word "alse".toList
    else if c = '-' then skipNumber
    else if c.isDigit then
      modify (c :: ·)
      skipNumber
    else if c = '"' then
      let _ ← stringRest false
    else if c = '[' then
      if (← peekSolid) = ']' then drop else skipElements fuel
    else if c = '\x7b' then
      if (← peekSolid) = '\x7d' then drop else skipMembers fuel
    else throw .malformed

/-- The elements of a list up to its end. -/
def skipElements : Nat → Reader Unit
  | 0 => throw .ended
  | fuel + 1 => do
    skipValueUpTo fuel
    let c ← peekSolid
    drop
    if c = ',' then skipElements fuel
    else if c = ']' then return
    else throw .malformed

/-- The members of an object up to its end. -/
def skipMembers : Nat → Reader Unit
  | 0 => throw .ended
  | fuel + 1 => do
    skipLabel
    skipValueUpTo fuel
    let c ← peekSolid
    drop
    if c = ',' then skipMembers fuel
    else if c = '\x7d' then return
    else throw .malformed

end

/-- A value of any type that is skipped. -/
def skipValue : Reader Unit := do
  skipValueUpTo ((← get).length + 1)

/-! ### Values of one type -/

/-- The flaw of a value that has another type than the one wanted: it has to be well-formed as far
as its type shows, and is unsuitable then. -/
def otherType : Reader α := do
  let c ← peekSolid
  if c = 'n' then
    drop
    word "ull".toList
  else if c = 't' then
    drop
    word "rue".toList
  else if c = 'f' then
    drop
    word "alse".toList
  else if c = '-' then
    drop
    let _ ← number false
  else if c.isDigit then
    let _ ← number true
  else if c = '"' then
    drop
    let _ ← stringRest true
  else if c ≠ '[' && c ≠ '\x7b' then throw .malformed
  throw .unsuitable

/-- A truth value. -/
def boolean : Reader Bool := do
  let c ← peekSolid
  if c = 't' then
    drop
    word "rue".toList
    return true
  else if c = 'f' then
    drop
    word "alse".toList
    return false
  else otherType

/-- A natural number below a bound. -/
def naturalBelow (bound : Nat) : Reader Nat := do
  let c ← peekSolid
  if c = '-' || c.isDigit then
    if c = '-' then drop
    match ← number (c ≠ '-') with
    | .natural value => if value < bound then return value else throw .unsuitable
    | .other => throw .unsuitable
  else otherType

end Reader

end ConcreteSyntax.Json
