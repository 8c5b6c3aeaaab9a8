import ConcreteSyntax.Token.Escape

/-! # Strings

A string ends at the first quote that no backslash takes along. A raw string knows no escapes: it
ends at the first quote followed by as many `#` as its opening mark has. -/

namespace ConcreteSyntax.StringLiteral

/-- A run of plain characters as a piece, if there is one. -/
def contentPiece (length : Nat) : List (Kind × Nat) :=
  if length = 0 then [] else [(.stringContent, length)]

/-- Whether a character is neither a quote nor a backslash. -/
def isPlain (c : Char) : Bool := c != '"' && c != '\\'

/-- The pieces after the opening quote, the closing one included, if one closes the string. -/
def pieces? (cs : List Char) : Option (List (Kind × Nat)) :=
  let plain := (cs.takeWhile isPlain).length
  match h : cs.drop plain with
  | [] => none
  | c :: rest =>
    if c = '"' then some (contentPiece plain ++ [(.stringEnd, 1)])
    else
      let escape := Escape.scan true rest
      (pieces? (rest.drop (escape.length - 1))).map fun more =>
        contentPiece plain ++ escape.piece :: more
  termination_by cs.length
  decreasing_by
    have := congrArg List.length h
    simp only [List.length_drop, List.length_cons] at this ⊢
    omega

/-- A literal that the text ends in: `length` characters with a fault. -/
def unterminated (flags : TokenFlags) (length : Nat) (fault : FaultKind) : Lexeme :=
  { kind := .errorSentinel
    length
    flags := { flags with unterminated := true }
    fault := some fault }

/-- The string whose opening quote, `lead` characters after its start, stands before `cs`. -/
def scan (lead : Nat) (flags : TokenFlags) (cs : List Char) : Lexeme :=
  match pieces? cs with
  | none => unterminated flags (lead + 1 + cs.length) .unterminatedString
  | some more =>
    let pieces := (.stringStart, lead + 1) :: more
    { kind := .stringToken, length := (pieces.map (·.2)).foldr (· + ·) 0, flags, pieces }

/-! ### Raw strings -/

/-- The number of characters before the first quote with `hashes` marks after it. -/
def rawLength? (hashes : Nat) : List Char → Option Nat
  | [] => none
  | c :: cs =>
    if c = '"' && (List.replicate hashes '#').isPrefixOf cs then some 0
    else (rawLength? hashes cs).map (· + 1)

/-- The raw string whose `r`, `lead` characters after its start, stands before `cs`; none if the `#`
marks lead to no quote. -/
def scanRaw? (lead : Nat) (flags : TokenFlags) (cs : List Char) : Option Lexeme :=
  let hashes := (cs.takeWhile (· == '#')).length
  match cs.drop hashes with
  | '"' :: rest =>
    match rawLength? hashes rest with
    | none =>
      some (unterminated flags (lead + 1 + cs.length) (.unterminatedRawString hashes))
    | some length =>
      let pieces := (.rawStringStart, lead + hashes + 2) ::
        (contentPiece length ++ [(.rawStringEnd, hashes + 1)])
      some { kind := .rawStringToken, length := (pieces.map (·.2)).foldr (· + ·) 0, flags, pieces }
  | _ => none

end ConcreteSyntax.StringLiteral
