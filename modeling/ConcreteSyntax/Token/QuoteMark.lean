import ConcreteSyntax.Token.Escape
import ConcreteSyntax.Token.Admitted

/-! # Lifetimes and characters

Both begin with a single quote. The quote of a lifetime is a token of its own; a character in quotes
is a token of three pieces. -/

namespace ConcreteSyntax.QuoteMark

variable [Text.Xid]

/-- The quote alone, as before the name of a lifetime. -/
def alone : Lexeme := .plain .quote 1

/-- What may stand between the quotes of a character: an escape, or one character that is neither a
quote nor a line end. -/
def contentPiece? (cs : List Char) : Option (Kind × Nat) :=
  match cs with
  | [] => none
  | '\\' :: rest => some (Escape.scan false rest).piece
  | c :: _ => if c = '\'' || c = '\n' || c = '\r' then none else some (.charContent, 1)

/-- The character whose opening quote, `lead` characters after its start, stands before `cs`. -/
def character? (lead : Nat) (flags : TokenFlags) (cs : List Char) : Option Lexeme :=
  match contentPiece? cs with
  | none => none
  | some (kind, length) =>
    if cs[length]? = some '\'' then
      some {
        kind := .charToken
        length := lead + length + 2
        flags
        pieces := [(.charStart, lead + 1), (kind, length), (.charEnd, 1)] }
    else none

/-- The quote before `cs`, and what would be its character, when no quote closes it. -/
def unclosed (lead : Nat) (flags : TokenFlags) (cs : List Char) : Lexeme :=
  let content := match contentPiece? cs with
    | some (_, length) => length
    | none => 0
  { kind := .errorSentinel
    length := lead + content + 1
    flags := { flags with unterminated := true }
    fault := some .unterminatedChar }

/-- The character after a prefix, closed or not. -/
def prefixed (flags : TokenFlags) (cs : List Char) : Lexeme :=
  (character? 1 flags cs).getD (unclosed 1 flags cs)

/-- The lexeme that the quote before `cs` begins. A name after the quote makes it a lifetime, unless
a second quote closes it; `'static` is always a lifetime, as is a name that fits no character. -/
def scan? (admitted : Admitted) (cs : List Char) : Option Lexeme :=
  let name := Text.identifierPrefix cs
  let lifetime := admitted.lifetime && !name.isEmpty
  if lifetime && (cs[name.length]? != some '\'' || name == "static".toList) then some alone
  else if !admitted.char then if admitted.lifetime then some alone else none
  else match character? 0 {} cs with
    | some lexeme => some lexeme
    | none => if lifetime then some alone else some (unclosed 0 {} cs)

end ConcreteSyntax.QuoteMark
