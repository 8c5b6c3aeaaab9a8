import ConcreteSyntax.Token.Basic
import ConcreteSyntax.Text.Character

/-! # Lexemes

A lexeme is a token without a place: it says how many characters it takes from the front of the text
that is left, and how these characters fall into pieces. Counting characters keeps every bound off
the inside of a character; `Lexeme.place` turns the counts into ranges of bytes, and adds the fault
of each piece that is no valid escape. -/

namespace ConcreteSyntax

/-- A token without a place. -/
structure Lexeme where
  kind : Kind
  /-- The number of characters. -/
  length : Nat
  flags : TokenFlags := {}
  /-- The pieces in order, each with its number of characters. -/
  pieces : List (Kind × Nat) := []
  /-- A fault of the lexeme as a whole. -/
  fault : Option FaultKind := none
  deriving DecidableEq, Inhabited

namespace Lexeme

/-- A lexeme of one or more fixed characters. -/
def plain (kind : Kind) (length : Nat) : Lexeme := { kind, length }

/-- Pieces with their numbers of characters, laid out over a run of characters from `offset` on. -/
def placePieces (offset : Nat) (cs : List Char) : List (Kind × Nat) → List Piece
  | [] => []
  | (kind, length) :: more =>
    let next := offset + Text.byteLength (cs.take length)
    ⟨kind, offset, next⟩ :: placePieces next (cs.drop length) more

/-- The fault of a piece: one that stands for an unreadable escape. -/
def pieceFault? (p : Piece) : Option Fault :=
  if p.kind = .errorSentinel then some ⟨.invalidEscape, p.range⟩ else none

/-- The token at the front of a run of characters that begins at `offset`. -/
def place (l : Lexeme) (offset : Nat) (cs : List Char) : Token :=
  let range : Range := ⟨offset, offset + Text.byteLength (cs.take l.length)⟩
  let pieces := placePieces offset cs l.pieces
  { kind := l.kind
    range
    flags := l.flags
    pieces
    faults := (l.fault.map fun kind => (⟨kind, range⟩ : Fault)).toList
      ++ pieces.filterMap pieceFault? }

end Lexeme

end ConcreteSyntax
