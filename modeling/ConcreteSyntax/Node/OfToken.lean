import ConcreteSyntax.Node.Draft
import ConcreteSyntax.Token.Basic

/-! # Tokens as nodes

A simple token is a leaf. A literal, a number with more than digits, and a doc comment become nodes
whose children are the pieces of the token, so the token itself never stands in a tree. -/

namespace ConcreteSyntax.Node

/-- A node whose children are the pieces of a token. -/
def ofPieces (kind : Kind) (flags : NodeFlags) (range : Range) (pieces : List Piece) : Node :=
  let children : Array Child := (pieces.map fun p => (none, leaf p.kind p.range {})).toArray
  ({ kind, flags, children } : Draft).finishOver range

/-- A comment, which is marked as an extra. -/
def ofComment (token : Token) : Node :=
  let flags : NodeFlags := { extra := true }
  if token.pieces.isEmpty then leaf token.kind token.range flags
  else ofPieces token.kind flags token.range token.pieces

/-- The kind of the node that a token becomes if it is no leaf. A token read under another kind is a
leaf, unless it is a literal between quotes. -/
def literalKind? (token : Token) (plain : Bool) : Option Kind :=
  match token.kind with
  | .stringToken => some .stringLiteral
  | .rawStringToken => some .rawStringLiteral
  | .charToken => some .charLiteral
  | .integerToken => if plain && !token.pieces.isEmpty then some .integerLiteral else none
  | .floatToken => if plain then some .floatLiteral else none
  | _ => none

/-- A token as a node, under another kind if one is given. A faulty token is an error. -/
def ofToken (token : Token) (as? : Option Kind) : Node :=
  let flags : NodeFlags := { error := !token.faults.isEmpty }
  match literalKind? token as?.isNone with
  | some kind => ofPieces kind flags token.range token.pieces
  | none => leaf (as?.getD token.kind) token.range flags

end ConcreteSyntax.Node
