import ConcreteSyntax.Grammar.Start
import ConcreteSyntax.Grammar.Intake

/-! # Literals and quoted names

A literal is a node over its pieces and a suffix that touches it. Lifetimes and labels are a quote
and a name. -/

namespace ConcreteSyntax.Parse

/-! ### Literals -/

/-- Takes a number into the open draft: the digits alone, or its pieces if it has some. -/
def consumeNumber (next : Admitted) : Parse Unit := do
  match ← take none next with
  | none => return
  | some number =>
    if number.isLeaf then push number
    else
      inheritError number
      pushAll number.children

/-- A number and its suffix. -/
def number (kind : Kind) : Parse Node :=
  node kind do
    consumeNumber .afterLiteral
    consumeIf .literalSuffix

/-- A literal between quotes and its suffix. -/
def quotedLiteral : Parse Node := do
  match ← take none .afterLiteral with
  | none => missing .stringLiteral
  | some literal =>
    if ← isAt .literalSuffix then
      node literal.kind do
        inheritError literal
        pushAll literal.children
        consume
    else return literal

/-- Any literal. -/
def literal : Parse Node := do
  flush
  match ← kind with
  | .integerToken => number .integerLiteral
  | .floatToken => number .floatLiteral
  | .trueKw | .falseKw => node .booleanLiteral consume
  | .stringToken | .rawStringToken | .charToken => quotedLiteral
  | _ =>
    reportExpected "literal"
    missing .integerLiteral

/-- A literal with a minus sign before it. -/
def negativeLiteral : Parse Node :=
  node .negativeLiteral do
    consume
    child literal

/-- The index of a field after a dot; `0.1` is no float there. -/
def tupleIndex : Parse Node := node .integerLiteral (consumeNumber .tupleIndex)

/-- The name or the number of a field, in a pattern or a literal. -/
def memberName (label : Field) : Parse Unit := do
  if ← isAt .integerToken then field label literal else consumeFieldAs label .fieldIdentifier

/-! ### Quoted names -/

/-- A quote and a name; a word may be the name. -/
def quotedName (kind : Kind) : Parse Node :=
  node kind do
    expect .quote
    let current ← Parse.kind
    if current == .identifier || current.isWord then consumeAs .identifier
    else if current == .underscore then consume
    else
      reportExpected "identifier"
      pushMissing .identifier

/-- A lifetime. -/
def lifetime : Parse Node := do
  flush
  quotedName .lifetime

end ConcreteSyntax.Parse
