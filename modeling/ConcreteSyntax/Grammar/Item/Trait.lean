import ConcreteSyntax.Grammar.Generic
import ConcreteSyntax.Grammar.Signature

/-! # Traits, implementations and type aliases -/

namespace ConcreteSyntax.Grammar

open Parse

/-- Items between braces, under the label of a body. -/
def declarations (g : Grammar) : Parse Unit := field .body (g.parse .declarationList)

/-- A trait. -/
def traitItem (g : Grammar) : Parse Unit := do
  setKind .traitItem
  consumeIf .unsafeKw
  provided (← isAtWord "auto") (consumeAs .autoKw)
  expect .traitKw
  expectName .name .typeIdentifier
  g.typeParametersIf
  g.traitBoundsIf
  g.whereClauseIf
  g.declarations

/-- What an implementation is for: a type, or a trait and a type. -/
def implementedType (g : Grammar) : Parse Unit := do
  let first ← g.parse .type
  if ← isAt .forKw then
    pushField .trait first
    consume
    field .type (g.parse .type)
  else pushField .type first

/-- An implementation. -/
def implItem (g : Grammar) : Parse Unit := do
  setKind .implItem
  consumeDefault
  consumeIf .unsafeKw
  expect .implKw
  g.typeParametersIf
  consumeIf .bang
  g.implementedType
  g.whereClauseIf
  if ← isAt .semicolon then consume else g.declarations

/-- A type alias; without a value, or in a trait, an associated type. -/
def typeItem (g : Grammar) : Parse Unit := do
  setKind .associatedType
  consumeDefault
  consume
  expectName .name .typeIdentifier
  g.typeParametersIf
  g.traitBoundsIf
  g.whereClauseIf
  ifAt .eq do
    setKind .typeItem
    consume
    field .type (g.parse .type)
    g.whereClauseIf
  expect .semicolon

end ConcreteSyntax.Grammar
