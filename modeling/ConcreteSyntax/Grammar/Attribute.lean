import ConcreteSyntax.Grammar.Path
import ConcreteSyntax.Grammar.Recovery

/-! # Attributes and visibility

What may stand before an item, a field, a parameter or an arm. -/

namespace ConcreteSyntax

open Parse

namespace Grammar

/-! ### Attributes -/

/-- What stands between the brackets of an attribute: a path, and a value or a token tree. -/
def attributeBody (g : Grammar) : Parse Node := do
  flush
  node .attributeBody do
    child simplePath
    let current ← kind
    if current == .eq then
      consume
      field .value (unrestricted (g.parse (.expression .closure)))
    else if current.isOpen then field .arguments (g.parse (.tokenTree .arguments))

/-- An attribute of what follows it, or with `!` of what surrounds it. -/
def attributeItem (g : Grammar) : Parse Node := do
  flush
  node .attributeItem do
    consume
    ifAt .bang do
      setKind .innerAttributeItem
      consume
    if ← isAt .openBracket then
      let openRange ← tokenRange
      consume
      child g.attributeBody
      close .openBracket openRange
    else expect .openBracket

/-- The attributes that stand here, read into the open draft. -/
def attributes (g : Grammar) : Parse Unit :=
  repeatWhile do
    if ← isAt .pound then
      child g.attributeItem
      return true
    else return false

end Grammar

namespace Parse

/-! ### Visibility -/

/-- The part of the program that a visibility is restricted to. -/
def visibilityScope : Parse Unit := do
  if ← isAt .inKw then
    consume
    child simplePath
  else consume

/-- `pub`, and the part of the program that it is restricted to. In `pub (crate::A, B)` the
parenthesis opens a type. -/
def visibility : Parse Node := do
  flush
  node .visibilityModifier do
    consume
    let s ← get
    if s.isAt .openParen then
      let limited : Bool := match s.ahead 1 with
        | .crateKw | .selfKw | .superKw => s.ahead 2 == .closeParen
        | .inKw => true
        | _ => false
      if limited then
        settle .visibilityModifier .visibilityModifier
        consume
        visibilityScope
        expect .closeParen
      else settle .visibilityModifier .tupleType

/-- The visibility, if one is declared here, read into the open draft. -/
def visibilityIf : Parse Unit := ifAt .pubKw (child visibility)

end Parse

end ConcreteSyntax
