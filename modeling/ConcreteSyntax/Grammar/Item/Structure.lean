import ConcreteSyntax.Grammar.Expression.Postfix

/-! # Structures, unions and enumerations

Types that are defined by their fields or by their variants. -/

namespace ConcreteSyntax.Grammar

open Parse

/-! ### Fields -/

/-- What a field with a name or a variant may begin with. -/
def startsMember : Kind → Bool
  | .identifier | .pubKw | .pound | .metavariable => true
  | _ => false

/-- The form of a list of members between braces. -/
def memberList : ListForm where
  opener := .openBrace
  closer := .closeBrace
  ends := []
  starts := startsMember

/-- A field with a name. -/
def fieldDeclaration (g : Grammar) : Parse Unit := do
  g.attributes
  flush
  child <| node .fieldDeclaration do
    visibilityIf
    expectName .name .fieldIdentifier
    expect .colon
    field .type (g.parse .type)

/-- Fields with names. -/
def fieldDeclarations (g : Grammar) : Parse Node := do
  flush
  node .fieldDeclarationList (list memberList g.fieldDeclaration)

/-- The form of a list of fields without names. -/
def orderedFieldList : ListForm where
  opener := .openParen
  closer := .closeParen
  ends := [.closeBrace, .semicolon]
  starts k := k.startsType || k == .pubKw || k == .pound

/-- Fields without names. -/
def orderedFieldDeclarations (g : Grammar) : Parse Node := do
  flush
  node .orderedFieldDeclarationList <| list orderedFieldList do
    g.attributes
    visibilityIf
    field .type (g.parse .type)

/-! ### Structures and unions -/

/-- The fields of a structure or a union. Only a structure may have fields without names, or
none. -/
def structureBody (g : Grammar) (isStruct : Bool) : Parse Unit := do
  let current ← kind
  if current == .openBrace then field .body g.fieldDeclarations
  else if isStruct && current == .openParen then
    field .body g.orderedFieldDeclarations
    g.whereClauseIf
    expect .semicolon
  else if isStruct && current == .semicolon then consume
  else unless ← absorbBrace do reportExpected "'\x7b', '(' or ';'"

/-- A structure. -/
def structItem (g : Grammar) : Parse Unit := do
  setKind .structItem
  consume
  expectName .name .typeIdentifier
  g.typeParametersIf
  g.whereClauseIf
  g.structureBody true

/-- A union. -/
def unionItem (g : Grammar) : Parse Unit := do
  setKind .unionItem
  consumeAs .unionKw
  expectName .name .typeIdentifier
  g.typeParametersIf
  g.whereClauseIf
  g.structureBody false

/-! ### Enumerations -/

/-- The fields of a variant, if it has some. -/
def variantFields (g : Grammar) : Parse Unit := do
  match ← kind with
  | .openBrace => field .body g.fieldDeclarations
  | .openParen => field .body g.orderedFieldDeclarations
  | _ => return

/-- A variant. -/
def variant (g : Grammar) : Parse Node := do
  flush
  node .enumVariant do
    visibilityIf
    expectName .name .identifier
    g.variantFields
    ifAt .eq do
      consume
      field .value g.expression

/-- An enumeration. -/
def enumItem (g : Grammar) : Parse Unit := do
  setKind .enumItem
  consume
  expectName .name .typeIdentifier
  g.typeParametersIf
  g.whereClauseIf
  flush
  field .body <| node .enumVariantList <| list memberList do
    g.attributes
    child g.variant

end ConcreteSyntax.Grammar
