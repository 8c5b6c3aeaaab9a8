import ConcreteSyntax.Grammar.Item.Trait
import ConcreteSyntax.Grammar.Path

/-! # Modules and imports -/

namespace ConcreteSyntax.Grammar

open Parse

/-! ### Modules -/

/-- A module, with its items or in a file of its own. -/
def modItem (g : Grammar) : Parse Unit := do
  setKind .modItem
  consume
  expectName .name .identifier
  if ← isAt .semicolon then consume else g.declarations

/-- A block of foreign items. -/
def foreignModItem (g : Grammar) : Parse Unit := do
  setKind .foreignModItem
  consumeIf .unsafeKw
  child externModifier
  g.declarations

/-- A new name after `as`, which may be `_`. -/
def newName : Parse Unit := do
  consume
  markOrName .underscore .alias

/-- A foreign package. -/
def externCrateDeclaration : Parse Unit := do
  setKind .externCrateDeclaration
  consume
  consume
  markOrName .selfKw .name
  ifAt .asKw newName
  expect .semicolon

/-! ### Imports -/

/-- The form of a list of imports. -/
def useList : ListForm where
  opener := .openBrace
  closer := .closeBrace
  ends := [.semicolon]
  starts k := k.startsPath || k == .openBrace || k == .star

/-- Imports between braces. -/
def imports (g : Grammar) : Parse Node := do
  flush
  node .useList (list useList (child (g.parse .useClause)))

/-- A wildcard or a list after a leading `::`. -/
def globalImports (g : Grammar) : Parse Node :=
  node .scopedUseList do
    consume
    if ← isAt .star then
      setKind .useWildcard
      consume
    else field .list g.imports

/-- What follows the path of an import: a list, a wildcard, or a new name. -/
def importsFrom (g : Grammar) (path : Node) : Parse Node := do
  let s ← get
  if s.isAt .colonColon && s.ahead 1 == .openBrace then
    node .scopedUseList do
      pushField .path path
      consume
      field .list g.imports
  else if s.isAt .colonColon && s.ahead 1 == .star then
    node .useWildcard do
      push path
      consume
      consume
  else if s.isAt .asKw then
    node .useAsClause do
      pushField .path path
      newName
  else return path

/-- What is imported. -/
def useClause (g : Grammar) : Parse Node := do
  flush
  let s ← get
  if s.isAt .openBrace then g.imports
  else if s.isAt .star then node .useWildcard consume
  else if s.isAt .colonColon && (s.ahead 1 == .openBrace || s.ahead 1 == .star) then
    g.globalImports
  else g.importsFrom (← simplePath)

/-- An import. -/
def useDeclaration (g : Grammar) : Parse Unit := do
  setKind .useDeclaration
  consume
  field .argument (g.parse .useClause)
  expect .semicolon

end ConcreteSyntax.Grammar
