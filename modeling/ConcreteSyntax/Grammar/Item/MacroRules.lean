import ConcreteSyntax.Grammar.TokenTree

/-! # Definitions of macros

A definition is a list of rules, each a pattern and what it stands for. -/

namespace ConcreteSyntax.Grammar

open Parse

/-- One rule. -/
def macroRule (g : Grammar) : Parse Node := do
  flush
  node .macroRule do
    field .left (g.parse (.tokenTree .pattern))
    expect .fatArrow
    field .right (g.parse (.tokenTree .arguments))

/-- A rule or a semicolon; anything else is skipped. -/
def macroEntry (g : Grammar) (current : Kind) : Parse Unit := do
  if current == .semicolon then consume
  else if current.isOpen then child g.macroRule
  else
    reportUnexpected
    child skipGroup

/-- The rules of a definition and its closer. -/
def macroRules (g : Grammar) (opener closer : Kind) (openRange : Range) : Parse Unit :=
  repeatWhile do
    flush
    let current ← kind
    if current == .endOfFile || current.isClose then
      let _ ← treeCloser opener closer openRange
      return false
    g.macroEntry current
    return true

/-- A definition of a macro. Between braces it needs no semicolon. -/
def macroDefinition (g : Grammar) : Parse Unit := do
  setKind .macroDefinition
  consumeAs .macroRulesKw
  expect .bang
  expectName .name .identifier
  flush
  let opener ← kind
  match opener.closer? with
  | none => reportExpected "'\x7b', '(' or '['"
  | some closer =>
    let openRange ← tokenRange
    consume
    g.macroRules opener closer openRange
    unless opener == .openBrace do expect .semicolon

end ConcreteSyntax.Grammar
