import ConcreteSyntax.Grammar.Expression.Infix
import ConcreteSyntax.Grammar.Item

/-! # Statements and blocks

The body of a block, a module or a file. A statement that consumes nothing is skipped as an error,
so every turn of `Grammar.statements` moves on. -/

namespace ConcreteSyntax.Grammar

open Parse

/-! ### Statements -/

/-- A declaration with `let`. -/
def letDeclaration (g : Grammar) : Parse Node :=
  node .letDeclaration do
    consume
    consumeIf .mutKw
    field .pattern (g.parse .pattern)
    ifAt .colon do
      consume
      field .type (g.parse .type)
    ifAt .eq do
      consume
      field .value g.expression
    ifAt .elseKw do
      consume
      field .alternative (g.parse .block)
    expect .semicolon

/-- Whether a node is the call of a macro between braces, which needs no semicolon. -/
def isBraceCall (n : Node) : Bool :=
  n.kind == .macroInvocation &&
    match n.children.getLast? with
    | some (_, tree) => (tree.child? 0).any (·.kind == .openBrace)
    | none => false

/-- An expression as a statement. Before a `}` it is the value of the block and stays bare. -/
def expressionStatement (g : Grammar) : Parse Unit := do
  let (expression, isBlockLike) ← g.statementExpression
  let current ← kind
  if current == .semicolon then
    child <| node .expressionStatement do
      push expression
      consume
  else if isBlockLike || isBraceCall expression then
    child (node .expressionStatement (push expression))
  else if current == .closeBrace then push expression
  else
    child <| node .expressionStatement do
      push expression
      expect .semicolon

/-- A statement. Nothing is consumed if none begins here. -/
def statement (g : Grammar) : Parse Unit := do
  flush
  match ← kind with
  | .semicolon => child (node .emptyStatement consume)
  | .letKw => child g.letDeclaration
  | _ =>
    if ← isAtItem then let _ ← g.item
    else if ← isAtExpression then g.expressionStatement

/-- An item, or the call of a macro in the place of one. -/
def itemStatement (g : Grammar) : Parse Unit := do
  if (← isAtMacro) && !(← isAtItem) then g.expressionStatement
  else unless ← g.item do recoverStatement

/-! ### Rows of statements -/

/-- What a row of statements ends at, besides the end of the text, and what it may hold. -/
structure Row where
  /-- Whether a `}` ends the row. -/
  inBraces : Bool
  /-- Whether only items may stand in the row. -/
  itemsOnly : Bool

/-- One statement, or one item where only items may stand. -/
def rowStatement (g : Grammar) (row : Row) : Parse Unit :=
  if row.itemsOnly then g.itemStatement else g.statement

/-- Reads one member of a row, and skips what it does not consume. -/
def rowMember (g : Grammar) (row : Row) : Parse Unit := do
  let before ← offset
  g.rowStatement row
  let s ← get
  if s.offset == before && !s.isAt .endOfFile then recoverStatement

/-- Reads one member of a row, unless what ends the row stands here. Says whether more may
follow. -/
def rowTurn (g : Grammar) (row : Row) : Parse Bool := do
  flush
  match ← kind with
  | .endOfFile => return false
  | .closeBrace =>
    if ← absorbBrace then return true
    if row.inBraces then return false
    reportUnexpected
    child (node .error consume)
    return true
  | _ =>
    g.rowMember row
    return true

/-- Reads a row of statements into the open draft, up to what ends it. -/
def statements (g : Grammar) (row : Row) : Parse Unit := repeatWhile (g.rowTurn row)

/-! ### Between braces -/

/-- Statements or items between braces, read into the open draft. -/
def braced (g : Grammar) (row : Row) : Parse Unit := do
  if ← isAt .openBrace then
    let openRange ← tokenRange
    consume
    g.statements row
    close .openBrace openRange
  else missingGroup .openBrace .closeBrace

/-- What stands between the braces of a block, read into the open draft. -/
def blockBody (g : Grammar) : Parse Unit :=
  unrestricted (g.braced { inBraces := true, itemsOnly := false })

/-- A block. -/
def block (g : Grammar) : Parse Node := do
  flush
  guarded (node .block g.blockBody)

/-- The items of a module, a trait or an implementation. -/
def declarationList (g : Grammar) : Parse Node := do
  flush
  node .declarationList (g.braced { inBraces := true, itemsOnly := true })

end ConcreteSyntax.Grammar
