import ConcreteSyntax.Grammar.Statement
import ConcreteSyntax.Node.Retag

/-! # Control flow

Conditions, branches, matches and loops. In the head of each a `{` opens the body, never the fields
of a literal. -/

namespace ConcreteSyntax.Grammar

open Parse

/-! ### Conditions -/

/-- A condition, in which `let` may stand. -/
def condition (g : Grammar) (noStructLiteral : Bool) : Parse Node := do
  let condition ← restricted { noStructLiteral, allowLet := true } g.expression
  return condition.asLetChain

/-- A pattern and the value that has to match it. The value ends before `&&` and `||`, so that the
condition goes on. -/
def letCondition (g : Grammar) : Parse Node :=
  node .letCondition do
    consume
    field .pattern (g.parse .pattern)
    expect .eq
    let restriction ← restriction
    field .value <| restricted { restriction with allowLet := false } <|
      g.parse (.expression OperatorClass.logicalAnd.precedence.next)

/-- The expression in the head of a loop or a match. -/
def headExpression (g : Grammar) : Parse Node :=
  restricted { noStructLiteral := true } g.expression

/-! ### Branches -/

/-- What follows `else`. -/
def elseClause (g : Grammar) : Parse Node :=
  node .elseClause do
    consume
    if ← isAt .ifKw then child (g.parse .elseIf) else child (g.parse .block)

/-- An `if` and its branches. -/
def ifExpression (g : Grammar) : Parse Node :=
  node .ifExpression do
    consume
    field .condition (g.condition true)
    field .consequence (g.parse .block)
    if ← isAt .elseKw then field .alternative g.elseClause

/-- The `if` after an `else`. -/
def elseIf (g : Grammar) : Parse Node := do
  flush
  guarded g.ifExpression

/-! ### Matches -/

/-- The pattern of an arm and its guard. -/
def armPattern (g : Grammar) : Parse Node :=
  node .matchPattern do
    child (g.parse .pattern)
    if ← isAt .ifKw then
      consume
      field .condition (g.condition false)

/-- An arm. It ends with a comma, unless a block or the last `}` ends it. -/
def matchArm (g : Grammar) : Parse Node := do
  flush
  node .matchArm do
    g.attributes
    flush
    field .pattern g.armPattern
    expect .fatArrow
    let (value, isBlockLike) ← g.statementExpression
    pushField .value value
    let s ← get
    if s.isAt .comma then consume
    else unless isBlockLike || s.isAt .closeBrace do reportHere .expected [","]

/-- Reads an arm, or skips what stands in its place. -/
def matchEntry (g : Grammar) : Parse Unit := do
  let s ← get
  if s.kind.startsPattern || s.isAt .pound then
    child g.matchArm
    provided ((← offset) == s.offset) (recoverUntil .comma)
  else recoverUntil .comma

/-- The arms of a match, read into the open draft. -/
def matchArms (g : Grammar) : Parse Unit :=
  repeatWhile do
    flush
    match ← kind with
    | .endOfFile => return false
    | .closeBrace => absorbBrace
    | _ =>
      g.matchEntry
      return true

/-- The arms of a match between braces. -/
def matchBlock (g : Grammar) : Parse Node := do
  flush
  node .matchBlock do
    if ← isAt .openBrace then
      let openRange ← tokenRange
      consume
      unrestricted g.matchArms
      close .openBrace openRange
    else missingGroup .openBrace .closeBrace

/-- A match. -/
def matchExpression (g : Grammar) : Parse Node :=
  node .matchExpression do
    consume
    field .value g.headExpression
    field .body g.matchBlock

/-! ### Loops -/

/-- A loop with a condition, read into a draft that may hold a label. -/
def whileLoop (g : Grammar) : Parse Unit := do
  setKind .whileExpression
  consume
  field .condition (g.condition true)
  field .body (g.parse .block)

/-- An endless loop, read into a draft that may hold a label. -/
def endlessLoop (g : Grammar) : Parse Unit := do
  setKind .loopExpression
  consume
  field .body (g.parse .block)

/-- A loop over a sequence, read into a draft that may hold a label. -/
def forLoop (g : Grammar) : Parse Unit := do
  setKind .forExpression
  consume
  field .pattern (g.parse .pattern)
  expect .inKw
  field .value g.headExpression
  field .body (g.parse .block)

/-- A loop or a block with a label. At the limit of nesting a block is skipped with its label left
out. -/
def labeled (g : Grammar) : Parse Node := do
  let label ← collect (.ofKind .block) do
    child (quotedName .label)
    expect .colon
  match ← kind with
  | .loopKw => resume label g.endlessLoop
  | .whileKw => resume label g.whileLoop
  | .forKw => resume label g.forLoop
  | .openBrace => guarded (resume label g.blockBody)
  | _ =>
    resume label do
      reportExpected "loop or block"
      failDraft

end ConcreteSyntax.Grammar
