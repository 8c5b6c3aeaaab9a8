import ConcreteSyntax.Grammar.Expression.Control
import ConcreteSyntax.Grammar.ValuePath

/-! # Primary expressions

Literals, paths and what they open, delimited expressions, blocks and control flow: the expressions
that need no operator. -/

namespace ConcreteSyntax.Grammar

open Parse

/-! ### Structures -/

/-- The value of one field, the fields taken from another value, or a name that is both. -/
def fieldInitializer (g : Grammar) : Parse Node := do
  flush
  let s ← get
  if s.isAt .dotDot then
    node .baseFieldInitializer do
      consume
      child g.expression
  else if s.isAtAny [.identifier, .integerToken] && s.ahead 1 == .colon then
    node .fieldInitializer do
      memberName .field
      consume
      field .value g.expression
  else
    node .shorthandFieldInitializer do
      if s.isAt .metavariable then consume else expectName .name .identifier

/-- The form of the fields of a literal. -/
def fieldInitializerList : ListForm where
  opener := .openBrace
  closer := .closeBrace
  ends := [.semicolon]
  starts
    | .identifier | .integerToken | .dotDot | .pound | .metavariable => true
    | _ => false

/-- The fields of a literal whose path was read. -/
def structExpression (g : Grammar) (path : Node) : Parse Node :=
  node .structExpression do
    pushField .name path.asType
    field .body <| node .fieldInitializerList <| unrestricted <| list fieldInitializerList do
      g.attributes
      child g.fieldInitializer

/-- A path alone, the call of a macro, or a literal with fields. -/
def pathExpression (g : Grammar) : Parse Node := do
  let path ← g.valuePath
  let isName := path.kind == .identifier || path.kind == .scopedIdentifier
  let s ← get
  if isName && s.isAtCall then g.macroCall path
  else if s.isAt .openBrace && (isName || path.kind == .genericFunction) then
    if (← restriction).noStructLiteral then
      settle .structLiteralVsBlock .block
      return path
    else
      settle .structLiteralVsBlock .structExpression
      g.structExpression path
  else return path

/-! ### Between parentheses and brackets -/

/-- More elements after a comma each, read into the open draft. -/
def furtherElements (g : Grammar) : Parse Unit :=
  repeatWhile do
    if ← isAt .comma then
      consume
      flush
      if ← isAtExpression then
        child g.expression
        return true
      else return false
    else return false

/-- The unit value, an expression in parentheses, or a tuple. -/
def parenthesized (g : Grammar) : Parse Node :=
  node .parenthesizedExpression do
    if (← ahead 1) == .closeParen then
      setKind .unitExpression
      consume
      consume
    else
      let openRange ← tokenRange
      consume
      unrestricted do
        child g.expression
        ifAt .comma (setKind .tupleExpression)
        g.furtherElements
      close .openParen openRange

/-- What stands between the brackets of an array: elements, or one and how often it is repeated. -/
def arrayElements (g : Grammar) : Parse Unit := do
  flush
  if ← isAtExpression then
    child g.expression
    if ← isAt .semicolon then
      settle .arrayExpression .arrayExpression
      consume
      field .length g.expression
    else g.furtherElements

/-- An array. -/
def arrayExpression (g : Grammar) : Parse Node :=
  node .arrayExpression do
    let openRange ← tokenRange
    consume
    unrestricted g.arrayElements
    close .openBracket openRange

/-! ### Blocks with a word before them -/

/-- A block that may be asynchronous. -/
def asyncBlock (g : Grammar) : Parse Node :=
  node .asyncBlock do
    consume
    consumeIf .moveKw
    child (g.parse .block)

/-- A block in which unsafe operations are allowed. -/
def unsafeBlock (g : Grammar) : Parse Node :=
  node .unsafeBlock do
    consume
    child (g.parse .block)

/-- A block that is evaluated at compile time. -/
def constBlock (g : Grammar) : Parse Node :=
  node .constBlock do
    consume
    field .body (g.parse .block)

/-! ### Any primary expression -/

/-- Reports that there is no expression. A token that nothing around could use is skipped. -/
def noExpression : Parse Node := do
  reportExpected "expression"
  let current ← kind
  if current == .endOfFile || current.isClose || current == .semicolon || current == .comma ||
      current == .fatArrow then missing .identifier
  else skipGroup

/-- A primary expression, by its first tokens. -/
def primary (g : Grammar) : Parse Node := do
  let s ← get
  match s.kind with
  | .integerToken | .floatToken | .stringToken | .rawStringToken | .charToken | .trueKw
  | .falseKw => literal
  | .errorSentinel => leaf
  | .identifier | .selfTypeKw | .selfKw | .superKw | .crateKw | .colonColon | .lt | .shl
  | .metavariable => g.pathExpression
  | .openParen => g.parenthesized
  | .openBracket => g.arrayExpression
  | .openBrace => g.parse .block
  | .quote => g.labeled
  | .unsafeKw => if s.ahead 1 == .openBrace then g.unsafeBlock else noExpression
  | .asyncKw => g.asyncBlock
  | .constKw => if s.ahead 1 == .openBrace then g.constBlock else noExpression
  | .ifKw => g.ifExpression
  | .matchKw => g.matchExpression
  | .whileKw => node .whileExpression g.whileLoop
  | .loopKw => node .loopExpression g.endlessLoop
  | .forKw => node .forExpression g.forLoop
  | .letKw => if (← restriction).allowLet then g.letCondition else noExpression
  | _ => noExpression

end ConcreteSyntax.Grammar
