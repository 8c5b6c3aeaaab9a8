import ConcreteSyntax.Grammar.Expression.Infix
import ConcreteSyntax.Grammar.Signature

/-! # Closures -/

namespace ConcreteSyntax.Grammar

open Parse

/-- A parameter of a closure: a pattern, with a type if a colon follows. -/
def closureParameter (g : Grammar) : Parse Node := do
  flush
  let pattern ← g.parse .singlePattern
  if ← isAt .colon then
    settle .parameterListVsTuplePattern .parameter
    node .parameter do
      pushField .pattern pattern
      consume
      field .type (g.parse .type)
  else
    settle .parameterListVsTuplePattern .tuplePattern
    return pattern

/-- Reads one parameter and the mark after it, or the closing bar. Says whether more may follow. -/
def closureParameterTurn (g : Grammar) : Parse Bool := do
  flush
  let current ← kind
  if current == .pipe || !(current.startsPattern || current == .pound) then
    expect .pipe
    return false
  g.attributes
  child g.closureParameter
  match ← kind with
  | .comma =>
    consume
    return true
  | .pipe => return true
  | _ =>
    expect .pipe
    return false

/-- The parameters of a closure between bars; `||` is an empty list. -/
def closureParameters (g : Grammar) : Parse Node :=
  node .closureParameters do
    if ← isAt .pipePipe then
      split .pipe
      consume
      consume
    else
      expect .pipe
      repeatWhile g.closureParameterTurn

/-- The result of a closure. With a type before it, it is a block. -/
def closureBody (g : Grammar) : Parse Unit := do
  if ← isAt .arrow then
    g.returnTypeIf
    field .body (g.parse .block)
  else field .body g.expression

/-- A closure. -/
def closure (g : Grammar) : Parse Node :=
  node .closureExpression do
    consumeIf .asyncKw
    consumeIf .moveKw
    flush
    field .parameters g.closureParameters
    g.closureBody

end ConcreteSyntax.Grammar
