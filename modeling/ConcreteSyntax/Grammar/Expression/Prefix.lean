import ConcreteSyntax.Grammar.Expression.Closure
import ConcreteSyntax.Grammar.Expression.Primary

/-! # Prefix forms

Operators, jumps and closures before their operand, and every expression from its first token on. -/

namespace ConcreteSyntax.Grammar

open Parse

/-- An operator before its operand. -/
def unary (g : Grammar) : Parse Node :=
  node .unaryExpression do
    consume
    child (g.parse .operand)

/-- What kind of reference is taken: to something that may change, or a raw one. -/
def referenceModifier : Parse Unit := do
  let next ← ahead 1
  if (← isAtWord "raw") && (next == .constKw || next == .mutKw) then
    consumeAs .rawKw
    consume
  else consumeIf .mutKw

/-- A reference; `&&x` is a reference to a reference. -/
def reference (g : Grammar) : Parse Node :=
  node .referenceExpression do
    if ← isAt .ampAmp then
      split .amp
      consume
      field .value (g.parse .innerReference)
    else
      consume
      referenceModifier
      field .value (g.parse .operand)

/-- A range without a left end. -/
def rangeBefore (g : Grammar) : Parse Node :=
  node .rangeExpression do
    consume
    if ← isAtExpression then child (g.parse (.expression OperatorClass.range.precedence.next))

/-- The value of a jump, if one follows. -/
def jumpValue (g : Grammar) : Parse Unit := do
  if ← isAtExpression then child g.expression

/-- A `return` or a `yield`. -/
def resultJump (g : Grammar) (kind : Kind) : Parse Node :=
  node kind do
    consume
    g.jumpValue

/-- The label of a loop, if one follows. -/
def labelIf : Parse Unit := ifAt .quote (child (quotedName .label))

/-- A `break`. -/
def breakExpression (g : Grammar) : Parse Node :=
  node .breakExpression do
    consume
    labelIf
    g.jumpValue

/-- A `continue`. -/
def continueExpression : Parse Node :=
  node .continueExpression do
    consume
    labelIf

/-- A primary expression with what follows it. -/
def postfixed (g : Grammar) : Parse Node := do g.postfixForms (← g.primary)

/-- An expression before any infix operator, by its first tokens. -/
def prefixed (g : Grammar) : Parse Node := do
  let s ← get
  match s.kind with
  | .minus | .bang | .star => g.unary
  | .amp | .ampAmp => g.reference
  | .dotDot | .dotDotEq => g.rangeBefore
  | .pipe | .pipePipe | .moveKw => g.closure
  | .asyncKw => if s.isAtAsyncClosure then g.closure else g.postfixed
  | .returnKw => g.resultJump .returnExpression
  | .yieldKw => g.resultJump .yieldExpression
  | .breakKw => g.breakExpression
  | .continueKw => continueExpression
  | _ => g.postfixed

/-- An expression whose operators bind at least as tightly as `min`. -/
def expressionFrom (g : Grammar) (min : Precedence) : Parse Node := do
  flush
  guarded do g.infixForms min (← g.prefixed)

/-- The operand of a prefix operator. -/
def operand (g : Grammar) : Parse Node := do
  flush
  guarded g.prefixed

end ConcreteSyntax.Grammar
