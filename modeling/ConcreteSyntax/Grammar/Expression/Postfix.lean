import ConcreteSyntax.Grammar.Generic
import ConcreteSyntax.Grammar.Recovery

/-! # Postfix forms

Calls, indices, fields, `?` and `.await`, each around what stands before it. -/

namespace ConcreteSyntax.Grammar

open Parse

/-- An expression with any operators. -/
def expression (g : Grammar) : Parse Node := g.parse (.expression .closure)

/-! ### Arguments -/

/-- The form of a list of arguments. -/
def argumentList : ListForm where
  opener := .openParen
  closer := .closeParen
  ends := [.semicolon, .closeBrace]
  starts k := k.startsExpression {} || k == .pound

/-- One argument, with its attributes. -/
def argument (g : Grammar) : Parse Unit := do
  g.attributes
  child g.expression

/-- The arguments of a call. -/
def arguments (g : Grammar) : Parse Node := do
  flush
  node .arguments (unrestricted (list argumentList g.argument))

/-! ### The forms -/

/-- A call of what was read. -/
def call (g : Grammar) (function : Node) : Parse Node :=
  node .callExpression do
    pushField .function function
    field .arguments g.arguments

/-- An index into what was read. -/
def index (g : Grammar) (indexed : Node) : Parse Node :=
  node .indexExpression do
    push indexed
    let openRange ← tokenRange
    consume
    child (unrestricted g.expression)
    close .openBracket openRange

/-- A `?` after what was read. -/
def question (body : Node) : Parse Node :=
  node .tryExpression do
    push body
    consume

/-- The name or the number of a field, after a dot. -/
def fieldName : Parse Unit := do
  match ← kind with
  | .identifier => consumeFieldAs .field .fieldIdentifier
  | .metavariable => consumeField .field
  | .integerToken => field .field tupleIndex
  | _ =>
    reportExpected "field name"
    pushMissingField .field .fieldIdentifier

/-- A dot after what was read: `.await`, a field, or the place of one in a tuple. -/
def dotted (value : Node) : Parse Node := do
  if (← ahead 1) == .awaitKw then
    node .awaitExpression do
      push value
      consume
      consume
  else
    node .fieldExpression do
      pushField .value value
      consumeWith none none .tupleIndex
      fieldName

/-- The arguments of a method, as in `x.collect::<Vec<_>>()`. -/
def methodArguments (g : Grammar) (method : Node) : Parse Node :=
  node .genericFunction do
    pushField .function method
    consume
    field .typeArguments g.typeArguments

/-- One more postfix form, if one follows. -/
def postfixTurn (g : Grammar) (operand : Node) : Parse (Step Node Node) := do
  let s ← get
  match s.kind with
  | .openParen => return .again (← g.call operand)
  | .openBracket => return .again (← g.index operand)
  | .question => return .again (← question operand)
  | .dot => return .again (← dotted operand)
  | .colonColon =>
    if operand.kind == .fieldExpression && s.nextIsAngle then
      return .again (← g.methodArguments operand)
    else return .done operand
  | _ => return .done operand

/-- Every postfix form that follows what was read. -/
def postfixForms (g : Grammar) (operand : Node) : Parse Node := loop g.postfixTurn operand

end ConcreteSyntax.Grammar
