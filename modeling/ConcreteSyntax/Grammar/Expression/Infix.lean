import ConcreteSyntax.Grammar.Expression.Postfix

/-! # Infix operators

Precedence climbing over the table of `OperatorClass.entry`: an operator is taken as long as it
binds at least as tightly as the place asks, and its right operand is asked to bind more tightly, or
as tightly if the operator associates to the right. -/

namespace ConcreteSyntax

open Parse

/-- How tightly the right operand of an operator has to bind. -/
def OperatorClass.rightPrecedence (c : OperatorClass) : Precedence :=
  match c.associativity with
  | .left => c.precedence.next
  | .right | .none => c.precedence

namespace Parse

/-- The kind of the current token, a `>` joined with what touches it. -/
def operatorKind : Parse Kind := do
  modify fun s => { s with scanner := s.scanner.joinGreater }
  kind

end Parse

namespace Grammar

/-- A type after `as`. -/
def cast (g : Grammar) (value : Node) : Parse Node :=
  node .typeCastExpression do
    pushField .value value
    consume
    field .type (g.parse .type)

/-- A range after its left end; the right end may be left out. -/
def rangeAfter (g : Grammar) (left : Node) : Parse Node :=
  node .rangeExpression do
    push left
    consume
    if ← isAtExpression then child (g.parse (.expression OperatorClass.range.precedence.next))

/-- Takes the mark of an infix operator. The mark of an assignment has no label. -/
def infixMark (operator : OperatorClass) : Parse Unit :=
  if operator.nodeKind == .assignmentExpression then consume else consumeField .operator

/-- An operator and its right operand. -/
def binary (g : Grammar) (operator : OperatorClass) (left : Node) : Parse Node :=
  node operator.nodeKind do
    pushField .left left
    infixMark operator
    field .right (g.parse (.expression operator.rightPrecedence))

/-- One more infix operator, if one follows that binds tightly enough. -/
def infixTurn (g : Grammar) (min : Precedence) (left : Node) : Parse (Step Node Node) := do
  match OperatorClass.ofInfix? (← operatorKind) with
  | none => return .done left
  | some operator =>
    if operator.precedence.rank < min.rank then return .done left
    match operator with
    | .cast => return .again (← g.cast left)
    | .range =>
      if left.kind == .rangeExpression then return .done left
      else return .again (← g.rangeAfter left)
    | operator => return .again (← g.binary operator left)

/-- Every infix operator after an operand that binds at least as tightly as `min`. -/
def infixForms (g : Grammar) (min : Precedence) (operand : Node) : Parse Node :=
  loop (g.infixTurn min) operand

/-! ### In a statement -/

/-- The expression of a statement or an arm, and whether it ends there without a mark. One that
begins with a block does, unless a method or `?` follows the block. -/
def statementExpression (g : Grammar) : Parse (Node × Bool) := do
  flush
  if (← get).isAtBlockLike then
    let head ← g.parse .blockLike
    if ← isAtAny [.dot, .question] then
      return (← g.infixForms .closure (← g.postfixForms head), false)
    else return (head, true)
  else return (← g.expression, false)

end Grammar

end ConcreteSyntax
