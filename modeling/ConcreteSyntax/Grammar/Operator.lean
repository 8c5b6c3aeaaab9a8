import ConcreteSyntax.Kind.Class

/-! # Operators

One table, `OperatorClass.entry`, says for every class of operators how tightly it binds and to
which side it associates. The grammar of expressions only asks the table. -/

namespace ConcreteSyntax

/-- How tightly an operator binds, loosest first. -/
inductive Precedence where
  | closure | assignment | range | logicalOr | logicalAnd | comparison | bitwiseOr | bitwiseXor
  | bitwiseAnd | shift | additive | multiplicative | cast | unary | question | field | call
  deriving DecidableEq, Inhabited

/-- The side to which operators of one class associate; `a..b..c` is not an expression. -/
inductive Associativity where
  | left | right | none
  deriving DecidableEq, Inhabited

/-- Classes of operators that bind alike. -/
inductive OperatorClass where
  | call | index | methodCall | field | question | unary | reference | cast | multiplicative
  | additive | shift | bitwiseAnd | bitwiseXor | bitwiseOr | comparison | logicalAnd | logicalOr
  | range | assignment | compoundAssignment | closure
  deriving DecidableEq, Inhabited

/-! ### The table -/

namespace Precedence

/-- The place of a level, counted from the loosest. -/
def rank (p : Precedence) : Nat := p.ctorIdx

end Precedence

namespace OperatorClass

/-- Every class, in order. -/
def all : List OperatorClass :=
  [.call, .index, .methodCall, .field, .question, .unary, .reference, .cast, .multiplicative,
    .additive, .shift, .bitwiseAnd, .bitwiseXor, .bitwiseOr, .comparison, .logicalAnd, .logicalOr,
    .range, .assignment, .compoundAssignment, .closure]

/-- The row of a class in the table: its level and its side. -/
def entry : OperatorClass → Precedence × Associativity
  | .call => (.call, .left)
  | .index => (.call, .left)
  | .methodCall => (.call, .left)
  | .field => (.field, .left)
  | .question => (.question, .left)
  | .unary => (.unary, .right)
  | .reference => (.unary, .right)
  | .cast => (.cast, .left)
  | .multiplicative => (.multiplicative, .left)
  | .additive => (.additive, .left)
  | .shift => (.shift, .left)
  | .bitwiseAnd => (.bitwiseAnd, .left)
  | .bitwiseXor => (.bitwiseXor, .left)
  | .bitwiseOr => (.bitwiseOr, .left)
  | .comparison => (.comparison, .left)
  | .logicalAnd => (.logicalAnd, .left)
  | .logicalOr => (.logicalOr, .left)
  | .range => (.range, .none)
  | .assignment => (.assignment, .right)
  | .compoundAssignment => (.assignment, .right)
  | .closure => (.closure, .right)

/-- How tightly a class binds. -/
def precedence (c : OperatorClass) : Precedence := c.entry.1

/-- The side to which a class associates. -/
def associativity (c : OperatorClass) : Associativity := c.entry.2

/-- The kind of node that an infix operator of a class makes. -/
def nodeKind : OperatorClass → Kind
  | .cast => .typeCastExpression
  | .range => .rangeExpression
  | .assignment => .assignmentExpression
  | .compoundAssignment => .compoundAssignmentExpr
  | _ => .binaryExpression

end OperatorClass

namespace Precedence

/-- The looser of two levels. -/
def looser (p q : Precedence) : Precedence := if p.rank ≤ q.rank then p else q

/-- The level just above, which the right operand of a left-associative operator must have; the
tightest level has none above it. -/
def next (p : Precedence) : Precedence :=
  ((OperatorClass.all.map (·.precedence)).filter (p.rank < ·.rank)).foldl looser .call

end Precedence

/-! ### Operators by token -/

namespace OperatorClass

/-- The class of an infix operator. A `>` has to be joined first with what touches it. -/
def ofInfix? (k : Kind) : Option OperatorClass :=
  match k with
  | .star | .slash | .percent => some .multiplicative
  | .plus | .minus => some .additive
  | .shl | .shr => some .shift
  | .amp => some .bitwiseAnd
  | .caret => some .bitwiseXor
  | .pipe => some .bitwiseOr
  | .eqEq | .bangEq | .lt | .ltEq | .gt | .gtEq => some .comparison
  | .ampAmp => some .logicalAnd
  | .pipePipe => some .logicalOr
  | .dotDot | .dotDotEq => some .range
  | .eq => some .assignment
  | .asKw => some .cast
  | _ => if k.isCompoundAssignment then some .compoundAssignment else none

/-- The class of a token that may follow an operand. -/
def ofPostfix? : Kind → Option OperatorClass
  | .openParen => some .call
  | .openBracket => some .index
  | .dot => some .field
  | .question => some .question
  | _ => none

end OperatorClass

end ConcreteSyntax
