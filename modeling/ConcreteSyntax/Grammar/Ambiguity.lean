import ConcreteSyntax.Kind.Basic
import ConcreteSyntax.Kind.Name

/-! # Ambiguities

The places where the grammar has more than one reading, the kinds that compete there, and how each
is settled. Nothing outside this list is ever read twice. While a text is read, the grammar remarks on
its choices: how an ambiguity was settled, where it recovered from an error, where it stopped nesting.
Remarks change nothing; they explain a tree. -/

namespace ConcreteSyntax

/-- How an ambiguity is settled: the first reading without a diagnostic, the production around it,
a bounded number of tokens ahead, or a restriction of the place that forbids one reading. -/
inductive Resolution where
  | preferInOrder
  | byPosition
  | lookahead (tokens : Nat)
  | restriction
  deriving DecidableEq, Inhabited

namespace Resolution

/-- A resolution as logs and listings spell it. -/
def label : Resolution → String
  | .preferInOrder => "PreferInOrder"
  | .byPosition => "ByPosition"
  | .lookahead tokens => s!"Lookahead({tokens})"
  | .restriction => "Restriction"

end Resolution

/-- A place with more than one reading: a parameter with or without a pattern, `()` as a type or a
pattern, a path to a value or a type, the parameter of a closure with or without a type, `for<'a>`
or generic parameters, `[x; n]` or `[x, y]`, `pub(crate)` or `pub` before a tuple type, `x {}` as a
literal or a block, and `<` as an operator or an opening of type arguments. -/
inductive Ambiguity where
  | typeVsPattern | unitTypeVsUnitPattern | scopedValueVsScopedType | parameterListVsTuplePattern
  | genericParamsVsForLifetimes | arrayExpression | visibilityModifier | structLiteralVsBlock
  | genericArgsVsLessThan
  deriving DecidableEq, Inhabited

namespace Ambiguity

/-- Every ambiguity, in order. -/
def all : List Ambiguity :=
  [.typeVsPattern, .unitTypeVsUnitPattern, .scopedValueVsScopedType, .parameterListVsTuplePattern,
    .genericParamsVsForLifetimes, .arrayExpression, .visibilityModifier, .structLiteralVsBlock,
    .genericArgsVsLessThan]

/-- An ambiguity as logs and listings spell it. -/
def label : Ambiguity → String
  | .typeVsPattern => "TypeVsPattern"
  | .unitTypeVsUnitPattern => "UnitTypeVsUnitPattern"
  | .scopedValueVsScopedType => "ScopedValueVsScopedType"
  | .parameterListVsTuplePattern => "ParameterListVsTuplePattern"
  | .genericParamsVsForLifetimes => "GenericParamsVsForLifetimes"
  | .arrayExpression => "ArrayExpression"
  | .visibilityModifier => "VisibilityModifier"
  | .structLiteralVsBlock => "StructLiteralVsBlock"
  | .genericArgsVsLessThan => "GenericArgsVsLessThan"

/-- The kinds that compete, preferred ones first. -/
def candidates : Ambiguity → List Kind
  | .typeVsPattern => [.parameter, .parameter]
  | .unitTypeVsUnitPattern => [.unitType, .tuplePattern]
  | .scopedValueVsScopedType => [.scopedIdentifier, .scopedTypeIdentifier]
  | .parameterListVsTuplePattern => [.parameter, .tuplePattern]
  | .genericParamsVsForLifetimes => [.forLifetimes, .typeParameters]
  | .arrayExpression => [.arrayExpression, .arrayExpression]
  | .visibilityModifier => [.visibilityModifier, .tupleType]
  | .structLiteralVsBlock => [.block, .structExpression]
  | .genericArgsVsLessThan => [.binaryExpression, .genericFunction]

/-- How an ambiguity is settled. -/
def resolution : Ambiguity → Resolution
  | .typeVsPattern => .preferInOrder
  | .unitTypeVsUnitPattern => .byPosition
  | .scopedValueVsScopedType => .byPosition
  | .parameterListVsTuplePattern => .lookahead 1
  | .genericParamsVsForLifetimes => .lookahead 1
  | .arrayExpression => .lookahead 1
  | .visibilityModifier => .lookahead 2
  | .structLiteralVsBlock => .restriction
  | .genericArgsVsLessThan => .byPosition

end Ambiguity

/-! ### Remarks -/

/-- A choice of the grammar, and the offset at which it was made. -/
inductive Remark where
  | preferred (ambiguity : Ambiguity) (offset : Nat)
  | fellBack (ambiguity : Ambiguity) (offset : Nat)
  | settled (ambiguity : Ambiguity) (offset : Nat) (chosen : Kind)
  | nestingLimit (offset : Nat)
  | absorbedBrace (offset : Nat)
  | recovery (terminator : Kind) (offset : Nat)
  | unclosedList (opener : Kind) (offset : Nat)
  | listRecovery (offset : Nat)
  deriving DecidableEq

namespace Remark

/-- A remark in one line. -/
def text : Remark → String
  | .preferred ambiguity offset => s!"{ambiguity.label} at {offset}: first candidate"
  | .fellBack ambiguity offset => s!"{ambiguity.label} at {offset}: falling back"
  | .settled ambiguity offset chosen =>
    s!"{ambiguity.label} at {offset} resolved as {chosen.name} ({ambiguity.resolution.label})"
  | .nestingLimit offset => s!"nesting limit reached at {offset}"
  | .absorbedBrace offset => s!"absorbing recovered '\x7d' at {offset}"
  | .recovery terminator offset => s!"recovery to {terminator.tag} at {offset}"
  | .unclosedList opener offset => s!"unclosed {opener.tag} list at {offset}"
  | .listRecovery offset => s!"list recovery at {offset}"

end Remark

end ConcreteSyntax
