import ConcreteSyntax.Kind.Basic

/-! # Supertypes

A supertype is a grammar category whose members may stand for one another. No node is built for it:
a node keeps its own kind, and `Supertype.contains` says whether that kind belongs. -/

namespace ConcreteSyntax

/-- A category of the grammar. -/
inductive Supertype where
  | expression | type | pattern | literal | literalPattern | declarationStatement
  deriving DecidableEq, Inhabited

namespace Supertype

/-- Every category, in order. -/
def all : List Supertype :=
  [.expression, .type, .pattern, .literal, .literalPattern, .declarationStatement]

/-- The name of a category in the grammar. -/
def name : Supertype → String
  | .expression => "_expression"
  | .type => "_type"
  | .pattern => "_pattern"
  | .literal => "_literal"
  | .literalPattern => "_literal_pattern"
  | .declarationStatement => "_declaration_statement"

/-- The kinds that belong to a category. -/
def members : Supertype → List Kind
  | .expression => [
      .unaryExpression, .referenceExpression, .tryExpression, .binaryExpression,
      .assignmentExpression, .compoundAssignmentExpr, .typeCastExpression, .rangeExpression,
      .callExpression, .fieldExpression, .indexExpression, .awaitExpression, .genericFunction,
      .scopedIdentifier, .identifier, .selfKw, .metavariable, .parenthesizedExpression,
      .tupleExpression, .unitExpression, .arrayExpression, .structExpression, .ifExpression,
      .matchExpression, .whileExpression, .loopExpression, .forExpression, .closureExpression,
      .returnExpression, .breakExpression, .continueExpression, .yieldExpression, .block,
      .unsafeBlock, .asyncBlock, .constBlock, .macroInvocation, .stringLiteral, .rawStringLiteral,
      .charLiteral, .booleanLiteral, .integerLiteral, .floatLiteral ]
  | .type => [
      .typeIdentifier, .primitiveType, .scopedTypeIdentifier, .genericType, .referenceType,
      .pointerType, .tupleType, .unitType, .arrayType, .functionType, .neverType, .abstractType,
      .dynamicType, .boundedType, .qualifiedType, .macroInvocation, .metavariable, .underscore ]
  | .pattern => [
      .identifier, .scopedIdentifier, .underscore, .tuplePattern, .tupleStructPattern,
      .structPattern, .restPattern, .slicePattern, .refPattern, .mutPattern, .referencePattern,
      .capturedPattern, .orPattern, .rangePattern, .macroInvocation, .metavariable,
      .stringLiteral, .rawStringLiteral, .charLiteral, .booleanLiteral, .integerLiteral,
      .floatLiteral, .negativeLiteral ]
  | .literal => [
      .stringLiteral, .rawStringLiteral, .charLiteral, .booleanLiteral, .integerLiteral,
      .floatLiteral ]
  | .literalPattern => [
      .stringLiteral, .rawStringLiteral, .charLiteral, .booleanLiteral, .integerLiteral,
      .floatLiteral, .negativeLiteral ]
  | .declarationStatement => [
      .constItem, .macroInvocation, .macroDefinition, .emptyStatement, .attributeItem,
      .innerAttributeItem, .modItem, .foreignModItem, .structItem, .unionItem, .enumItem,
      .typeItem, .functionItem, .functionSignatureItem, .implItem, .traitItem, .associatedType,
      .letDeclaration, .useDeclaration, .externCrateDeclaration, .staticItem ]

/-- Whether a kind belongs to a category. -/
def contains (s : Supertype) (k : Kind) : Bool := s.members.contains k

/-- The categories that a kind belongs to. -/
def ofKind (k : Kind) : List Supertype := all.filter (·.contains k)

end Supertype

end ConcreteSyntax
