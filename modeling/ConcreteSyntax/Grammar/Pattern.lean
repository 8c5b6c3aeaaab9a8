import ConcreteSyntax.Grammar.ValuePath

/-! # Patterns

A pattern is a choice of single patterns joined with `|`. A single pattern may name what it matches,
as in `x @ 1..=9`. -/

namespace ConcreteSyntax.Grammar

open Parse

/-! ### Literals and ranges -/

/-- A literal, which may be negative. -/
def literalPattern : Parse Node := do
  if ← isAt .minus then negativeLiteral else literal

/-- One end of a range. -/
def rangeBound (g : Grammar) : Parse Node := do
  flush
  match ← kind with
  | .minus | .integerToken | .floatToken | .charToken | .stringToken | .rawStringToken =>
    literalPattern
  | .identifier | .selfTypeKw | .selfKw | .superKw | .crateKw | .colonColon => g.valuePath
  | _ =>
    reportExpected "range bound"
    missing .integerLiteral

/-- A range without a left end. -/
def rangeTo (g : Grammar) : Parse Node :=
  node .rangePattern do
    consume
    field .right g.rangeBound

/-- A range whose left end was read, or that end alone. -/
def rangeFrom (g : Grammar) (left : Node) : Parse Node := do
  let current ← kind
  if current == .dotDot || current == .dotDotEq || current == .dotDotDot then
    node .rangePattern do
      pushField .left left
      consume
      if current != .dotDot || (← kind).startsRangeBound then field .right g.rangeBound
  else return left

/-! ### Lists -/

/-- The form of a list of patterns. -/
def patternList (opener closer : Kind) : ListForm where
  opener := opener
  closer := closer
  ends := [.semicolon, .closeBrace, .fatArrow, .eq]
  starts := Kind.startsPattern

/-- Patterns between delimiters, read into the open draft. -/
def patterns (g : Grammar) (opener closer : Kind) : Parse Unit :=
  list (patternList opener closer) (child (g.parse .pattern))

/-- A tuple of patterns. -/
def tuplePattern (g : Grammar) : Parse Node :=
  node .tuplePattern do
    provided ((← ahead 1) == .closeParen) (settle .unitTypeVsUnitPattern .tuplePattern)
    g.patterns .openParen .closeParen

/-- The fields of a pattern for a structure: one of them, or `..` for the rest. -/
def fieldPattern (g : Grammar) : Parse Node := do
  flush
  if ← isAt .dotDot then node .remainingFieldPattern consume
  else
    node .fieldPattern do
      consumeIf .refKw
      consumeIf .mutKw
      let s ← get
      if s.ahead 1 == .colon && s.isAtAny [.identifier, .integerToken] then
        memberName .name
        consume
        field .pattern (g.parse .pattern)
      else expectName .name .shorthandFieldIdentifier

/-- The form of the fields of a pattern. -/
def fieldPatternList : ListForm where
  opener := .openBrace
  closer := .closeBrace
  ends := [.semicolon]
  starts
    | .identifier | .integerToken | .refKw | .mutKw | .dotDot | .pound => true
    | _ => false

/-- A pattern for a structure whose path was read. -/
def structPattern (g : Grammar) (path : Node) : Parse Node :=
  node .structPattern do
    pushField .type path.asType
    list fieldPatternList do
      g.attributes
      child g.fieldPattern

/-! ### Paths and references -/

/-- A pattern that begins with a path. -/
def pathPattern (g : Grammar) : Parse Node := do
  let path ← g.valuePath
  let s ← get
  if s.isAt .openParen then
    node .tupleStructPattern do
      pushField .type path
      g.patterns .openParen .closeParen
  else if s.isAt .openBrace then g.structPattern path
  else if s.isAtCall then g.macroCall path
  else g.rangeFrom path

/-- A pattern for a reference; `&&p` is one for a reference to a reference. -/
def referencePattern (g : Grammar) : Parse Node :=
  node .referencePattern do
    if ← isAt .ampAmp then
      split .amp
      consume
      child (g.parse .innerReferencePattern)
    else
      consume
      consumeIf .mutKw
      child (g.parse .singlePattern)

/-- A word and the pattern that it modifies. -/
def modifiedPattern (g : Grammar) (kind : Kind) : Parse Node :=
  node kind do
    consume
    child (g.parse .singlePattern)

/-! ### Any pattern -/

/-- A single pattern, by its first tokens. -/
def patternForm (g : Grammar) : Parse Node := do
  let s ← get
  match s.kind with
  | .underscore => leaf
  | .dotDot => if (s.ahead 1).startsRangeBound then g.rangeTo else node .restPattern consume
  | .dotDotEq => g.rangeTo
  | .openParen => g.tuplePattern
  | .openBracket => node .slicePattern (g.patterns .openBracket .closeBracket)
  | .amp | .ampAmp => g.referencePattern
  | .refKw => g.modifiedPattern .refPattern
  | .mutKw => g.modifiedPattern .mutPattern
  | .minus | .integerToken | .floatToken | .stringToken | .rawStringToken | .charToken | .trueKw
  | .falseKw => do g.rangeFrom (← literalPattern)
  | .metavariable =>
    if s.ahead 1 == .colonColon || s.ahead 1 == .bang then g.pathPattern else leaf
  | .identifier | .selfTypeKw | .selfKw | .superKw | .crateKw | .colonColon | .lt | .shl =>
    g.pathPattern
  | _ =>
    reportExpected "pattern"
    missing .identifier

/-- A pattern without alternatives at its top. -/
def singlePattern (g : Grammar) : Parse Node := do
  flush
  let pattern ← guarded g.patternForm
  if ← isAt .atSign then
    node .capturedPattern do
      push pattern
      consume
      child (g.parse .singlePattern)
  else return pattern

/-- The first alternative, which a `|` may stand before. -/
def firstAlternative (g : Grammar) : Parse Node := do
  if ← isAt .pipe then
    node .orPattern do
      consume
      child (g.parse .singlePattern)
  else g.parse .singlePattern

/-- One more alternative after a `|`. -/
def alternativeTurn (g : Grammar) (pattern : Node) : Parse (Step Node Node) := do
  if ← isAt .pipe then
    return .again (← node .orPattern do
      push pattern
      consume
      child (g.parse .singlePattern))
  else return .done pattern

/-- Alternatives, nested to the left. -/
def alternatives (g : Grammar) : Parse Node := do loop g.alternativeTurn (← g.firstAlternative)

/-- Any pattern. -/
def pattern (g : Grammar) : Parse Node := do
  flush
  guarded g.alternatives

end ConcreteSyntax.Grammar
