import ConcreteSyntax.Grammar.Generic
import ConcreteSyntax.Grammar.Path
import ConcreteSyntax.Grammar.Signature
import ConcreteSyntax.Grammar.TokenTree
import ConcreteSyntax.Node.Retag

/-! # Types

Types and the paths of types. The path of a type is read segment by segment; arguments may follow
each segment, and a path that turns out to name a macro is read again as the path of a value. -/

namespace ConcreteSyntax.Grammar

open Parse

/-! ### Paths -/

/-- A type, and the trait that it is looked at as, if one is named. -/
def typeAsTrait (g : Grammar) : Parse Node := do
  let type ← g.parse .type
  if ← isAt .asKw then
    node .qualifiedType do
      pushField .type type
      consume
      field .alias (g.parse .type)
  else return type

/-- `<T>` or `<T as Trait>`, before the `::` of a path. -/
def bracketedType (g : Grammar) : Parse Node :=
  node .bracketedType do
    ifAt .shl (split .lt)
    consume
    child g.typeAsTrait
    expect .gt

/-- What stands before the first segment of a path, if anything: a bracketed type or a `::`. -/
def pathScope (g : Grammar) : Parse (Option Draft) := do
  let current ← kind
  if current.startsAngle then return some (← scopeAfter (← g.bracketedType))
  else if current == .colonColon then return some (← globalScope)
  else return none

/-- Whether the name of a built-in type stands here. -/
def isAtPrimitive : Parse Bool := do
  if ← isAt .identifier then return Kind.isPrimitiveTypeName (← tokenText) else return false

/-- The last segment of a path, as the name of a type. -/
def typeName (scope : Option Draft) : Parse Node := do
  match scope with
  | some scope =>
    resume (scope.setKind .scopedTypeIdentifier) (field .name (segment .typeIdentifier))
  | none =>
    let isPrimitive ← isAtPrimitive
    let name ← segment .typeIdentifier
    return if isPrimitive then name.withKind .primitiveType else name

/-- The name of a type and its arguments. -/
def genericType (g : Grammar) (name : Node) : Parse Node :=
  node .genericType do
    pushField .type name
    consumeIf .colonColon
    field .typeArguments g.typeArguments

/-- The name of a trait of functions, their parameters and their result, as in `Fn(A) -> B`. -/
def functionTrait (g : Grammar) (name : Node) : Parse Node :=
  node .functionType do
    pushField .trait name
    field .parameters g.bareParameters
    g.returnTypeIf

/-- The rest of a path after what stands before its next segment. -/
def typePathTurn (g : Grammar) (scope : Option Draft) : Parse (Step (Option Draft) Node) := do
  let s ← get
  if s.kind.startsSegment && s.ahead 1 == .colonColon && !(s.ahead 2).startsAngle then
    return .again (← scopeAfter (← segmentIn scope .identifier))
  let name ← typeName scope
  let s ← get
  if s.kind.startsAngle || s.isAt .colonColon && s.nextIsAngle then
    let type ← g.genericType name
    let s ← get
    if s.isAt .colonColon && s.nextIsSegment then return .again (← scopeAfter type)
    else return .done type
  else if s.isAt .openParen &&
      (name.kind == .typeIdentifier || name.kind == .scopedTypeIdentifier) then
    return .done (← g.functionTrait name)
  else if s.isAtCall then return .done (← g.macroCall name.asPath)
  else return .done name

/-- A path to a type. -/
def typePath (g : Grammar) : Parse Node := do
  flush
  loop g.typePathTurn (← g.pathScope)

/-! ### Other types -/

/-- The form of a list of types between parentheses. -/
def tupleTypeList : ListForm where
  opener := .openParen
  closer := .closeParen
  ends := typeListEnds
  starts := Kind.startsType

/-- A tuple of types, or the unit type. -/
def tupleType (g : Grammar) : Parse Node :=
  node .tupleType do
    if (← ahead 1) == .closeParen then
      settle .unitTypeVsUnitPattern .unitType
      setKind .unitType
      consume
      consume
    else list tupleTypeList (child (g.parse .type))

/-- The type of an array or a slice. -/
def arrayType (g : Grammar) : Parse Node :=
  node .arrayType do
    consume
    field .element (g.parse .type)
    ifAt .semicolon do
      consume
      field .length (unrestricted (g.parse (.expression .closure)))
    expect .closeBracket

/-- The type of a reference; `&&T` is a reference to a reference. -/
def referenceType (g : Grammar) : Parse Node :=
  node .referenceType do
    if ← isAt .ampAmp then
      split .amp
      consume
      field .type (g.parse .innerReferenceType)
    else
      consume
      ifAt .quote (child lifetime)
      consumeIf .mutKw
      field .type (g.parse .type)

/-- Whether what a pointer points at may change. -/
def pointerModifier : Parse Unit := do
  if ← isAtAny [.constKw, .mutKw] then consume else reportExpected "'const' or 'mut'"

/-- The type of a pointer. -/
def pointerType (g : Grammar) : Parse Node :=
  node .pointerType do
    consume
    pointerModifier
    field .type (g.parse .type)

/-- Bounds joined with `+`, nested to the left. -/
def boundSum (g : Grammar) : Parse Node := do
  let first ← g.bound
  loop (fun (sum : Node) => do
    if ← isAt .plus then
      return .again (← node .boundedType do
        push sum
        consume
        child g.bound)
    else return .done sum) first

/-- `impl` or `dyn` and bounds. -/
def boundedType (g : Grammar) (kind : Kind) : Parse Node :=
  node kind do
    consume
    field .trait g.boundSum

/-- The type of a function, read into the open draft, which may hold a binder. -/
def functionTypeRest (g : Grammar) : Parse Unit := do
  provided (← isAtAny [.unsafeKw, .externKw]) (child functionModifiers)
  expect .fnKw
  field .parameters g.bareParameters
  g.returnTypeIf

/-- A binder and the type that it is for: the type of a function, or a trait. -/
def boundType (g : Grammar) : Parse Node := do
  let binder ← g.forBinder
  if ← isAtAny [.fnKw, .unsafeKw, .externKw] then
    node .functionType do
      push binder
      g.functionTypeRest
  else
    node .higherRankedTraitBound do
      pushField .typeParameters binder
      field .type (g.parse .type)

/-! ### Any type -/

/-- A type, by its first token. -/
def typeForm (g : Grammar) : Parse Node := do
  match ← kind with
  | .openParen => g.tupleType
  | .openBracket => g.arrayType
  | .amp | .ampAmp => g.referenceType
  | .star => g.pointerType
  | .bang => node .neverType consume
  | .underscore | .metavariable => leaf
  | .implKw => g.boundedType .abstractType
  | .dynKw => g.boundedType .dynamicType
  | .fnKw | .unsafeKw | .externKw => node .functionType g.functionTypeRest
  | .forKw => g.boundType
  | .identifier | .selfTypeKw | .selfKw | .superKw | .crateKw | .colonColon | .lt | .shl =>
    g.typePath
  | _ =>
    reportExpected "type"
    missing .typeIdentifier

/-- Any type. -/
def type (g : Grammar) : Parse Node := do
  flush
  guarded g.typeForm

end ConcreteSyntax.Grammar
