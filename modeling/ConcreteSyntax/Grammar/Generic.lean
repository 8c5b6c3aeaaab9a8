import ConcreteSyntax.Grammar.Attribute
import ConcreteSyntax.Grammar.Literal

/-! # Generics

Arguments and parameters between `<` and `>`, bounds, and `where` clauses. -/

namespace ConcreteSyntax.Grammar

open Parse

/-- The tokens at which a list of types or parameters ends if it is never closed. -/
def typeListEnds : List Kind := [.semicolon, .closeBrace, .closeParen, .closeBracket]

/-- The form of a list between `<` and `>`. -/
def angleList (starts : Kind → Bool) : ListForm where
  opener := .lt
  closer := .gt
  ends := typeListEnds
  starts := starts

/-! ### Arguments -/

/-- A type as an argument; a path may name a constant as well. -/
def typeAsArgument (g : Grammar) : Parse Node := do
  let type ← g.parse .type
  if type.kind == .scopedTypeIdentifier then
    settle .scopedValueVsScopedType .scopedTypeIdentifier
    return type.withFlags { ambiguous := true }
  else return type

/-- A name bound to a type, as in `Iterator<Item = T>`. -/
def typeBinding (g : Grammar) : Parse Node :=
  node .typeBinding do
    consumeFieldAs .name .typeIdentifier
    consume
    field .type (g.parse .type)

/-- An argument of a type. -/
def typeArgument (g : Grammar) : Parse Node := do
  flush
  let s ← get
  match s.kind with
  | .quote => lifetime
  | .openBrace => g.parse .block
  | .minus => negativeLiteral
  | .identifier => if s.ahead 1 == .eq then g.typeBinding else g.typeAsArgument
  | current => if current.startsLiteral then literal else g.typeAsArgument

/-- Arguments between `<` and `>`. -/
def typeArguments (g : Grammar) : Parse Node := do
  flush
  node .typeArguments do
    ifAt .shl (split .lt)
    unrestricted (list (angleList Kind.startsTypeArgument) (child g.typeArgument))

/-! ### Bounds -/

/-- One bound: a lifetime, a trait, or a trait that is not required. -/
def bound (g : Grammar) : Parse Node := do
  flush
  match ← kind with
  | .quote => lifetime
  | .question =>
    node .removedTraitBound do
      consume
      child (g.parse .type)
  | _ => g.parse .type

/-- A colon and bounds, joined with `+`. -/
def traitBounds (g : Grammar) : Parse Node := do
  flush
  node .traitBounds do
    expect .colon
    repeatWhile do
      if (← kind).startsBound then
        child g.bound
        accept .plus
      else return false

/-- The bounds, if a colon announces some. -/
def traitBoundsIf (g : Grammar) : Parse Unit := ifAt .colon (field .bounds g.traitBounds)

/-! ### Parameters -/

/-- A parameter that stands for a lifetime. -/
def lifetimeParameter (g : Grammar) : Parse Node :=
  node .lifetimeParameter do
    field .name lifetime
    g.traitBoundsIf

/-- A parameter that stands for a constant. -/
def constParameter (g : Grammar) : Parse Node :=
  node .constParameter do
    consume
    expectName .name .identifier
    expect .colon
    field .type (g.parse .type)
    ifAt .eq do
      consume
      field .value g.typeArgument

/-- A parameter that stands for a type. -/
def typeParameter (g : Grammar) : Parse Node :=
  node .typeParameter do
    expectName .name .typeIdentifier
    g.traitBoundsIf
    ifAt .eq do
      consume
      field .defaultType (g.parse .type)

/-- Any generic parameter. -/
def genericParameter (g : Grammar) : Parse Node := do
  flush
  match ← kind with
  | .quote => g.lifetimeParameter
  | .constKw => g.constParameter
  | _ => g.typeParameter

/-- Generic parameters between `<` and `>`, read into the open draft. -/
def genericList (g : Grammar) : Parse Unit :=
  list
    (angleList fun
      | .quote | .constKw | .identifier | .metavariable | .pound => true
      | _ => false)
    (do
      g.attributes
      child g.genericParameter)

/-- The generic parameters of an item. -/
def typeParameters (g : Grammar) : Parse Node := do
  flush
  node .typeParameters g.genericList

/-- The generic parameters, if some are declared. -/
def typeParametersIf (g : Grammar) : Parse Unit :=
  ifAt .lt (field .typeParameters g.typeParameters)

/-- The parameters after `for`: lifetimes, or any generic parameters. The token after `<`
decides. -/
def forBinder (g : Grammar) : Parse Node :=
  node .forLifetimes do
    let s ← get
    if s.ahead 1 == .lt && s.ahead 2 == .quote then
      settle .genericParamsVsForLifetimes .forLifetimes
      consume
      list (angleList (· == .quote)) (child lifetime)
    else
      settle .genericParamsVsForLifetimes .typeParameters
      setKind .typeParameters
      consume
      g.genericList

/-! ### Where clauses -/

/-- What a predicate is about: a lifetime or a type. -/
def whereSubject (g : Grammar) : Parse Node := do
  if ← isAt .quote then lifetime else g.parse .type

/-- One predicate of a `where` clause. Comments before it go to the clause. -/
def wherePredicate (g : Grammar) : Parse Unit := do
  let left ← g.whereSubject
  child <| node .wherePredicate do
    pushField .left left
    field .bounds g.traitBounds

/-- A `where` clause. -/
def whereClause (g : Grammar) : Parse Node := do
  flush
  node .whereClause do
    consume
    repeatWhile do
      flush
      let current ← kind
      if current == .quote || current.startsType then
        g.wherePredicate
        accept .comma
      else return false

/-- The `where` clause, if there is one. -/
def whereClauseIf (g : Grammar) : Parse Unit := ifAt .whereKw (child g.whereClause)

end ConcreteSyntax.Grammar
