import ConcreteSyntax.Grammar.Attribute
import ConcreteSyntax.Grammar.Literal
import ConcreteSyntax.Grammar.Speculation

/-! # Signatures

The modifiers of a function and its parameters. A parameter of a function is a pattern with a type;
a type alone is an old form. A parameter of a function type is a type, which may have a name. -/

namespace ConcreteSyntax

open Parse

namespace Parse

/-! ### Modifiers -/

/-- `extern` and the name of a calling convention. -/
def externModifier : Parse Node := do
  flush
  node .externModifier do
    consume
    provided (← isAtAny [.stringToken, .rawStringToken]) (child literal)

/-- Takes one modifier of a function and says whether there was one. -/
def functionModifier : Parse Bool := do
  match ← kind with
  | .constKw | .asyncKw | .unsafeKw =>
    consume
    return true
  | .externKw =>
    child externModifier
    return true
  | .identifier =>
    if ← isAtWord "default" then
      consumeAs .defaultKw
      return true
    else return false
  | _ => return false

/-- The modifiers of a function. -/
def functionModifiers : Parse Node := do
  flush
  node .functionModifiers (repeatWhile functionModifier)

/-- Takes the contextual word `default`, if it stands here. -/
def consumeDefault : Parse Unit := do
  provided (← isAtWord "default") (consumeAs .defaultKw)

/-! ### The receiver -/

/-- The parameter `self`, by value or by reference. -/
def receiver : Parse Node := do
  flush
  node .selfParameter do
    ifAt .amp do
      consume
      ifAt .quote (child lifetime)
    consumeIf .mutKw
    expect .selfKw

end Parse

namespace Grammar

/-! ### Parameters -/

/-- A parameter of a function type. -/
def bareParameter (g : Grammar) : Parse Unit := do
  let s ← get
  if s.isAtAny [.identifier, .underscore] && s.ahead 1 == .colon then
    child <| node .parameter do
      field .pattern leaf
      consume
      field .type (g.parse .type)
  else child (g.parse .type)

/-- The pattern of a parameter, before a colon. -/
def parameterPattern? (g : Grammar) : Parse (Option Draft) := do
  let parameter ← collect (.ofKind .parameter) do
    consumeIf .mutKw
    field .pattern (g.parse .singlePattern)
  return if ← isAt .colon then some parameter else none

/-- Reports a parameter without a pattern. -/
def reportAnonymous (range : Range) : Parse Unit := do
  if (← options).allowAnonymousParameters then reportAt range .anonymousDeprecated []
  else reportAt range .anonymousForbidden []

/-- A parameter of a function. -/
def namedParameter (g : Grammar) : Parse Unit := do
  match ← speculate .typeVsPattern g.parameterPattern? with
  | some parameter =>
    child <| resume parameter do
      consume
      field .type (g.parse .type)
  | none =>
    let parameter ← node .parameter (field .type (g.parse .type))
    reportAnonymous parameter.range
    push parameter

/-- Any entry of a list of parameters; `plain` reads one that is neither `self` nor `...`. -/
def parameter (g : Grammar) (plain : Parse Unit) : Parse Unit := do
  flush
  g.attributes
  let s ← get
  if s.isAtReceiver then child receiver
  else if s.isAt .dotDotDot then child (node .variadicParameter consume)
  else plain

/-- The form of a list of parameters. -/
def parameterList : ListForm where
  opener := .openParen
  closer := .closeParen
  ends := [.closeBrace, .semicolon]
  starts := Kind.startsParameter

/-- Parameters between parentheses. -/
def parametersOf (g : Grammar) (plain : Parse Unit) : Parse Node := do
  flush
  node .parameters (unrestricted (list parameterList (g.parameter plain)))

/-- The parameters of a function. -/
def parameters (g : Grammar) : Parse Node := g.parametersOf g.namedParameter

/-- The parameters of a function type. -/
def bareParameters (g : Grammar) : Parse Node := g.parametersOf g.bareParameter

/-- The type of a result, if an arrow announces one. -/
def returnTypeIf (g : Grammar) : Parse Unit :=
  ifAt .arrow do
    consume
    field .returnType (g.parse .type)

end Grammar

end ConcreteSyntax
