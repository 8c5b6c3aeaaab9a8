import ConcreteSyntax.Grammar.Generic
import ConcreteSyntax.Grammar.Signature
import ConcreteSyntax.Grammar.Expression.Postfix

/-! # Functions, constants and statics

A function with its body, or its signature alone; a constant or a static with its type and its value.
Like every item they are read into a draft that may hold a visibility. -/

namespace ConcreteSyntax.Grammar

open Parse

/-! ### Functions -/

/-- The body of a function, or the semicolon in its place. A `{` that was skipped while the
parameters were read may be closed here. -/
def functionEnd (g : Grammar) : Parse Unit := do
  match ← kind with
  | .openBrace => field .body (g.parse .block)
  | .semicolon =>
    setKind .functionSignatureItem
    consume
  | _ => unless ← absorbBrace do reportExpected "'\x7b' or ';'"

/-- Whether a modifier of a function stands here. -/
def isAtFunctionModifier : Parse Bool := do
  if ← isAtAny [.constKw, .asyncKw, .unsafeKw, .externKw] then return true
  else isAtWord "default"

/-- A function. -/
def functionItem (g : Grammar) : Parse Unit := do
  setKind .functionItem
  provided (← isAtFunctionModifier) (child functionModifiers)
  expect .fnKw
  expectName .name .identifier
  g.typeParametersIf
  field .parameters g.parameters
  g.returnTypeIf
  g.whereClauseIf
  g.functionEnd

/-! ### Constants and statics -/

/-- The type of a constant, its value if it has one, and the semicolon. -/
def typedValue (g : Grammar) : Parse Unit := do
  expect .colon
  field .type (g.parse .type)
  ifAt .eq do
    consume
    field .value g.expression
  expect .semicolon

/-- A constant, which may be without a name. -/
def constItem (g : Grammar) : Parse Unit := do
  setKind .constItem
  consumeDefault
  consume
  markOrName .underscore .name
  g.typedValue

/-- Reports a `static ref`, unless the options let it pass. -/
def reportReference : Parse Unit := do
  provided (!(← options).allowStaticRef) (reportHere .staticRef [])

/-- A static. `static ref` is read in any case, and reported if the options forbid it. -/
def staticItem (g : Grammar) : Parse Unit := do
  setKind .staticItem
  consume
  ifAt .refKw do
    reportReference
    consume
  consumeIf .mutKw
  expectName .name .identifier
  g.typedValue

end ConcreteSyntax.Grammar
