import ConcreteSyntax.Grammar.Start
import ConcreteSyntax.Grammar.Intake

/-! # Simple paths

A path without arguments: segments joined with `::`, the tree nested to the left. A `::` before
anything but a segment is left to what surrounds the path, as in `use a::*`. -/

namespace ConcreteSyntax.Parse

/-- Takes a segment. An identifier and `Self` enter the tree under the given kind, the other words
keep theirs. -/
def segment (kind : Kind) : Parse Node := do
  match ← Parse.kind with
  | .identifier | .selfTypeKw => leaf (some kind)
  | .selfKw | .superKw | .crateKw | .metavariable => leaf
  | _ =>
    reportExpected kind.name
    missing kind

/-- Opens a scoped path over what stands before its `::`. -/
def scopeAfter (path : Node) : Parse Draft :=
  collect (.ofKind .scopedIdentifier) do
    pushField .path path
    expect .colonColon

/-- Opens a scoped path that begins with `::`. -/
def globalScope : Parse Draft := collect (.ofKind .scopedIdentifier) consume

/-- A segment as the last name of a scoped path, or alone. -/
def segmentIn (scope : Option Draft) (kind : Kind) : Parse Node :=
  match scope with
  | some scope => resume scope (field .name (segment kind))
  | none => segment kind

/-- The `::` that a path may begin with. -/
def globalScopeIf : Parse (Option Draft) := do
  if ← isAt .colonColon then return some (← globalScope) else return none

/-- A path without arguments. -/
def simplePath : Parse Node := do
  flush
  let first ← segmentIn (← globalScopeIf) .identifier
  loop (fun (path : Node) => do
    let s ← get
    if s.isAt .colonColon && s.nextIsSegment then
      return .again (← segmentIn (some (← scopeAfter path)) .identifier)
    else return .done path) first

end ConcreteSyntax.Parse
