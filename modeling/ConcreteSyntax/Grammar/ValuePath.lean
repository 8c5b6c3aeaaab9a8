import ConcreteSyntax.Grammar.Type

/-! # Paths of values

Segments with or without arguments. Arguments need a `::` before their `<`, which is an operator
otherwise. -/

namespace ConcreteSyntax.Grammar

open Parse

/-- A path with arguments, if some follow. -/
def withArguments (g : Grammar) (path : Node) : Parse Node := do
  let s ← get
  if s.isAt .colonColon && s.nextIsAngle then
    settle .genericArgsVsLessThan .genericFunction
    node .genericFunction do
      pushField .function path
      consume
      field .typeArguments g.typeArguments
  else return path

/-- The rest of a path after what stands before its next segment. A path with arguments is one of a
type if more segments follow. -/
def valuePathTurn (g : Grammar) (scope : Option Draft) : Parse (Step (Option Draft) Node) := do
  let path ← g.withArguments (← segmentIn scope .identifier)
  let s ← get
  if s.isAt .colonColon && s.nextIsSegment then
    return .again (← scopeAfter (if path.kind == .genericFunction then path.asType else path))
  else return .done path

/-- A path to a value. -/
def valuePath (g : Grammar) : Parse Node := do
  flush
  loop g.valuePathTurn (← g.pathScope)

end ConcreteSyntax.Grammar
