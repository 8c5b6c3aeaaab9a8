import ConcreteSyntax.Grammar.Intake

/-! # Speculation

The preferred reading of an ambiguity is tried first. If it declines or reports anything, the
session is as it was, but for the memory of the failure: a reading that failed at a place fails
there again. -/

namespace ConcreteSyntax.Parse

/-- Takes the session back to where it was, and remembers that a reading failed there. -/
def decline (before : Session) (ambiguity : Ambiguity) : Parse Unit :=
  modify fun s =>
    { before with
      declined := (before.offset, ambiguity) :: s.declined
      remarks := s.remarks.push (.fellBack ambiguity before.offset) }

/-- Tries the preferred reading of an ambiguity. -/
def speculate {α : Type} (ambiguity : Ambiguity) (preferred : Parse (Option α)) :
    Parse (Option α) := do
  let before ← get
  let place := (before.offset, ambiguity)
  if (← read).remembers && before.declined.contains place then return none
  match ← preferred with
  | some value =>
    if (← get).report.size == before.report.size then
      note (.preferred ambiguity before.offset)
      return some value
    else
      decline before ambiguity
      return none
  | none =>
    decline before ambiguity
    return none

end ConcreteSyntax.Parse
