import ConcreteSyntax.Text.Range

/-! # Lines and columns

Offsets are turned into a line and a column only when a diagnostic is shown. Lines and columns count
from one, columns count bytes, and a newline belongs to the line that it ends. -/

namespace ConcreteSyntax

/-- A line and a column, both counted from one. -/
structure LineColumn where
  line : Nat
  column : Nat
  deriving DecidableEq, Inhabited

namespace LineColumn

/-- The line and the column, joined by a colon. -/
def render (p : LineColumn) : String := s!"{p.line}:{p.column}"

end LineColumn

/-- The offsets at which the lines of a text begin, in increasing order. -/
structure Lines where
  starts : List Nat

namespace Lines

/-- The offsets just after each newline of a run of characters that begins at `offset`. -/
def afterNewlines (offset : Nat) : List Char → List Nat
  | [] => []
  | c :: cs =>
    let next := offset + c.utf8Size
    if c = '\n' then next :: afterNewlines next cs else afterNewlines next cs

/-- The lines of a text. The first begins at zero, every other one after a newline. -/
def ofText (text : String) : Lines := ⟨0 :: afterNewlines 0 text.toList⟩

/-- The number of lines. -/
def count (l : Lines) : Nat := l.starts.length

/-- The line and the column of an offset: the last line that begins at or before it. -/
def lineColumn (l : Lines) (offset : Nat) : LineColumn :=
  let upTo := l.starts.takeWhile (· ≤ offset)
  ⟨upTo.length, offset - upTo.getLastD 0 + 1⟩

end Lines

end ConcreteSyntax
