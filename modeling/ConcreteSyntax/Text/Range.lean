/-! # Ranges of bytes

Tokens, nodes and diagnostics point into a text with a half-open range of byte offsets into its
UTF-8 encoding. -/

namespace ConcreteSyntax

/-- The bytes from `start` up to, but without, `stop`. -/
structure Range where
  start : Nat
  stop : Nat
  deriving DecidableEq, Inhabited

namespace Range

/-- The range without bytes at an offset: where a missing token would stand. -/
def emptyAt (offset : Nat) : Range := ⟨offset, offset⟩

/-- The number of bytes. -/
def length (r : Range) : Nat := r.stop - r.start

/-- Whether a range begins where it ends. -/
def isEmpty (r : Range) : Bool := r.start == r.stop

/-- Whether the byte at an offset belongs to the range. -/
def contains (r : Range) (offset : Nat) : Bool := r.start ≤ offset && offset < r.stop

/-- Whether one range nests in another; an empty range nests at either edge too. -/
def covers (r inner : Range) : Bool := r.start ≤ inner.start && inner.stop ≤ r.stop

/-- The smallest range that covers both. -/
def hull (r s : Range) : Range := ⟨min r.start s.start, max r.stop s.stop⟩

/-- The text under a range: nothing if an end lies inside a character or outside the text. -/
def slice (r : Range) (text : String) : String :=
  let first : String.Pos.Raw := ⟨r.start⟩
  let last : String.Pos.Raw := ⟨r.stop⟩
  if r.start ≤ r.stop && first.isValid text && last.isValid text then first.extract text last
  else ""

/-- The two ends, joined by two dots. -/
def render (r : Range) : String := s!"{r.start}..{r.stop}"

end Range

end ConcreteSyntax
