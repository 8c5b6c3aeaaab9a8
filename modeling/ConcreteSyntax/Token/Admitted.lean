/-! # Admitted classes

Marks, words and identifiers are read anywhere. Literals, comments, lifetimes and literal suffixes
are read only where the grammar admits their class. -/

namespace ConcreteSyntax

/-- The context-sensitive classes that the grammar admits at a place. -/
structure Admitted where
  string : Bool := false
  rawString : Bool := false
  char : Bool := false
  lifetime : Bool := false
  integer : Bool := false
  float : Bool := false
  literalSuffix : Bool := false
  blockComment : Bool := false
  lineComment : Bool := false
  errorSentinel : Bool := false
  deriving DecidableEq

namespace Admitted

/-- Everything but a literal suffix, which only follows a literal. -/
def usual : Admitted :=
  ⟨true, true, true, true, true, true, false, true, true, true⟩

/-- The place of a tuple index: in `t.0.1` the characters `0.1` are no float. -/
def tupleIndex : Admitted := { usual with float := false }

/-- The place after a literal: also a suffix that touches it. -/
def afterLiteral : Admitted := { usual with literalSuffix := true }

/-- Nothing but a literal suffix. -/
def suffixOnly : Admitted := { literalSuffix := true }

/-- The classes other than a literal suffix. -/
def withoutSuffix (a : Admitted) : Admitted := { a with literalSuffix := false }

/-- The comments among the classes. -/
def comments (a : Admitted) : Admitted :=
  { blockComment := a.blockComment, lineComment := a.lineComment }

/-- Whether a form of comment is admitted. -/
def anyComment (a : Admitted) : Bool := a.blockComment || a.lineComment

/-- The classes that the low bits of a number stand for; other bits mean nothing. -/
def ofBits (n : Nat) : Admitted :=
  ⟨n.testBit 0, n.testBit 1, n.testBit 2, n.testBit 3, n.testBit 4, n.testBit 5, n.testBit 6,
    n.testBit 7, n.testBit 8, n.testBit 9⟩

end Admitted

instance : Inhabited Admitted := ⟨.usual⟩

end ConcreteSyntax
