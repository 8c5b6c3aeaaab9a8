/-! # Options

How permissive a reading is. Every option has a default. -/

namespace ConcreteSyntax

/-- The options of a reading. -/
structure Options where
  /-- How deep constructs may nest; what lies deeper becomes an error. -/
  maxDepth : Nat := 200
  /-- Whether `fn f(u32)` only draws a warning. -/
  allowAnonymousParameters : Bool := true
  /-- Whether `static ref NAME: T = …;` passes. -/
  allowStaticRef : Bool := true
  /-- Whether comments stay in the tree. -/
  keepComments : Bool := true
  deriving DecidableEq, Inhabited

namespace Options

/-- Options that let no lenient form pass. -/
def strict : Options := { allowAnonymousParameters := false, allowStaticRef := false }

/-- Whether every option has its default. -/
def isDefault (o : Options) : Bool := o == {}

end Options

end ConcreteSyntax
