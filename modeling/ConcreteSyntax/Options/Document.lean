import ConcreteSyntax.Options.Basic
import ConcreteSyntax.Json.Reader

/-! # Options from a document

A document gives options as an object, of which unknown members are skipped and a known one may come
only once, or as a list in the order of the options. What it leaves out keeps its default. -/

namespace ConcreteSyntax.Options

open Json Json.Reader

/-- An option by itself. -/
inductive Name where
  | maxDepth | allowAnonymousParameters | allowStaticRef | keepComments
  deriving DecidableEq, Inhabited

namespace Name

/-- Every option, in the order of a list. -/
def all : List Name := [.maxDepth, .allowAnonymousParameters, .allowStaticRef, .keepComments]

/-- The label of an option in an object. -/
def label : Name → String
  | .maxDepth => "maxDepth"
  | .allowAnonymousParameters => "allowAnonymousParameters"
  | .allowStaticRef => "allowStaticRef"
  | .keepComments => "keepComments"

/-- Options with one of them read from a document. -/
def read (o : Options) : Name → Reader Options
  | .maxDepth => do return { o with maxDepth := ← naturalBelow 0x100000000 }
  | .allowAnonymousParameters => do return { o with allowAnonymousParameters := ← boolean }
  | .allowStaticRef => do return { o with allowStaticRef := ← boolean }
  | .keepComments => do return { o with keepComments := ← boolean }

end Name

/-! ### Lists -/

/-- Whether another element follows in a list, of which some were read before; a comma before it is
taken. -/
def hasElement (isFirst : Bool) : Reader Bool := do
  let c ← peekSolid
  if c = ']' then return false
  else if isFirst then return true
  else if c = ',' then
    drop
    if (← peekSolid) = ']' then throw .malformed else return true
  else throw .malformed

/-- The options of a list, in order, as far as it goes. -/
def readElements (o : Options) (isFirst : Bool) : List Name → Reader Options
  | [] => return o
  | name :: names => do
    if ← hasElement isFirst then readElements (← name.read o) false names else return o

/-- A list after its opening bracket. It must not go on after the last option. -/
def readList : Reader Options := do
  let o ← readElements {} true Name.all
  solid ']'
  return o

/-! ### Objects -/

/-- Whether another member follows in an object, of which some were read before; a comma before it
is taken, and then the opening quote of its label. -/
def hasMember (isFirst : Bool) : Reader Bool := do
  let c ← peekSolid
  if c = '\x7d' then return false
  else if c = ',' && !isFirst then
    drop
    solid '"'
    return true
  else if c = '"' && isFirst then
    drop
    return true
  else throw .malformed

/-- The value of a member with this label, put into the options; a value without an option is
skipped. -/
def readMember (o : Options) (name : Option Name) : Reader Options := do
  solid ':'
  match name with
  | some name => name.read o
  | none =>
    skipValue
    return o

/-- The members of an object up to its end, of which those in `seen` came before; `fuel` bounds
their number. -/
def readMembers (o : Options) (seen : List Name) (isFirst : Bool) : Nat → Reader Options
  | 0 => throw .ended
  | fuel + 1 => do
    if ← hasMember isFirst then
      let label := String.ofList (← stringRest true)
      let name := Name.all.find? (·.label == label)
      if name.any seen.contains then throw .unsuitable
      readMembers (← readMember o name) (name.toList ++ seen) false fuel
    else return o

/-- An object after its opening brace. -/
def readObject : Reader Options := do
  let o ← readMembers {} [] true ((← get).length + 1)
  solid '\x7d'
  return o

/-! ### Documents -/

/-- A whole document of options. -/
def readDocument : Reader Options := do
  let c ← peekSolid
  let o ← (if c = '[' then do drop; readList
    else if c = '\x7b' then do drop; readObject
    else otherType)
  finish
  return o

/-- The options that a document gives, or its first flaw. -/
def ofJson? (text : String) : Except Flaw Options := (readDocument.run text.toList).map (·.1)

end ConcreteSyntax.Options
