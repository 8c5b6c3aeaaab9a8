import ConcreteSyntax.Node.Basic

/-! # Drafts

A draft collects the children of a node while its production is read. The kind may change until the
end; the range and the error mark of the finished node come from the children (`Draft.finish`), or
the range is given (`Draft.finishOver`), as for a root, which spans white space at its ends too. -/

namespace ConcreteSyntax

/-- A node under construction. -/
structure Draft where
  kind : Kind
  flags : NodeFlags := {}
  children : Array Child := #[]
  deriving Inhabited

namespace Draft

/-- A draft without children. -/
def ofKind (kind : Kind) : Draft := { kind }

/-- The draft under another kind. -/
def setKind (d : Draft) (kind : Kind) : Draft := { d with kind }

/-- The draft with more marks. -/
def addFlags (d : Draft) (flags : NodeFlags) : Draft := { d with flags := d.flags.union flags }

/-- The number of children. -/
def size (d : Draft) : Nat := d.children.size

/-- Whether no child was collected. -/
def isEmpty (d : Draft) : Bool := d.children.isEmpty

/-- One child more, with its label. -/
def pushChild (d : Draft) (label : Option Field) (node : Node) : Draft :=
  { d with children := d.children.push (label, node) }

/-- One child more, without a label. -/
def push (d : Draft) (node : Node) : Draft := d.pushChild none node

/-- One child more, with this label. -/
def pushField (d : Draft) (label : Field) (node : Node) : Draft := d.pushChild (some label) node

/-- Several children more. -/
def extend (d : Draft) (more : List Child) : Draft :=
  { d with children := d.children ++ more.toArray }

/-- The last child that is not a comment. -/
def lastSignificant? (d : Draft) : Option Node :=
  (d.children.toList.reverse.map (·.2)).find? (!·.isExtra)

/-- Whether a child is an error or holds one. -/
def hasError (d : Draft) : Bool := d.children.any (·.2.hasError)

/-- The draft without labels: an error has none. -/
def clearFields (d : Draft) : Draft :=
  { d with children := d.children.map fun (_, n) => (none, n) }

/-- The draft with its first `index` children, and the children cut off. -/
def splitOff (d : Draft) (index : Nat) : Draft × List Child :=
  ({ d with children := d.children.take index }, d.children.toList.drop index)

/-- The finished node over a given range. -/
def finishOver (d : Draft) (range : Range) : Node :=
  { kind := d.kind
    range
    flags := { d.flags with
      error := d.flags.error || d.kind == .error
      hasError := d.flags.hasError || d.hasError }
    children := d.children.toList }

/-- The smallest range over the children; without children, nothing at `offset`. A missing leaf may
stand before a comment that was collected earlier, so every child counts. -/
def span (d : Draft) (offset : Nat) : Range :=
  match d.children.toList with
  | [] => .emptyAt offset
  | (_, first) :: rest => rest.foldl (fun r c => r.hull c.2.range) first.range

/-- The finished node over its children, or at `offset` if it has none. -/
def finish (d : Draft) (offset : Nat) : Node := d.finishOver (d.span offset)

end Draft

end ConcreteSyntax
