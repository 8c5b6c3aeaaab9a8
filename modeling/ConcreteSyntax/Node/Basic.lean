import ConcreteSyntax.Kind.Class
import ConcreteSyntax.Field
import ConcreteSyntax.Supertype
import ConcreteSyntax.Text.Range

/-! # Nodes

Every token and every production is a node: a kind, a range, flags, and children in source order,
each with an optional label. A leaf is a node without children. `Node.hasError` says whether an
error or a missing token stands at the node or below it. -/

namespace ConcreteSyntax

/-! ### Flags -/

/-- What a node is marked with: a comment (`extra`), an error at the node itself, a token put in for
one that is missing, an error or a missing token below the node, and a reading that was preferred
among several. -/
structure NodeFlags where
  extra : Bool := false
  error : Bool := false
  missing : Bool := false
  hasError : Bool := false
  ambiguous : Bool := false
  deriving DecidableEq, Inhabited

namespace NodeFlags

/-- The marks of both. -/
def union (a b : NodeFlags) : NodeFlags :=
  ⟨a.extra || b.extra, a.error || b.error, a.missing || b.missing, a.hasError || b.hasError,
    a.ambiguous || b.ambiguous⟩

/-- The flags as the low bits of a number. -/
def toBits (f : NodeFlags) : Nat :=
  f.extra.toNat + 2 * f.error.toNat + 4 * f.missing.toNat + 8 * f.hasError.toNat
    + 16 * f.ambiguous.toNat

/-- The flags that the low bits of a number stand for; other bits mean nothing. -/
def ofBits (n : Nat) : NodeFlags :=
  ⟨n.testBit 0, n.testBit 1, n.testBit 2, n.testBit 3, n.testBit 4⟩

end NodeFlags

/-! ### Nodes and their parts -/

/-- A node of a tree. -/
structure Node where
  kind : Kind
  range : Range
  flags : NodeFlags
  children : List (Option Field × Node)
  deriving Inhabited

/-- A child: its label and the node. -/
abbrev Child := Option Field × Node

namespace Node

/-- A token as a node; a token that stands for an unreadable construct is an error. -/
def leaf (kind : Kind) (range : Range) (flags : NodeFlags) : Node :=
  ⟨kind, range, if kind = .errorSentinel then { flags with error := true } else flags, []⟩

/-- The node under another kind. -/
def withKind (n : Node) (kind : Kind) : Node := { n with kind }

/-- The node with more marks. -/
def withFlags (n : Node) (flags : NodeFlags) : Node := { n with flags := n.flags.union flags }

/-- The name of the node's kind. -/
def name (n : Node) : String := n.kind.name

/-- A node, or a leaf with content. -/
def isNamed (n : Node) : Bool := n.kind.isNamed

/-- Whether the node has no children. -/
def isLeaf (n : Node) : Bool := n.children.isEmpty

/-- Whether the node is a comment between others. -/
def isExtra (n : Node) : Bool := n.flags.extra

/-- Whether the node itself is an error. -/
def isError (n : Node) : Bool := n.kind == .error || n.flags.error

/-- Whether the node stands for a token that is not there. -/
def isMissing (n : Node) : Bool := n.flags.missing

/-- Whether an error or a missing token stands at the node or below it. -/
def hasError (n : Node) : Bool := n.isError || n.isMissing || n.flags.hasError

/-- Whether another reading of the node was possible. -/
def isAmbiguous (n : Node) : Bool := n.flags.ambiguous

/-- Whether the node belongs to a category of the grammar. -/
def isA (n : Node) (s : Supertype) : Bool := s.contains n.kind

/-- The text of a node. -/
def text (n : Node) (source : String) : String := n.range.slice source

/-- The name and the range of a node, in short. -/
def brief (n : Node) : String := s!"{n.name}@{n.range.render}"

/-! ### Children -/

/-- The child at a place. -/
def child? (n : Node) (i : Nat) : Option Node := n.children[i]?.map (·.2)

/-- The children that are nodes or leaves with content. -/
def namedChildren (n : Node) : List Node := (n.children.map (·.2)).filter (·.isNamed)

/-- The children with a label, in order. -/
def childrenByField (n : Node) (f : Field) : List Node :=
  (n.children.filter (·.1 == some f)).map (·.2)

/-- The first child with a label. -/
def childByField? (n : Node) (f : Field) : Option Node :=
  (n.children.find? (·.1 == some f)).map (·.2)

/-- The label of the child at a place. -/
def fieldOfChild? (n : Node) (i : Nat) : Option Field := n.children[i]?.bind (·.1)

end Node

/-! ### Equality -/

mutual

/-- Whether two nodes are equal, decided part by part. -/
def Node.decideEq : (a b : Node) → Decidable (a = b)
  | ⟨k, r, f, cs⟩, ⟨k', r', f', cs'⟩ =>
    if h : k = k' ∧ r = r' ∧ f = f' then
      match Node.decideEqAll cs cs' with
      | isTrue g => isTrue (by obtain ⟨rfl, rfl, rfl⟩ := h; subst g; rfl)
      | isFalse g => isFalse (by intro e; cases e; exact g rfl)
    else isFalse (by intro e; cases e; exact h ⟨rfl, rfl, rfl⟩)

/-- Whether two rows of children are equal, decided child by child. -/
def Node.decideEqAll : (a b : List (Option Field × Node)) → Decidable (a = b)
  | [], [] => isTrue rfl
  | [], _ :: _ => isFalse nofun
  | _ :: _, [] => isFalse nofun
  | (f, n) :: cs, (f', n') :: cs' =>
    if h : f = f' then
      match Node.decideEq n n', Node.decideEqAll cs cs' with
      | isTrue p, isTrue q => isTrue (by subst h p q; rfl)
      | isFalse p, _ => isFalse (by intro e; cases e; exact p rfl)
      | _, isFalse q => isFalse (by intro e; cases e; exact q rfl)
    else isFalse (by intro e; cases e; exact h rfl)

end

instance : DecidableEq Node := Node.decideEq

end ConcreteSyntax
