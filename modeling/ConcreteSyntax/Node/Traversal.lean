import ConcreteSyntax.Node.Basic

/-! # Traversals

The nodes under a node in preorder, also one by one with a stack, its leaves, their number, the walk
with its enter and leave steps, visitors, and the smallest named node around a range. -/

namespace ConcreteSyntax

/-! ### Preorder -/

mutual

/-- A node, everything under it, and then `rest`. -/
def Node.preorderOnto (rest : List Node) : Node → List Node
  | ⟨kind, range, flags, children⟩ =>
    ⟨kind, range, flags, children⟩ :: Node.preorderAllOnto rest children

/-- Every child with everything under it, and then `rest`. -/
def Node.preorderAllOnto (rest : List Node) : List (Option Field × Node) → List Node
  | [] => rest
  | (_, child) :: more => child.preorderOnto (Node.preorderAllOnto rest more)

end

mutual

/-- The number of nodes under a node, itself included. -/
def Node.count : Node → Nat
  | ⟨_, _, _, children⟩ => 1 + Node.countAll children

/-- The number of nodes in a row of children. -/
def Node.countAll : List (Option Field × Node) → Nat
  | [] => 0
  | (_, child) :: more => child.count + Node.countAll more

end

namespace Node

/-- A node and everything under it, parents first. -/
def preorder (n : Node) : List Node := n.preorderOnto []

/-- The nodes without children, in source order. -/
def leaves (n : Node) : List Node := n.preorder.filter (·.isLeaf)

end Node

/-! ### One node after another -/

/-- A preorder under way: the nodes that are still to be entered, the next one last. -/
structure PreorderStack where
  stack : Array Node

namespace PreorderStack

/-- Before the first node. -/
def start (n : Node) : PreorderStack := ⟨#[n]⟩

/-- The next node; its children are laid on the stack, the first one last. -/
def next? (p : PreorderStack) : Option (Node × PreorderStack) :=
  p.stack.back?.map fun n => (n, ⟨p.stack.pop ++ (n.children.map (·.2)).reverse⟩)

/-- The number of nodes that are still to come. -/
def count (p : PreorderStack) : Nat := Node.countAll (p.stack.toList.map fun n => (none, n))

/-- What the next node is, and what is left then. -/
theorem next?_eq_some {p q : PreorderStack} {n : Node} (h : p.next? = some (n, q)) :
    p.stack.toList = p.stack.pop.toList ++ [n] ∧
      q.stack.toList = p.stack.pop.toList ++ (n.children.map (·.2)).reverse := by
  obtain ⟨m, hm, h⟩ := Option.map_eq_some_iff.1 h
  obtain ⟨rfl, rfl⟩ := Prod.mk.inj h
  rw [← Array.getLast?_toList, List.getLast?_eq_some_iff] at hm
  obtain ⟨below, hm⟩ := hm
  exact ⟨by rw [Array.toList_pop, hm, List.dropLast_concat], by simp⟩

theorem countAll_append (children more : List Child) :
    Node.countAll (children ++ more) = Node.countAll children + Node.countAll more := by
  induction children with
  | nil => rw [List.nil_append, Node.countAll, Nat.zero_add]
  | cons c children ih => rw [List.cons_append, Node.countAll, Node.countAll, ih, Nat.add_assoc]

/-- Children that are laid on a stack are as many nodes as before. -/
theorem countAll_stacked (children : List Child) :
    Node.countAll ((children.map (·.2)).reverse.map fun n => (none, n)) = Node.countAll children := by
  induction children with
  | nil => rfl
  | cons c children ih =>
    rw [List.map_cons, List.reverse_cons, List.map_append, countAll_append, ih, Nat.add_comm]
    rfl

/-- Every step takes one node from those that are still to come. -/
theorem count_of_next? {p q : PreorderStack} {n : Node} (h : p.next? = some (n, q)) :
    p.count = q.count + 1 := by
  obtain ⟨hp, hq⟩ := next?_eq_some h
  have hn : n.count = Node.countAll n.children + 1 := by
    obtain ⟨kind, range, flags, children⟩ := n
    rw [Node.count, Nat.add_comm]
  rw [count, count, hp, hq, List.map_append, List.map_append, countAll_append, countAll_append,
    countAll_stacked, List.map_singleton, Node.countAll, Node.countAll, hn]
  omega

/-- All nodes that are still to come. -/
def toList (p : PreorderStack) : List Node :=
  match h : p.next? with
  | none => []
  | some (n, q) =>
    have : q.count < p.count := count_of_next? h ▸ Nat.lt_succ_self q.count
    n :: q.toList
termination_by p.count

end PreorderStack

/-! ### Walks -/

/-- A step of a walk: into a node, with the label its parent gives it, or out of it. -/
inductive Visit where
  | enter (label : Option Field) (node : Node)
  | leave (node : Node)
  deriving DecidableEq, Inhabited

namespace Visit

/-- The step in one word: a sign, the label and the node in short. -/
def render : Visit → String
  | .enter (some label) node => s!"+{label.word}: {node.brief}"
  | .enter none node => s!"+{node.brief}"
  | .leave node => s!"-{node.brief}"

end Visit

mutual

/-- The walk over a node that its parent labels `label`, and then `rest`. The children of a node
that `skip` holds of are left out. -/
def Node.walkOnto (skip : Node → Bool) (rest : List Visit) (label : Option Field) :
    Node → List Visit
  | ⟨kind, range, flags, children⟩ =>
    let node : Node := ⟨kind, range, flags, children⟩
    .enter label node ::
      if skip node then .leave node :: rest
      else Node.walkAllOnto skip (.leave node :: rest) children

/-- The walk over a row of children, and then `rest`. -/
def Node.walkAllOnto (skip : Node → Bool) (rest : List Visit) :
    List (Option Field × Node) → List Visit
  | [] => rest
  | (label, child) :: more => child.walkOnto skip (Node.walkAllOnto skip rest more) label

end

namespace Node

/-- The walk over a node, which has no label where the walk starts. -/
def walk (n : Node) (skip : Node → Bool) : List Visit := n.walkOnto skip [] none

/-- A node and everything under it, children first. -/
def postorder (n : Node) : List Node :=
  (n.walk fun _ => false).filterMap fun
    | .leave node => some node
    | .enter _ _ => none

/-- The labels met in a walk, each with its node. -/
def labels (n : Node) : List (Field × Node) :=
  (n.walk fun _ => false).filterMap fun
    | .enter (some label) node => some (label, node)
    | _ => none

end Node

/-! ### Visitors -/

/-- What a visitor wants after it entered a node. -/
inductive WalkEvent where
  | visitChildren
  | skipChildren
  deriving DecidableEq, Inhabited

/-- What someone does who walks over a tree and keeps a state: on the way into a node, with the label
its parent gives it, and on the way out of it. -/
structure Visitor (σ : Type) where
  enter : Node → Option Field → σ → WalkEvent × σ := fun _ _ s => (.visitChildren, s)
  leave : Node → σ → σ := fun _ s => s

mutual

/-- The state of a visitor after the walk over a node that its parent labels `label`. -/
def Visitor.walkChild {σ : Type} (v : Visitor σ) (label : Option Field) (s : σ) : Node → σ
  | ⟨kind, range, flags, children⟩ =>
    let node : Node := ⟨kind, range, flags, children⟩
    let entered := v.enter node label s
    match entered.1 with
    | .visitChildren => v.leave node (Visitor.walkChildren v entered.2 children)
    | .skipChildren => v.leave node entered.2

/-- The state of a visitor after the walk over a row of children. -/
def Visitor.walkChildren {σ : Type} (v : Visitor σ) (s : σ) : List (Option Field × Node) → σ
  | [] => s
  | (label, child) :: more => Visitor.walkChildren v (Visitor.walkChild v label s child) more

end

/-- The state of a visitor after the walk over a node, which has no label where the walk starts. -/
def Visitor.walk {σ : Type} (v : Visitor σ) (n : Node) (s : σ) : σ := v.walkChild none s n

/-! ### Search by range -/

mutual

/-- The node reached by going on into the first named child that covers a range. -/
def Node.smallestAround (r : Range) : Node → Node
  | ⟨kind, range, flags, children⟩ =>
    (Node.smallestAmong r children).getD ⟨kind, range, flags, children⟩

/-- The node reached from the first named child that covers a range, if one does. -/
def Node.smallestAmong (r : Range) : List (Option Field × Node) → Option Node
  | [] => none
  | (_, child) :: more =>
    if child.isNamed && child.range.covers r then some (child.smallestAround r)
    else Node.smallestAmong r more

end

end ConcreteSyntax
