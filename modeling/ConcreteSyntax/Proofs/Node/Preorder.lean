import ConcreteSyntax.Node.Traversal

/-! # The nodes under a node

What passes from every node to its children holds of every node in a preorder that begins at one
(`Node.forall_mem_preorder`). The stack of a preorder under way holds what is still to come: the nodes
on it, from the top down, each with everything under it (`PreorderStack.toList_eq`). -/

namespace ConcreteSyntax

variable {P : Node → Prop}

mutual

/-- A property passes from the children of every node to that node: it holds of all nodes. -/
theorem Node.induction (step : ∀ n : Node, (∀ c ∈ n.children, P c.2) → P n) : (n : Node) → P n
  | ⟨_, _, _, children⟩ => step _ (inductionAll step children)

theorem Node.inductionAll (step : ∀ n : Node, (∀ c ∈ n.children, P c.2) → P n) :
    (children : List Child) → ∀ c ∈ children, P c.2
  | [] => List.forall_mem_nil _
  | (_, n) :: more => List.forall_mem_cons.2 ⟨induction step n, inductionAll step more⟩

end

mutual

theorem Node.mem_preorderOnto (hP : ∀ n, P n → ∀ c ∈ n.children, P c.2) {rest : List Node} :
    (n : Node) → P n → ∀ d ∈ n.preorderOnto rest, P d ∨ d ∈ rest
  | ⟨kind, range, flags, children⟩, hn, d, hd => by
    rw [preorderOnto, List.mem_cons] at hd
    rcases hd with rfl | hd
    · exact .inl hn
    · exact mem_preorderAllOnto hP children (hP _ hn) d hd

theorem Node.mem_preorderAllOnto (hP : ∀ n, P n → ∀ c ∈ n.children, P c.2) {rest : List Node} :
    (children : List Child) → (∀ c ∈ children, P c.2) →
      ∀ d ∈ preorderAllOnto rest children, P d ∨ d ∈ rest
  | [], _, d, hd => .inr (by rwa [preorderAllOnto] at hd)
  | (label, n) :: more, hc, d, hd => by
    rw [preorderAllOnto] at hd
    obtain ⟨hn, hmore⟩ := List.forall_mem_cons.1 hc
    rcases mem_preorderOnto hP n hn d hd with h | h
    · exact .inl h
    · exact mem_preorderAllOnto hP more hmore d h

end

/-- What passes from every node to its children holds of all nodes below one that it holds of. -/
theorem Node.forall_mem_preorder (hP : ∀ n, P n → ∀ c ∈ n.children, P c.2) {n : Node} (hn : P n) :
    ∀ d ∈ n.preorder, P d := fun d hd =>
  (mem_preorderOnto hP n hn d hd).resolve_right nofun

mutual

/-- A preorder lists as many nodes as there are. -/
theorem Node.length_preorderOnto (rest : List Node) :
    (n : Node) → (n.preorderOnto rest).length = n.count + rest.length
  | ⟨kind, range, flags, children⟩ => by
    rw [preorderOnto, count, List.length_cons, length_preorderAllOnto rest children]
    omega

theorem Node.length_preorderAllOnto (rest : List Node) :
    (children : List Child) →
      (preorderAllOnto rest children).length = countAll children + rest.length
  | [] => by rw [preorderAllOnto, countAll, Nat.zero_add]
  | (label, n) :: more => by
    rw [preorderAllOnto, countAll, length_preorderOnto _ n, length_preorderAllOnto rest more,
      Nat.add_assoc]

end

theorem Node.length_preorder (n : Node) : n.preorder.length = n.count := n.length_preorderOnto []

/-! ### Node by node -/

mutual

theorem Node.preorderOnto_eq (rest : List Node) : (n : Node) → n.preorderOnto rest = n.preorder ++ rest
  | ⟨kind, range, flags, children⟩ => by
    rw [preorder, preorderOnto, preorderOnto, preorderAllOnto_eq rest, preorderAllOnto_eq []]
    simp

theorem Node.preorderAllOnto_eq (rest : List Node) :
    (children : List Child) →
      preorderAllOnto rest children = children.flatMap (·.2.preorder) ++ rest
  | [] => by simp [preorderAllOnto]
  | (label, n) :: more => by
    rw [preorderAllOnto, preorderOnto_eq _ n, preorderAllOnto_eq rest more]
    simp

end

namespace Node

theorem preorder_eq (n : Node) : n.preorder = n :: n.children.flatMap (·.2.preorder) := by
  obtain ⟨kind, range, flags, children⟩ := n
  rw [preorder, preorderOnto, preorderAllOnto_eq, List.append_nil]

/-- The leaves of a node are those of its children, if it has some. -/
theorem leaves_eq (n : Node) :
    n.leaves = if n.children = [] then [n] else n.children.flatMap (·.2.leaves) := by
  rw [leaves, preorder_eq]
  split
  · next h => simp [isLeaf, h]
  · next h => simp [isLeaf, h, List.filter_flatMap, leaves]

end Node

/-! ### One node after another -/

namespace PreorderStack

/-- What is still to come are the nodes on the stack, from the top down, with everything under them. -/
theorem toList_eq (p : PreorderStack) :
    p.toList = p.stack.toList.reverse.flatMap (·.preorder) := by
  induction p using toList.induct with
  | case1 p h =>
    have hstack : p.stack = #[] := by simpa [next?] using h
    rw [toList, hstack]
    split
    · rfl
    · next hnext => exact nomatch h.symm.trans hnext
  | case2 p n q h _ ih =>
    obtain ⟨hp, hq⟩ := next?_eq_some h
    rw [toList]
    split
    · next hnext => exact nomatch h.symm.trans hnext
    · next m q' hnext =>
      obtain ⟨rfl, rfl⟩ := Prod.mk.inj (Option.some.inj (h.symm.trans hnext))
      rw [ih, hp, hq, List.reverse_append, List.reverse_append, List.reverse_reverse,
        List.flatMap_append, List.flatMap_map, List.reverse_singleton, List.flatMap_append,
        List.flatMap_singleton, Node.preorder_eq, List.cons_append]

/-- The stack that holds a node yields the node with everything under it. -/
theorem toList_start (n : Node) : (start n).toList = n.preorder := by
  rw [toList_eq, start]
  exact List.append_nil _

end PreorderStack

end ConcreteSyntax
