import ConcreteSyntax.Node.Retag
import ConcreteSyntax.Proofs.Kind
import ConcreteSyntax.Proofs.Node.Preorder

/-! # How nodes are read again

The functions that read a node again, unfolded one level: each goes over the children one by one
and keeps the range. A property that survives another name of a path and a rebuilt node lasts when a
node is read again (`Node.Lasting`). -/

namespace ConcreteSyntax.Node

/-! ### Paths -/

theorem namesAsTypes_eq_map (children : List Child) :
    namesAsTypes children =
      children.map fun c => if c.1 = some .name then (c.1, c.2.asType) else c := by
  induction children with
  | nil => simp [namesAsTypes]
  | cons c children ih =>
    obtain ⟨label, n⟩ := c
    unfold namesAsTypes
    split
    · simp_all
    · next heq => simp_all
    · next hname heq =>
      obtain ⟨rfl, rfl⟩ := List.cons.inj heq
      have : label ≠ some .name := fun h => hname n (by rw [h])
      simp [this, ih]

theorem functionsAsTypes_eq_map (children : List Child) :
    functionsAsTypes children =
      children.map fun c => if c.1 = some .function then (some .type, c.2.asType) else c := by
  induction children with
  | nil => simp [functionsAsTypes]
  | cons c children ih =>
    obtain ⟨label, n⟩ := c
    unfold functionsAsTypes
    split
    · simp_all
    · next heq => simp_all
    · next hname heq =>
      obtain ⟨rfl, rfl⟩ := List.cons.inj heq
      have : label ≠ some .function := fun h => hname n (by rw [h])
      simp [this, ih]

theorem namesAsPaths_eq_map (children : List Child) :
    namesAsPaths children =
      children.map fun c => if c.1 = some .name then (c.1, c.2.asPath) else c := by
  induction children with
  | nil => simp [namesAsPaths]
  | cons c children ih =>
    obtain ⟨label, n⟩ := c
    unfold namesAsPaths
    split
    · simp_all
    · next heq => simp_all
    · next hname heq =>
      obtain ⟨rfl, rfl⟩ := List.cons.inj heq
      have : label ≠ some .name := fun h => hname n (by rw [h])
      simp [this, ih]

/-- A path read as one of a type: under another kind, with its name or its path read again, or as it
was. -/
theorem asType_cases (n : Node) :
    (n.kind = .identifier ∧ n.asType = n.withKind .typeIdentifier) ∨
    (n.kind = .scopedIdentifier ∧
      n.asType = rebuild n .scopedTypeIdentifier { ambiguous := n.flags.ambiguous }
        (n.children.map fun c => if c.1 = some .name then (c.1, c.2.asType) else c)) ∨
    (n.kind = .genericFunction ∧
      n.asType = rebuild n .genericType {}
        (n.children.map fun c => if c.1 = some .function then (some .type, c.2.asType) else c)) ∨
    n.asType = n := by
  rw [asType.eq_def n]
  split
  · exact .inl ⟨rfl, rfl⟩
  · exact .inr (.inl ⟨rfl, by rw [namesAsTypes_eq_map]⟩)
  · exact .inr (.inr (.inl ⟨rfl, by rw [functionsAsTypes_eq_map]⟩))
  · exact .inr (.inr (.inr rfl))

theorem asPath_cases (n : Node) :
    (n.kind = .typeIdentifier ∧ n.asPath = n.withKind .identifier) ∨
    (n.kind = .scopedTypeIdentifier ∧
      n.asPath = rebuild n .scopedIdentifier { ambiguous := n.flags.ambiguous }
        (n.children.map fun c => if c.1 = some .name then (c.1, c.2.asPath) else c)) ∨
    n.asPath = n := by
  rw [asPath.eq_def n]
  split
  · exact .inl ⟨rfl, rfl⟩
  · exact .inr (.inl ⟨rfl, by rw [namesAsPaths_eq_map]⟩)
  · exact .inr (.inr rfl)

theorem asType_eq_or (n : Node) : n.asType = n ∨ n.asType.kind.isReread = true := by
  rcases n.asType_cases with ⟨-, h⟩ | ⟨-, h⟩ | ⟨-, h⟩ | h
  · exact .inr (by rw [h]; rfl)
  · exact .inr (by rw [h]; rfl)
  · exact .inr (by rw [h]; rfl)
  · exact .inl h

theorem asPath_eq_or (n : Node) : n.asPath = n ∨ n.asPath.kind.isReread = true := by
  rcases n.asPath_cases with ⟨-, h⟩ | ⟨-, h⟩ | h
  · exact .inr (by rw [h]; rfl)
  · exact .inr (by rw [h]; rfl)
  · exact .inl h

theorem asType_range (n : Node) : n.asType.range = n.range := by
  rcases n.asType_cases with ⟨-, h⟩ | ⟨-, h⟩ | ⟨-, h⟩ | h <;> rw [h] <;> rfl

theorem asPath_range (n : Node) : n.asPath.range = n.range := by
  rcases n.asPath_cases with ⟨-, h⟩ | ⟨-, h⟩ | h <;> rw [h] <;> rfl

/-! ### Conditions -/

theorem conjunctsOf_eq_flatMap (children : List Child) :
    conjunctsOf children =
      children.flatMap fun c => if isOperand c.1 then c.2.conjuncts else [c.2] := by
  induction children with
  | nil => simp [conjunctsOf]
  | cons c children ih => simp [conjunctsOf, ih]

theorem conjuncts_eq (n : Node) :
    n.conjuncts =
      if n.isConjunction then
        n.children.flatMap fun c => if isOperand c.1 then c.2.conjuncts else [c.2]
      else [n] := by
  obtain ⟨kind, range, flags, children⟩ := n
  rw [conjuncts, conjunctsOf_eq_flatMap]

/-- A condition is read as a chain of its conjuncts, or as it was. -/
theorem asLetChain_cases (n : Node) :
    n.asLetChain = rebuild n .letChain {} (n.conjuncts.map fun part => (none, part)) ∧
      n.isConjunction = true ∨ n.asLetChain = n := by
  unfold asLetChain
  split
  · next h => exact .inl ⟨rfl, (Bool.and_eq_true_iff.1 h).1⟩
  · exact .inr rfl

theorem asLetChain_eq_or (n : Node) : n.asLetChain = n ∨ n.asLetChain.kind.isReread = true := by
  rcases n.asLetChain_cases with ⟨h, -⟩ | h
  · exact .inr (by rw [h]; rfl)
  · exact .inl h

theorem asLetChain_range (n : Node) : n.asLetChain.range = n.range := by
  rcases n.asLetChain_cases with ⟨h, -⟩ | h
  · rw [h]
    rfl
  · rw [h]

/-! ### What lasts -/

/-- A property of nodes that lasts when a node is read again. -/
structure Lasting (P : Node → Prop) : Prop where
  children {n : Node} (h : P n) : ∀ c ∈ n.children, P c.2
  renamed {n : Node} {kind : Kind} (hn : n.kind.isPathEnd = true) (hk : kind.isPathEnd = true)
    (h : P n) : P (n.withKind kind)
  rebuilt {n : Node} {kind : Kind} {ambiguous : Bool} {children : List Child}
    (hk : kind.isReread = true) (h : ∀ c ∈ children, P c.2) :
    P (rebuild n kind { ambiguous } children)

/-- The children of a node, some of them read again. -/
theorem forall_mem_again {P : Node → Prop} {children : List Child} {p : Child → Prop}
    [DecidablePred p] {label : Child → Option Field} {again : Node → Node}
    (h : ∀ c ∈ children, P c.2) (ha : ∀ c ∈ children, P (again c.2)) :
    ∀ c ∈ children.map fun c => if p c then (label c, again c.2) else c, P c.2 := by
  intro c hc
  obtain ⟨c', hc', rfl⟩ := List.mem_map.1 hc
  split
  · exact ha c' hc'
  · exact h c' hc'

namespace Lasting

variable {P : Node → Prop} (hP : Lasting P)
include hP

theorem asType {n : Node} (h : P n) : P n.asType := by
  induction n using Node.induction with
  | step n ih =>
    have hchildren := hP.children h
    have hagain : ∀ c ∈ n.children, P c.2.asType := fun c hc => ih c hc (hchildren c hc)
    rcases n.asType_cases with ⟨hk, he⟩ | ⟨-, he⟩ | ⟨-, he⟩ | he <;> rw [he]
    · exact hP.renamed (by rw [hk]; rfl) rfl h
    · exact hP.rebuilt rfl (forall_mem_again hchildren hagain)
    · exact hP.rebuilt rfl (forall_mem_again hchildren hagain)
    · exact h

theorem asPath {n : Node} (h : P n) : P n.asPath := by
  induction n using Node.induction with
  | step n ih =>
    have hchildren := hP.children h
    have hagain : ∀ c ∈ n.children, P c.2.asPath := fun c hc => ih c hc (hchildren c hc)
    rcases n.asPath_cases with ⟨hk, he⟩ | ⟨-, he⟩ | he <;> rw [he]
    · exact hP.renamed (by rw [hk]; rfl) rfl h
    · exact hP.rebuilt rfl (forall_mem_again hchildren hagain)
    · exact h

theorem conjuncts {n : Node} (h : P n) : ∀ part ∈ n.conjuncts, P part := by
  induction n using Node.induction with
  | step n ih =>
    intro part hpart
    rw [conjuncts_eq] at hpart
    split at hpart
    · obtain ⟨c, hc, hpart⟩ := List.mem_flatMap.1 hpart
      have hchild := hP.children h c hc
      split at hpart
      · exact ih c hc hchild part hpart
      · exact List.mem_singleton.1 hpart ▸ hchild
    · exact List.mem_singleton.1 hpart ▸ h

theorem asLetChain {n : Node} (h : P n) : P n.asLetChain := by
  rcases n.asLetChain_cases with ⟨he, -⟩ | he <;> rw [he]
  · refine hP.rebuilt rfl fun c hc => ?_
    obtain ⟨part, hpart, rfl⟩ := List.mem_map.1 hc
    exact hP.conjuncts h part hpart
  · exact h

end Lasting

end ConcreteSyntax.Node
