import ConcreteSyntax.Proofs.Node.Preorder
import Mathlib.Data.List.Basic

/-! # Places in a tree

A node of a tree is known by its path, the indices of the children to go on into from the root: one
node is above another just if its path is a front of the other's. The nodes of a preorder are those
that some path leads to (`Node.mem_preorder_iff`); `Node.paths` lists their paths, each once and in
order (`Node.mem_paths_iff`, `Node.pairwise_paths`). -/

namespace ConcreteSyntax

namespace Node

/-- What a path leads to from a node that its parent labels `label`: a node, with its own label. -/
def reach? (label : Option Field) (n : Node) : List Nat → Option Child
  | [] => some (label, n)
  | i :: path => n.children[i]?.bind fun c => c.2.reach? c.1 path

/-- The node that a path leads to. -/
def at? (n : Node) (path : List Nat) : Option Node := (n.reach? none path).map (·.2)

theorem map_reach? (label : Option Field) (n : Node) (path : List Nat) :
    (n.reach? label path).map (·.2) = n.at? path := by
  cases path <;> rfl

@[simp] theorem at?_nil (n : Node) : n.at? [] = some n := rfl

@[simp] theorem at?_cons (n : Node) (i : Nat) (path : List Nat) :
    n.at? (i :: path) = n.children[i]?.bind (·.2.at? path) := by
  rw [at?, reach?]
  cases n.children[i]? with
  | none => rfl
  | some c => exact map_reach? c.1 c.2 path

theorem at?_append (n : Node) (path more : List Nat) :
    n.at? (path ++ more) = (n.at? path).bind (·.at? more) := by
  induction path generalizing n with
  | nil => rfl
  | cons i path ih =>
    rw [List.cons_append, at?_cons, at?_cons, Option.bind_assoc]
    simp only [ih]

/-- Below the node where a path begins, the label is the one that the parent gives. -/
theorem reach?_concat (label : Option Field) (n : Node) (path : List Nat) (i : Nat) :
    n.reach? label (path ++ [i]) = (n.at? path).bind (·.children[i]?) := by
  induction path generalizing label n with
  | nil =>
    rw [List.nil_append, reach?, at?_nil, Option.bind_some]
    cases n.children[i]? <;> rfl
  | cons j path ih =>
    rw [List.cons_append, reach?, at?_cons, Option.bind_assoc]
    simp only [ih]

/-- The nodes below a node are those that some path leads to. -/
theorem mem_preorder_iff {n m : Node} : m ∈ n.preorder ↔ ∃ path, n.at? path = some m := by
  induction n using Node.induction with
  | step n ih =>
    rw [preorder_eq, List.mem_cons, List.mem_flatMap]
    constructor
    · rintro (rfl | ⟨c, hc, hm⟩)
      · exact ⟨[], rfl⟩
      · obtain ⟨i, hi⟩ := List.getElem?_of_mem hc
        obtain ⟨path, hpath⟩ := (ih c hc).1 hm
        exact ⟨i :: path, by rw [at?_cons, hi, Option.bind_some, hpath]⟩
    · rintro ⟨_ | ⟨i, path⟩, hpath⟩
      · exact .inl (Option.some.inj hpath).symm
      · rw [at?_cons] at hpath
        obtain ⟨c, hi, hpath⟩ := Option.bind_eq_some_iff.1 hpath
        have hc := List.mem_of_getElem? hi
        exact .inr ⟨c, hc, (ih c hc).2 ⟨path, hpath⟩⟩

end Node

/-! ### All paths -/

mutual

/-- The paths from a node to itself and to all nodes under it, parents first. -/
def Node.paths : Node → List (List Nat)
  | ⟨_, _, _, children⟩ => [] :: Node.pathsFrom 0 children

/-- The paths into children that stand in a row from index `i` on. -/
def Node.pathsFrom (i : Nat) : List (Option Field × Node) → List (List Nat)
  | [] => []
  | (_, child) :: more => child.paths.map (i :: ·) ++ Node.pathsFrom (i + 1) more

end

/-- The elements of a list one after another, with their indices or without. -/
theorem flatMap_zipIdx {α β : Type} {l : List α} {f : α × Nat → List β} {g : α → List β}
    (h : ∀ x i, l[i]? = some x → f (x, i) = g x) : l.zipIdx.flatMap f = l.flatMap g := by
  have hmem (xi : α × Nat) (hxi : xi ∈ l.zipIdx) : f xi = g xi.1 :=
    h xi.1 xi.2 (List.mem_zipIdx_iff_getElem?.1 hxi)
  rw [List.flatMap_congr hmem, ← List.flatMap_map, List.zipIdx_map_fst]

namespace Node

theorem pathsFrom_eq (i : Nat) (children : List Child) :
    pathsFrom i children = (children.zipIdx i).flatMap fun ci => ci.1.2.paths.map (ci.2 :: ·) := by
  induction children generalizing i with
  | nil => rw [pathsFrom, List.zipIdx_nil, List.flatMap_nil]
  | cons c children ih => rw [pathsFrom, ih, List.zipIdx_cons, List.flatMap_cons]

theorem paths_eq (n : Node) :
    n.paths = [] :: n.children.zipIdx.flatMap fun ci => ci.1.2.paths.map (ci.2 :: ·) := by
  obtain ⟨kind, range, flags, children⟩ := n
  rw [paths, pathsFrom_eq]

/-- Just those paths are listed that lead somewhere. -/
theorem mem_paths_iff {n : Node} {path : List Nat} : path ∈ n.paths ↔ (n.at? path).isSome = true := by
  induction path generalizing n with
  | nil =>
    rw [paths_eq]
    simp
  | cons i path ih =>
    rw [paths_eq, at?_cons]
    simp only [List.mem_cons, reduceCtorEq, false_or, List.mem_flatMap, List.mem_map,
      List.cons.injEq, Prod.exists, List.mem_zipIdx_iff_getElem?]
    constructor
    · rintro ⟨label, child, j, hj, path', hmem, rfl, rfl⟩
      rw [hj]
      exact ih.1 hmem
    · intro h
      cases hi : n.children[i]? with
      | none => simp [hi] at h
      | some c => exact ⟨c.1, c.2, i, hi, path, ih.2 (by simpa [hi] using h), rfl, rfl⟩

/-- The paths are listed in order: a node before those below it, and what is below one child before
what is below the next. -/
theorem pairwise_paths (n : Node) : n.paths.Pairwise (· < ·) := by
  induction n using Node.induction with
  | step n ih =>
    have hindices : n.children.zipIdx.Pairwise fun ci dj => ci.2 < dj.2 := by
      rw [← List.pairwise_map, List.zipIdx_map_snd]
      exact List.pairwise_lt_range'
    rw [paths_eq, List.pairwise_cons, List.pairwise_flatMap]
    refine ⟨fun path hpath => ?_, fun ci hci => ?_, hindices.imp fun hlt => ?_⟩
    · obtain ⟨ci, -, hpath⟩ := List.mem_flatMap.1 hpath
      obtain ⟨path, -, rfl⟩ := List.mem_map.1 hpath
      exact List.nil_lt_cons _ _
    · rw [List.pairwise_map]
      exact (ih ci.1 (List.fst_mem_of_mem_zipIdx hci)).imp List.cons_lt_cons_self.2
    · simp only [List.forall_mem_map]
      exact fun path _ path' _ => List.Lex.rel hlt

/-- What a preorder yields stands at all paths, in order. -/
theorem map_at?_paths (n : Node) : n.paths.map n.at? = n.preorder.map some := by
  induction n using Node.induction with
  | step n ih =>
    rw [paths_eq, preorder_eq, List.map_cons, List.map_cons, at?_nil, List.map_flatMap,
      List.map_flatMap]
    refine congrArg _ (flatMap_zipIdx fun c i hi => ?_)
    rw [List.map_map, ← ih c (List.mem_of_getElem? hi)]
    exact List.map_congr_left fun path _ => by simp [hi]

end Node

end ConcreteSyntax
