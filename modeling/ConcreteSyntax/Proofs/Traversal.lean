import ConcreteSyntax.Proofs.Node.Place
import ConcreteSyntax.Proofs.Search

/-! # Walks and traversals

A walk goes into a node, over those of its children that are not skipped, and out of the node again
(`Node.visits_eq`); so its steps come in pairs (`Node.paired_visits`), and the nodes that it goes into
are those of the tree without the children that are skipped (`Node.map_entered_visits`,
`Node.entered_visits_prune`). A visitor that skips the same children does, in order, what it does at
these steps and nothing else (`Visitor.Skips.walkChild_eq`).

A walk with a visitor, a preorder with a stack, the number of nodes and the leaves are all about the
same nodes in the same order: those at the paths of the tree (`Node.traversals`). -/

namespace ConcreteSyntax

/-! ### Steps -/

namespace Visit

/-- The node that a step goes into, with the label its parent gives it. -/
def entered? : Visit → Option Child
  | .enter label n => some (label, n)
  | .leave _ => none

/-- The node that a step goes out of. -/
def left? : Visit → Option Node
  | .enter _ _ => none
  | .leave n => some n

/-- Steps in pairs: between the steps into a node and out of it, and behind them, there are only
pairs. -/
inductive Paired : List Visit → Prop
  | nil : Paired []
  | pair (label : Option Field) (n : Node) {inner more : List Visit} (hi : Paired inner)
      (hm : Paired more) : Paired (.enter label n :: (inner ++ .leave n :: more))

namespace Paired

variable {steps more : List Visit}

theorem append (h : Paired steps) (hm : Paired more) : Paired (steps ++ more) := by
  induction h with
  | nil => exact hm
  | pair label n hi _ _ ih =>
    rw [List.cons_append, List.append_assoc, List.cons_append]
    exact .pair label n hi ih

theorem flatMap {α : Type} {l : List α} {f : α → List Visit} (h : ∀ a ∈ l, Paired (f a)) :
    Paired (l.flatMap f) := by
  induction l with
  | nil => exact .nil
  | cons a l ih =>
    obtain ⟨ha, hl⟩ := List.forall_mem_cons.1 h
    exact ha.append (ih hl)

/-- In pairs, just the nodes are left that were entered, each as often. -/
theorem perm (h : Paired steps) :
    (steps.filterMap left?).Perm ((steps.filterMap entered?).map (·.2)) := by
  induction h with
  | nil => exact .nil
  | pair label n _ _ hi hm =>
    simp only [List.filterMap_cons, List.filterMap_append, entered?, left?, List.map_cons,
      List.map_append]
    exact List.perm_middle.trans ((hi.append hm).cons n)

end Paired

end Visit

/-! ### The walk over a node -/

namespace Node

variable {skip : Node → Bool}

/-- The walk over a node that its parent labels `label`. -/
def visits (skip : Node → Bool) (label : Option Field) (n : Node) : List Visit :=
  n.walkOnto skip [] label

/-- The children that a walk goes into. -/
def entrances (skip : Node → Bool) (n : Node) : List Child := if skip n then [] else n.children

theorem mem_entrances {n : Node} {c : Child} (h : c ∈ n.entrances skip) : c ∈ n.children := by
  unfold entrances at h
  split at h
  · exact nomatch h
  · exact h

/-- The children that a walk goes into are at the same places as without the walk. -/
theorem getElem?_entrances {n : Node} {i : Nat} {c : Child} (h : (n.entrances skip)[i]? = some c) :
    n.children[i]? = some c := by
  unfold entrances at h
  split at h
  · exact nomatch h
  · exact h

mutual

theorem walkOnto_eq (rest : List Visit) (label : Option Field) :
    (n : Node) → n.walkOnto skip rest label = n.visits skip label ++ rest
  | ⟨kind, range, flags, children⟩ => by
    rw [visits, walkOnto, walkOnto]
    split
    · rfl
    · rw [walkAllOnto_eq (.leave _ :: rest) children, walkAllOnto_eq [.leave _] children]
      simp

theorem walkAllOnto_eq (rest : List Visit) :
    (children : List Child) →
      walkAllOnto skip rest children = children.flatMap (fun c => c.2.visits skip c.1) ++ rest
  | [] => by rw [walkAllOnto, List.flatMap_nil, List.nil_append]
  | (label, n) :: more => by
    rw [walkAllOnto, walkOnto_eq _ label n, walkAllOnto_eq rest more, List.flatMap_cons,
      List.append_assoc]

end

/-- A walk goes into a node, over its children, and out of it. -/
theorem visits_eq (label : Option Field) (n : Node) :
    n.visits skip label = .enter label n ::
      ((n.entrances skip).flatMap (fun c => c.2.visits skip c.1) ++ [.leave n]) := by
  obtain ⟨kind, range, flags, children⟩ := n
  rw [visits, walkOnto, entrances]
  split
  · rfl
  · rw [walkAllOnto_eq]

theorem paired_visits (label : Option Field) (n : Node) : Visit.Paired (n.visits skip label) := by
  induction n using Node.induction generalizing label with
  | step n ih =>
    rw [visits_eq]
    exact .pair label n (.flatMap fun c hc => ih c (mem_entrances hc) c.1) .nil

/-- The nodes that a walk goes into. -/
theorem entered_visits (label : Option Field) (n : Node) :
    (n.visits skip label).filterMap Visit.entered? = (label, n) ::
      (n.entrances skip).flatMap fun c => (c.2.visits skip c.1).filterMap Visit.entered? := by
  rw [visits_eq]
  simp only [List.filterMap_cons, List.filterMap_append, List.filterMap_flatMap, List.filterMap_nil,
    List.append_nil, Visit.entered?]

/-- The nodes that a walk goes out of. -/
theorem left_visits (label : Option Field) (n : Node) :
    (n.visits skip label).filterMap Visit.left? =
      (n.entrances skip).flatMap (fun c => (c.2.visits skip c.1).filterMap Visit.left?) ++ [n] := by
  rw [visits_eq]
  simp only [List.filterMap_cons, List.filterMap_append, List.filterMap_flatMap, List.filterMap_nil,
    Visit.left?]

/-! ### Without the children that are skipped -/

end Node

mutual

/-- A node without the children that `skip` leaves out, at the node and below it. -/
def Node.prune (skip : Node → Bool) : Node → Node
  | ⟨kind, range, flags, children⟩ =>
    ⟨kind, range, flags,
      if skip ⟨kind, range, flags, children⟩ then [] else Node.pruneAll skip children⟩

/-- Children, each without those below it that `skip` leaves out. -/
def Node.pruneAll (skip : Node → Bool) : List (Option Field × Node) → List (Option Field × Node)
  | [] => []
  | (label, child) :: more => (label, child.prune skip) :: Node.pruneAll skip more

end

namespace Node

variable {skip : Node → Bool}

theorem pruneAll_eq (children : List Child) :
    pruneAll skip children = children.map fun c => (c.1, c.2.prune skip) := by
  induction children with
  | nil => rw [pruneAll, List.map_nil]
  | cons c children ih => rw [pruneAll, ih, List.map_cons]

theorem children_prune (n : Node) :
    (n.prune skip).children = (n.entrances skip).map fun c => (c.1, c.2.prune skip) := by
  obtain ⟨kind, range, flags, children⟩ := n
  rw [prune, entrances]
  split
  · rfl
  · exact pruneAll_eq children

/-- A walk goes into the nodes that stand where the pruned tree has some, with their labels. -/
theorem map_entered_visits (label : Option Field) (n : Node) :
    ((n.visits skip label).filterMap Visit.entered?).map some =
      (n.prune skip).paths.map (n.reach? label) := by
  induction n using Node.induction generalizing label with
  | step n ih =>
    rw [entered_visits, paths_eq, children_prune, List.zipIdx_map, List.flatMap_map, List.map_cons,
      List.map_cons, reach?, List.map_flatMap, List.map_flatMap]
    refine congrArg _ (flatMap_zipIdx fun c i hi => ?_).symm
    have hc := getElem?_entrances hi
    rw [ih c (List.mem_of_getElem? hc), List.map_map]
    exact List.map_congr_left fun path _ => by simp [reach?, hc]

/-- What a preorder of the pruned tree yields are the nodes that the walk goes into, pruned. -/
theorem entered_visits_prune (label : Option Field) (n : Node) :
    ((n.visits skip label).filterMap Visit.entered?).map (fun c => c.2.prune skip) =
      (n.prune skip).preorder := by
  induction n using Node.induction generalizing label with
  | step n ih =>
    rw [entered_visits, preorder_eq, children_prune, List.flatMap_map, List.map_cons,
      List.map_flatMap]
    exact congrArg _ (List.flatMap_congr fun c hc => ih c (mem_entrances hc) c.1)

/-! ### Without skipping -/

theorem entrances_all (n : Node) : n.entrances (fun _ => false) = n.children := rfl

/-- A walk that skips nothing goes into all nodes, in preorder. -/
theorem entered_visits_all (label : Option Field) (n : Node) :
    ((n.visits (fun _ => false) label).filterMap Visit.entered?).map (·.2) = n.preorder := by
  induction n using Node.induction generalizing label with
  | step n ih =>
    rw [entered_visits, preorder_eq, List.map_cons, List.map_flatMap, entrances_all]
    exact congrArg _ (List.flatMap_congr fun c hc => ih c hc c.1)

end Node

mutual

/-- A node and everything under it, children first. -/
def Node.bottomUp : Node → List Node
  | ⟨kind, range, flags, children⟩ => Node.bottomUpAll children ++ [⟨kind, range, flags, children⟩]

/-- Everything under some children, with the children, children first. -/
def Node.bottomUpAll : List (Option Field × Node) → List Node
  | [] => []
  | (_, child) :: more => child.bottomUp ++ Node.bottomUpAll more

end

namespace Node

theorem bottomUpAll_eq (children : List Child) :
    bottomUpAll children = children.flatMap (·.2.bottomUp) := by
  induction children with
  | nil => rw [bottomUpAll, List.flatMap_nil]
  | cons c children ih => rw [bottomUpAll, ih, List.flatMap_cons]

theorem bottomUp_eq (n : Node) : n.bottomUp = n.children.flatMap (·.2.bottomUp) ++ [n] := by
  obtain ⟨kind, range, flags, children⟩ := n
  rw [bottomUp, bottomUpAll_eq]

/-- A walk that skips nothing goes out of all nodes, children first. -/
theorem left_visits_all (label : Option Field) (n : Node) :
    (n.visits (fun _ => false) label).filterMap Visit.left? = n.bottomUp := by
  induction n using Node.induction generalizing label with
  | step n ih =>
    rw [left_visits, bottomUp_eq, entrances_all, List.flatMap_congr fun c hc => ih c hc c.1]

end Node

/-! ### Visitors -/

namespace Visitor

variable {σ : Type} {v : Visitor σ} {skip : Node → Bool}

/-- Whether a visitor skips the children of just those nodes that `skip` holds of. -/
def Skips (v : Visitor σ) (skip : Node → Bool) : Prop :=
  ∀ n label s, (v.enter n label s).1 = .skipChildren ↔ skip n = true

/-- What a visitor does at a step of a walk. -/
def step (v : Visitor σ) (s : σ) : Visit → σ
  | .enter label n => (v.enter n label s).2
  | .leave n => v.leave n s

theorem walkChildren_eq (v : Visitor σ) (s : σ) (children : List Child) :
    v.walkChildren s children = children.foldl (fun s c => v.walkChild c.1 s c.2) s := by
  induction children generalizing s with
  | nil => rw [walkChildren, List.foldl_nil]
  | cons c children ih => rw [walkChildren, ih, List.foldl_cons]

theorem Skips.walkChild (h : v.Skips skip) (label : Option Field) (s : σ) (n : Node) :
    v.walkChild label s n = v.leave n ((n.entrances skip).foldl (fun s c => v.walkChild c.1 s c.2)
      (v.enter n label s).2) := by
  obtain ⟨kind, range, flags, children⟩ := n
  have hskip := h ⟨kind, range, flags, children⟩ label s
  rw [Visitor.walkChild, Node.entrances]
  dsimp only
  split
  · next hevent =>
    have hskip : skip ⟨kind, range, flags, children⟩ = false :=
      Bool.eq_false_iff.2 fun ht => nomatch hevent.symm.trans (hskip.2 ht)
    rw [hskip, walkChildren_eq]
    rfl
  · next hevent =>
    rw [if_pos (hskip.1 hevent)]
    rfl

/-- A visitor does what it does at the steps of a walk, if it skips what the walk skips. -/
theorem Skips.walkChild_eq (h : v.Skips skip) (label : Option Field) (s : σ) (n : Node) :
    v.walkChild label s n = (n.visits skip label).foldl v.step s := by
  induction n using Node.induction generalizing label s with
  | step n ih =>
    have hchildren : (n.entrances skip).foldl (fun s c => v.walkChild c.1 s c.2)
        (v.enter n label s).2 = (n.entrances skip).foldl
          (fun s c => (c.2.visits skip c.1).foldl v.step s) (v.enter n label s).2 :=
      List.foldl_ext _ _ _ fun s c hc => ih c (Node.mem_entrances hc) c.1 s
    rw [h.walkChild, hchildren, Node.visits_eq, List.foldl_cons, List.foldl_append,
      List.foldl_flatMap]
    rfl

end Visitor

/-! ### The traversals of a node -/

/-- The traversals of a node agree, where `skip` leaves children out and where nothing is left out. -/
structure Node.Traversals (n : Node) (skip : Node → Bool) : Prop where
  /-- A visitor that skips the same children does what it does at the steps of the walk. -/
  visitor : ∀ {σ : Type} (v : Visitor σ), v.Skips skip → ∀ s, v.walk n s = (n.walk skip).foldl v.step s
  /-- The paths of the pruned tree are those that lead somewhere in it, each once and in order. -/
  paths : (n.prune skip).paths.Pairwise (· < ·) ∧
    ∀ path, path ∈ (n.prune skip).paths ↔ ((n.prune skip).at? path).isSome = true
  /-- The walk enters what stands at these paths, in order. -/
  entered : ((n.walk skip).filterMap Visit.entered?).map some =
    (n.prune skip).paths.map (n.reach? none)
  /-- Every node but the first is entered with the label that its parent gives it. -/
  labelled : ∀ path i, n.reach? none (path ++ [i]) = (n.at? path).bind (·.children[i]?)
  /-- The preorder of the pruned tree yields what stands there at these paths. -/
  yielded : (PreorderStack.start (n.prune skip)).toList.map some =
    (n.prune skip).paths.map (n.prune skip).at?
  /-- These are the nodes that the walk enters, pruned. -/
  pruned : (PreorderStack.start (n.prune skip)).toList =
    ((n.walk skip).filterMap Visit.entered?).map fun c => c.2.prune skip
  /-- The steps of the walk are properly nested. -/
  paired : Visit.Paired (n.walk skip)
  /-- Every node is left as often as it is entered. -/
  once : ((n.walk skip).filterMap Visit.left?).Perm
    (((n.walk skip).filterMap Visit.entered?).map (·.2))
  /-- The preorder with a stack is the recursive one. -/
  stack : (PreorderStack.start n).toList = n.preorder
  /-- If nothing is skipped, the nodes are entered in preorder. -/
  preorder : ((n.walk fun _ => false).filterMap Visit.entered?).map (·.2) = n.preorder
  /-- If nothing is skipped, the nodes are left in postorder. -/
  postorder : (n.walk fun _ => false).filterMap Visit.left? = n.bottomUp
  count : n.count = n.preorder.length
  /-- The leaves are the nodes without children, in the order of their paths. -/
  leaves : n.leaves.map some = (n.paths.filter fun p => (n.at? p).any (·.children.isEmpty)).map n.at?
  /-- The leaves of a tree stand in its text one behind the other. -/
  inOrder : ∀ {file source : String} {options : Options},
    n ∈ (Tree.parse file source options).root.preorder →
      n.leaves.Pairwise fun a b => a.range.stop ≤ b.range.start

/-- The leaves of a node are at those paths that lead to one. -/
theorem Node.map_at?_leaves (n : Node) :
    n.leaves.map some = (n.paths.filter fun p => (n.at? p).any (·.children.isEmpty)).map n.at? := by
  have hleaf : (fun m : Node => m.isLeaf) = (Option.any (·.children.isEmpty)) ∘ some := rfl
  rw [leaves, hleaf, ← List.filter_map, ← map_at?_paths, List.filter_map]
  rfl

/-- **The traversals agree**, whatever kinds of nodes a visitor skips the children of. -/
theorem Node.traversals (n : Node) (K : Kind → Bool) : n.Traversals fun m => K m.kind where
  visitor v hv s := hv.walkChild_eq none s n
  paths := ⟨pairwise_paths _, fun _ => mem_paths_iff⟩
  entered := map_entered_visits none n
  labelled := n.reach?_concat none
  yielded := by rw [PreorderStack.toList_start, map_at?_paths]
  pruned := (PreorderStack.toList_start _).trans (entered_visits_prune none n).symm
  paired := paired_visits none n
  once := (paired_visits none n).perm
  stack := PreorderStack.toList_start n
  preorder := entered_visits_all none n
  postorder := left_visits_all none n
  count := n.length_preorder.symm
  leaves := n.map_at?_leaves
  inOrder {file source options} hn :=
    (forall_mem_preorder (fun _ h => h.children) (Tree.nested_parse file source options) n
      hn).leaves.2

end ConcreteSyntax
