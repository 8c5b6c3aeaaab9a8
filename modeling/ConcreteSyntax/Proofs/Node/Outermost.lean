import ConcreteSyntax.Proofs.Node.Preorder
import ConcreteSyntax.Proofs.Node.Tiled

/-! # Outermost nodes

Of the nodes that a property picks, at a node and below it, the *outermost* ones are those that lie
below no other (`Node.outermost`). In a tiled tree they stand one behind the other
(`Node.Tiled.outermost`), so some bytes lie in at most one of them. -/

namespace ConcreteSyntax

/-! ### Ranges in ranges -/

namespace Range

theorem covers_iff {r s : Range} : r.covers s = true ↔ r.start ≤ s.start ∧ s.stop ≤ r.stop := by
  simp [covers]

theorem covers_refl (r : Range) : r.covers r = true :=
  covers_iff.2 ⟨Nat.le_refl _, Nat.le_refl _⟩

theorem covers_trans {r s t : Range} (h : r.covers s = true) (h' : s.covers t = true) :
    r.covers t = true := by
  rw [covers_iff] at *
  omega

/-- Some bytes lie in at most one of several ranges that stand one behind the other. -/
theorem countP_covers {rs : List Range} (h : rs.Pairwise fun r s => r.stop ≤ s.start) {t : Range}
    (ht : t.start < t.stop) (hin : ∃ r ∈ rs, r.covers t = true) :
    rs.countP (·.covers t) = 1 := by
  induction rs with
  | nil => simp at hin
  | cons r rs ih =>
    obtain ⟨hr, hrs⟩ := List.pairwise_cons.1 h
    by_cases hc : r.covers t = true
    · have hnone : rs.countP (·.covers t) = 0 := by
        refine List.countP_eq_zero.2 fun s hs hcover => ?_
        have hbehind := hr s hs
        rw [covers_iff] at hc hcover
        omega
      rw [List.countP_cons, hnone, if_pos hc]
    · rw [List.countP_cons, if_neg hc]
      obtain ⟨s, hs, hcover⟩ := hin
      rcases List.mem_cons.1 hs with rfl | hs
      · exact absurd hcover hc
      · exact ih hrs ⟨s, hs, hcover⟩

end Range

/-! ### Picking nodes -/

mutual

/-- The outermost nodes that `picks` holds of, at a node or below it. -/
def Node.outermost (picks : Node → Bool) : Node → List Node
  | ⟨kind, range, flags, children⟩ =>
    if picks ⟨kind, range, flags, children⟩ then [⟨kind, range, flags, children⟩]
    else Node.outermostAll picks children

/-- The outermost nodes that `picks` holds of, at some children or below them. -/
def Node.outermostAll (picks : Node → Bool) : List (Option Field × Node) → List Node
  | [] => []
  | (_, n) :: more => n.outermost picks ++ Node.outermostAll picks more

end

namespace Node

variable {picks : Node → Bool}

theorem outermostAll_eq (children : List Child) :
    outermostAll picks children = children.flatMap (·.2.outermost picks) := by
  induction children with
  | nil => rfl
  | cons c children ih => rw [outermostAll, ih, List.flatMap_cons]

theorem outermost_eq (n : Node) :
    n.outermost picks = if picks n then [n] else n.children.flatMap (·.2.outermost picks) := by
  obtain ⟨kind, range, flags, children⟩ := n
  rw [outermost, outermostAll_eq]

/-! ### In a row -/

variable {text : List Char} {whole : Prop}

/-- Nodes stand one behind the other, between two places. -/
def InOrder (a : Nat) (ns : List Node) (b : Nat) : Prop :=
  (∀ n ∈ ns, a ≤ n.range.start ∧ n.range.stop ≤ b) ∧
    ns.Pairwise fun m n => m.range.stop ≤ n.range.start

theorem inOrder_singleton (n : Node) : InOrder n.range.start [n] n.range.stop :=
  ⟨fun _ hm => List.mem_singleton.1 hm ▸ ⟨Nat.le_refl _, Nat.le_refl _⟩, List.pairwise_singleton _ _⟩

/-- The nodes of a row stand in it. -/
theorem inOrder_of_row {children : List Child} {a b : Nat} (h : Row text whole a children b) :
    InOrder a (children.map (·.2)) b := by
  induction children generalizing a with
  | nil => exact ⟨nofun, .nil⟩
  | cons c children ih =>
    obtain ⟨hg, hle, hrest⟩ := h
    obtain ⟨hwithin, hpairs⟩ := ih hrest
    have hstart := hg.le
    have hstop := hrest.le
    refine ⟨List.forall_mem_cons.2 ⟨⟨hstart, hstop⟩, fun n hn => ?_⟩,
      List.pairwise_cons.2 ⟨fun n hn => (hwithin n hn).1, hpairs⟩⟩
    have := hwithin n hn
    omega

/-- What stands in the ranges of nodes in order is in order. -/
theorem InOrder.flatMap {children : List Child} {parts : Child → List Node} {a b : Nat}
    (h : InOrder a (children.map (·.2)) b)
    (hp : ∀ c ∈ children, InOrder c.2.range.start (parts c) c.2.range.stop) :
    InOrder a (children.flatMap parts) b := by
  obtain ⟨hwithin, hpairs⟩ := h
  rw [List.pairwise_map] at hpairs
  refine ⟨fun n hn => ?_, List.pairwise_flatMap.2 ⟨fun c hc => (hp c hc).2, ?_⟩⟩
  · obtain ⟨c, hc, hn⟩ := List.mem_flatMap.1 hn
    have hchild := hwithin c.2 (List.mem_map_of_mem hc)
    have := (hp c hc).1 n hn
    omega
  · refine hpairs.imp_of_mem fun {c d} hc hd hbehind m hm n hn => ?_
    have := (hp c hc).1 m hm
    have := (hp d hd).1 n hn
    omega

/-- What is picked below the nodes of a row stands in the row. -/
theorem inOrder_flatMap {children : List Child} {parts : Child → List Node} {a b : Nat}
    (h : Row text whole a children b)
    (hp : ∀ c ∈ children, InOrder c.2.range.start (parts c) c.2.range.stop) :
    InOrder a (children.flatMap parts) b :=
  (inOrder_of_row h).flatMap hp

/-- **The outermost nodes of a tiled node** stand in its range, one behind the other. -/
theorem Tiled.outermost {n : Node} (h : n.Tiled text whole) :
    InOrder n.range.start (n.outermost picks) n.range.stop := by
  induction h with
  | @mk n le first row children ih =>
    rw [outermost_eq]
    split
    · exact inOrder_singleton n
    · by_cases hne : n.children = []
      · rw [hne]
        exact ⟨nofun, .nil⟩
      · exact inOrder_flatMap (row hne) ih

end Node

end ConcreteSyntax
