import ConcreteSyntax.Proofs.Lossless
import ConcreteSyntax.Proofs.Marks
import ConcreteSyntax.Proofs.Node.Outermost
import ConcreteSyntax.Proofs.Node.Place

/-! # Search by range

The search goes on into the first named child that covers a range and never looks at another one. It
finds the smallest named node around the range all the same, in nodes that are *nested*
(`Node.Nested`): the children stand in the range of their parent, one behind the other, so that some
bytes lie in at most one of them; and what has no name has no children, so that nothing is hidden
below it (`Node.Nested.smallest`). The nodes of a tree are nested (`Tree.nested_parse`), as they are
tiled and marked as they should be, also where a tree is not whole. -/

namespace ConcreteSyntax

/-! ### Nested nodes -/

/-- The children stand in the range of the node, one behind the other, only named nodes have children,
and so on below. -/
inductive Node.Nested : Node → Prop
  | mk {n : Node} (inside : Node.InOrder n.range.start (n.children.map (·.2)) n.range.stop)
      (anonymous : n.isNamed = false → n.children = [])
      (children : ∀ c ∈ n.children, c.2.Nested) : n.Nested

namespace Node

theorem Nested.children {n : Node} (h : n.Nested) : ∀ c ∈ n.children, c.2.Nested := by
  cases h
  assumption

theorem Nested.anonymous {n : Node} (h : n.Nested) : n.isNamed = false → n.children = [] := by
  cases h
  assumption

theorem Nested.covers_child {n : Node} (h : n.Nested) {c : Child} (hc : c ∈ n.children) :
    n.range.covers c.2.range = true := by
  cases h with
  | mk inside => exact Range.covers_iff.2 (inside.1 c.2 (List.mem_map_of_mem hc))

/-- A path leads from a nested node to nested nodes in its range. -/
theorem Nested.at? {n m : Node} {path : List Nat} (h : n.Nested) (hm : n.at? path = some m) :
    m.Nested ∧ n.range.covers m.range = true := by
  induction path generalizing n with
  | nil =>
    obtain rfl : n = m := Option.some.inj hm
    exact ⟨h, Range.covers_refl _⟩
  | cons i path ih =>
    rw [at?_cons] at hm
    obtain ⟨c, hi, hm⟩ := Option.bind_eq_some_iff.1 hm
    have hc := List.mem_of_getElem? hi
    obtain ⟨hnested, hcovers⟩ := ih (h.children c hc) hm
    exact ⟨hnested, Range.covers_trans (h.covers_child hc) hcovers⟩

/-- The leaves of a nested node stand in its range, one behind the other. -/
theorem Nested.leaves {n : Node} (h : n.Nested) : InOrder n.range.start n.leaves n.range.stop := by
  induction h with
  | @mk n inside _ _ ih =>
    rw [leaves_eq]
    split
    · exact inOrder_singleton n
    · exact inside.flatMap ih

/-- Some bytes lie in at most one child. -/
theorem Nested.index_eq {n : Node} (h : n.Nested) {r : Range} (hr : r.start < r.stop) {i j : Nat}
    {c d : Child} (hi : n.children[i]? = some c) (hj : n.children[j]? = some d)
    (hc : c.2.range.covers r = true) (hd : d.2.range.covers r = true) : i = j := by
  obtain ⟨⟨-, apart⟩, -, -⟩ := h
  rw [List.pairwise_map, List.pairwise_iff_getElem] at apart
  obtain ⟨hi', rfl⟩ := List.getElem?_eq_some_iff.1 hi
  obtain ⟨hj', rfl⟩ := List.getElem?_eq_some_iff.1 hj
  rw [Range.covers_iff] at hc hd
  rcases Nat.lt_trichotomy i j with hlt | heq | hlt
  · have := apart i j hi' hj' hlt
    omega
  · exact heq
  · have := apart j i hj' hi' hlt
    omega

/-! ### The search -/

/-- The path from `n` on to the lowest named node around a range. -/
structure Lowest (n : Node) (r : Range) (path : List Nat) (found : Node) : Prop where
  leads : n.at? path = some found
  named : found.isNamed = true
  covers : found.range.covers r = true
  /-- Any other named node around the range is on the way. -/
  above : ∀ path' m, n.at? path' = some m → m.isNamed = true → m.range.covers r = true →
    path' <+: path

/-- What a search from `n` on finds: the smallest named node around a range, at `n` or below it. -/
structure Smallest (n : Node) (r : Range) (found : Node) : Prop where
  /-- It is a named node around the range, and any other one is above it. -/
  lowest : ∃ path, n.Lowest r path found
  /-- No named node around the range has a smaller range. -/
  least : ∀ m ∈ n.preorder, m.isNamed = true → m.range.covers r = true →
    m.range.covers found.range = true

theorem smallestAmong_eq (r : Range) (children : List Child) :
    smallestAmong r children = (children.find? fun c => c.2.isNamed && c.2.range.covers r).map
      (·.2.smallestAround r) := by
  induction children with
  | nil => rw [smallestAmong, List.find?_nil, Option.map_none]
  | cons c children ih =>
    rw [smallestAmong, List.find?_cons]
    cases hc : c.2.isNamed && c.2.range.covers r with
    | false => exact ih
    | true => rfl

/-- The search goes on into a named child around the range, or ends where there is none. -/
theorem smallestAround_cases (n : Node) (r : Range) :
    (∃ (i : Nat) (c : Child), n.children[i]? = some c ∧ c.2.isNamed = true ∧
      c.2.range.covers r = true ∧ n.smallestAround r = c.2.smallestAround r) ∨
    ((∀ c ∈ n.children, c.2.isNamed = true → c.2.range.covers r = false) ∧
      n.smallestAround r = n) := by
  have heq : n.smallestAround r =
      ((n.children.find? fun c => c.2.isNamed && c.2.range.covers r).map
        (·.2.smallestAround r)).getD n := by
    rw [← smallestAmong_eq]
    obtain ⟨kind, range, flags, children⟩ := n
    rw [smallestAround]
  cases hfind : n.children.find? fun c => c.2.isNamed && c.2.range.covers r with
  | none =>
    rw [hfind] at heq
    refine .inr ⟨fun c hc hnamed => ?_, heq⟩
    simpa [hnamed] using List.find?_eq_none.1 hfind c hc
  | some c =>
    rw [hfind] at heq
    have hfits := List.find?_some hfind
    rw [Bool.and_eq_true] at hfits
    obtain ⟨i, hi⟩ := List.getElem?_of_mem (List.mem_of_find?_eq_some hfind)
    exact .inl ⟨i, c, hi, hfits.1, hfits.2, heq⟩

section Lowest

variable {n : Node} {r : Range}

/-- A named node around the range is the lowest one if no named child is around it. -/
theorem Nested.lowest_self (h : n.Nested) (hn : n.isNamed = true) (hc : n.range.covers r = true)
    (hnone : ∀ c ∈ n.children, c.2.isNamed = true → c.2.range.covers r = false) :
    n.Lowest r [] n := by
  refine ⟨rfl, hn, hc, ?_⟩
  rintro (_ | ⟨i, path⟩) m hm hmnamed hmcovers
  · exact List.nil_prefix
  · -- the child on the way is around the range, so it has no name, and nothing is below it
    rw [at?_cons] at hm
    obtain ⟨d, hi, hm⟩ := Option.bind_eq_some_iff.1 hm
    have hmem := List.mem_of_getElem? hi
    have hd := Range.covers_trans ((h.children d hmem).at? hm).2 hmcovers
    have hdnamed : d.2.isNamed = false :=
      Bool.eq_false_iff.2 fun hdnamed => Bool.eq_false_iff.1 (hnone d hmem hdnamed) hd
    have hleaf := (h.children d hmem).anonymous hdnamed
    cases path with
    | nil =>
      obtain rfl : d.2 = m := Option.some.inj hm
      exact absurd (hmnamed.symm.trans hdnamed) nofun
    | cons j path => simp [hleaf] at hm

/-- The lowest node below a child around some bytes is the lowest one of all. -/
theorem Nested.lowest_child (h : n.Nested) (hr : r.start < r.stop) {i : Nat} {c : Child}
    (hi : n.children[i]? = some c) (hc : c.2.range.covers r = true) {path : List Nat} {found : Node}
    (hfound : c.2.Lowest r path found) : n.Lowest r (i :: path) found := by
  obtain ⟨hleads, hnamed, hcovers, habove⟩ := hfound
  refine ⟨by rw [at?_cons, hi, Option.bind_some, hleads], hnamed, hcovers, ?_⟩
  rintro (_ | ⟨j, path'⟩) m hm hmnamed hmcovers
  · exact List.nil_prefix
  · rw [at?_cons] at hm
    obtain ⟨d, hj, hm⟩ := Option.bind_eq_some_iff.1 hm
    have hd := ((h.children d (List.mem_of_getElem? hj)).at? hm).2
    obtain rfl := h.index_eq hr hi hj hc (Range.covers_trans hd hmcovers)
    obtain rfl := Option.some.inj (hi.symm.trans hj)
    exact List.cons_prefix_cons.2 ⟨rfl, habove path' m hm hmnamed hmcovers⟩

theorem Nested.exists_lowest (h : n.Nested) (hn : n.isNamed = true) (hr : r.start < r.stop)
    (hc : n.range.covers r = true) : ∃ path, n.Lowest r path (n.smallestAround r) := by
  induction h with
  | @mk n inside anonymous children ih =>
    have hnested : n.Nested := ⟨inside, anonymous, children⟩
    rcases n.smallestAround_cases r with ⟨i, c, hi, hnamed, hcovers, heq⟩ | ⟨hnone, heq⟩ <;> rw [heq]
    · obtain ⟨path, hpath⟩ := ih c (List.mem_of_getElem? hi) hnamed hcovers
      exact ⟨i :: path, hnested.lowest_child hr hi hcovers hpath⟩
    · exact ⟨[], hnested.lowest_self hn hc hnone⟩

/-- **The search finds the smallest named node** around some bytes of a nested node. -/
theorem Nested.smallest (h : n.Nested) (hn : n.isNamed = true) (hr : r.start < r.stop)
    (hc : n.range.covers r = true) : n.Smallest r (n.smallestAround r) := by
  obtain ⟨path, hpath⟩ := h.exists_lowest hn hr hc
  refine ⟨⟨path, hpath⟩, fun m hm hmnamed hmcovers => ?_⟩
  obtain ⟨path', hm⟩ := mem_preorder_iff.1 hm
  obtain ⟨more, rfl⟩ := hpath.above path' m hm hmnamed hmcovers
  have hbelow := hpath.leads
  rw [at?_append, hm, Option.bind_some] at hbelow
  exact ((h.at? hm).1.at? hbelow).2

end Lowest

/-! ### Trees -/

variable {text : List Char} {whole : Prop}

/-- Marked nodes in a row are nested in a marked node around the row. -/
theorem nested_of_row {n : Node} (hm : n.Marked) {e : Nat}
    (hrow : Row text whole n.range.start n.children e) (he : e ≤ n.range.stop)
    (hc : ∀ c ∈ n.children, c.2.Nested) : n.Nested := by
  obtain ⟨hwithin, hpairs⟩ := inOrder_of_row hrow
  exact ⟨⟨fun m hm => ⟨(hwithin m hm).1, Nat.le_trans (hwithin m hm).2 he⟩, hpairs⟩,
    hm.anonymous, hc⟩

theorem Tiled.nested {n : Node} (h : n.Tiled text whole) (hm : n.Marked) : n.Nested := by
  induction h with
  | @mk n le first row children ih =>
    by_cases hne : n.children = []
    · exact ⟨by rw [hne]; exact ⟨nofun, .nil⟩, hm.anonymous, by rw [hne]; nofun⟩
    · exact nested_of_row hm (row hne) (Nat.le_refl _) fun c hc => ih c hc (hm.children c hc)

end Node

namespace Tree

/-- All nodes of a tree are nested, whatever was left out of it. -/
theorem nested_parse (file source : String) (options : Options) :
    (parse file source options).root.Nested := by
  have hm := marked_parse file source options
  obtain ⟨s, hrun, htree⟩ := parse_ends file source options
  obtain ⟨e, htiles, hg⟩ := Setting.run_tiled (hrun false)
  rw [htree] at hm ⊢
  exact Node.nested_of_row hm htiles.row hg.le fun c hc =>
    (htiles.tiled c hc).nested (hm.children c hc)

/-- **The smallest node around a range.** From a named node of a tree around some bytes, the search
finds a named node around them; every named node around them, at the node where the search begins or
below it, is the one that was found or one above it, so none has a smaller range. -/
theorem smallest_parse {file source : String} {options : Options} {n : Node} {r : Range}
    (hn : n ∈ (parse file source options).root.preorder) (hnamed : n.isNamed = true)
    (hr : r.start < r.stop) (hc : n.range.covers r = true) :
    n.Smallest r (n.smallestAround r) :=
  (Node.forall_mem_preorder (fun _ h => h.children) (nested_parse file source options) n hn).smallest
    hnamed hr hc

/-- The name of a function is found from the root, by one of its bytes. -/
theorem smallest_parse_name :
    (parse "f.rs" "fn go() \x7b" {}).root ∈ (parse "f.rs" "fn go() \x7b" {}).root.preorder ∧
      (parse "f.rs" "fn go() \x7b" {}).root.isNamed = true ∧ (4 < 5) ∧
      (parse "f.rs" "fn go() \x7b" {}).root.range.covers ⟨4, 5⟩ = true ∧
      (parse "f.rs" "fn go() \x7b" {}).root.Smallest ⟨4, 5⟩
        ((parse "f.rs" "fn go() \x7b" {}).root.smallestAround ⟨4, 5⟩) := by
  have hn : (parse "f.rs" "fn go() \x7b" {}).root ∈
      (parse "f.rs" "fn go() \x7b" {}).root.preorder := Node.mem_preorder_iff.2 ⟨[], rfl⟩
  have hnamed : (parse "f.rs" "fn go() \x7b" {}).root.isNamed = true := by decide +kernel
  have hc : (parse "f.rs" "fn go() \x7b" {}).root.range.covers ⟨4, 5⟩ = true := by decide +kernel
  exact ⟨hn, hnamed, by decide, hc, smallest_parse hn hnamed (by decide) hc⟩

end Tree

end ConcreteSyntax
