import ConcreteSyntax.Node.OfToken
import ConcreteSyntax.Proofs.Node.Retag
import ConcreteSyntax.Proofs.Token.Scanner
import Mathlib.Data.List.Chain

/-! # Tiled nodes

The children of a node stand in a row, from its first byte to its last, one after another
(`Row`, `Node.Tiled`). What lies between two of them is a gap: white space, as long as the tree is
*whole*, that is, as long as nothing was left out of it. Rows join, drafts over a row finish as
tiled nodes, and reading a node again keeps it tiled. -/

namespace ConcreteSyntax

open Text (Blank Spaced)

variable {text : List Char} {whole : Prop}

/-! ### Gaps -/

/-- What may lie between two nodes: only white space, if the tree is whole. -/
def Gap (text : List Char) (whole : Prop) (a b : Nat) : Prop := a ≤ b ∧ (whole → Spaced text a b)

namespace Gap

theorem refl (a : Nat) : Gap text whole a a := ⟨Nat.le_refl a, fun _ => .inl rfl⟩

theorem le {a b : Nat} (h : Gap text whole a b) : a ≤ b := h.1

theorem trans {a b c : Nat} (h : Gap text whole a b) (h' : Gap text whole b c) :
    Gap text whole a c :=
  ⟨Nat.le_trans h.1 h'.1, fun hw => (h.2 hw).trans (h'.2 hw)⟩

theorem of_blank {a b : Nat} (h : Blank text a b) : Gap text whole a b := ⟨h.le, fun _ => .inr h⟩

theorem mono {whole' : Prop} {a b : Nat} (h : Gap text whole a b) (hw : whole' → whole) :
    Gap text whole' a b :=
  ⟨h.1, fun hw' => h.2 (hw hw')⟩

end Gap

/-! ### Rows -/

/-- Nodes one after another, up to the end of the last; before each there may be a gap. -/
def Row (text : List Char) (whole : Prop) : Nat → List Child → Nat → Prop
  | a, [], b => a = b
  | a, c :: more, b =>
    Gap text whole a c.2.range.start ∧ c.2.range.start ≤ c.2.range.stop ∧
      Row text whole c.2.range.stop more b

namespace Row

theorem le {children : List Child} {a b : Nat} (h : Row text whole a children b) : a ≤ b := by
  induction children generalizing a with
  | nil => exact Nat.le_of_eq h
  | cons c children ih =>
    obtain ⟨hg, hle, hrest⟩ := h
    have := hg.le
    have := ih hrest
    omega

theorem mono {whole' : Prop} {children : List Child} {a b : Nat} (h : Row text whole a children b)
    (hw : whole' → whole) : Row text whole' a children b := by
  induction children generalizing a with
  | nil => exact h
  | cons c children ih => exact ⟨h.1.mono hw, h.2.1, ih h.2.2⟩

/-- A gap before a row belongs to it. -/
theorem of_gap {children : List Child} {a b c : Nat} (hg : Gap text whole a b)
    (h : Row text whole b children c) (hne : children ≠ []) : Row text whole a children c := by
  cases children with
  | nil => exact absurd rfl hne
  | cons d children => exact ⟨hg.trans h.1, h.2⟩

/-- Two rows, the second where the first ends. -/
theorem join {children more : List Child} {a b c : Nat} (h : Row text whole a children b)
    (h' : Row text whole b more c) : Row text whole a (children ++ more) c := by
  induction children generalizing a with
  | nil =>
    obtain rfl : a = b := h
    exact h'
  | cons n children ih => exact ⟨h.1, h.2.1, ih h.2.2⟩

/-- Two rows with gaps in between and behind. -/
theorem append {children more : List Child} {a b b' c d : Nat} (h : Row text whole a children b)
    (hg : Gap text whole b b') (h' : Row text whole b' more c) (hg' : Gap text whole c d) :
    ∃ e, Row text whole a (children ++ more) e ∧ Gap text whole e d := by
  cases more with
  | nil =>
    obtain rfl : b' = c := h'
    exact ⟨b, by rwa [List.append_nil], hg.trans hg'⟩
  | cons n more => exact ⟨c, h.join (of_gap hg h' nofun), hg'⟩

/-- A row is one of ranges. -/
theorem map {children : List Child} (again : Child → Child)
    (hr : ∀ c ∈ children, (again c).2.range = c.2.range) {a b : Nat}
    (h : Row text whole a children b) : Row text whole a (children.map again) b := by
  induction children generalizing a with
  | nil => exact h
  | cons c children ih =>
    obtain ⟨hc, hmore⟩ := List.forall_mem_cons.1 hr
    obtain ⟨hg, hle, hrest⟩ := h
    simp only [List.map_cons, Row, hc]
    exact ⟨hg, hle, ih hmore hrest⟩

/-- Every node of a row gives way to a row over its range. -/
theorem flatMap {children : List Child} {parts : Child → List Child}
    (hp : ∀ c ∈ children,
      parts c ≠ [] ∧ Row text whole c.2.range.start (parts c) c.2.range.stop) {a b : Nat}
    (h : Row text whole a children b) : Row text whole a (children.flatMap parts) b := by
  induction children generalizing a with
  | nil => exact h
  | cons c children ih =>
    obtain ⟨⟨hne, hc⟩, hmore⟩ := List.forall_mem_cons.1 hp
    exact (of_gap h.1 hc hne).join (ih hmore h.2.2)

/-- The last node of a row ends where the row does. -/
theorem stop_getLast {children : List Child} {a b : Nat} (h : Row text whole a children b)
    {c : Child} (hc : c ∈ children.getLast?) : c.2.range.stop = b := by
  induction children generalizing a with
  | nil => simp at hc
  | cons d children ih =>
    obtain ⟨-, -, hrest⟩ := h
    cases children with
    | nil =>
      obtain rfl : d = c := by simpa using hc
      exact hrest
    | cons d' children =>
      rw [List.getLast?_cons_cons] at hc
      exact ih hrest hc

theorem spaced_head {children : List Child} {a b : Nat} (h : Row text whole a children b)
    (hw : whole) {c : Child} (hc : c ∈ children.head?) : Spaced text a c.2.range.start := by
  cases children with
  | nil => simp at hc
  | cons d children =>
    obtain rfl : d = c := by simpa using hc
    exact h.1.2 hw

/-- The nodes of a row follow one another, with only white space in between. -/
theorem isChain {children : List Child} {a b : Nat} (h : Row text whole a children b)
    (hw : whole) : children.IsChain fun c d =>
      c.2.range.stop ≤ d.2.range.start ∧ Spaced text c.2.range.stop d.2.range.start := by
  induction children generalizing a with
  | nil => exact .nil
  | cons c children ih =>
    obtain ⟨-, -, hrest⟩ := h
    cases children with
    | nil => exact .singleton c
    | cons d children => exact .cons_cons ⟨hrest.1.le, hrest.1.2 hw⟩ (ih hrest)

/-- The range over a row. -/
theorem hull_eq {children : List Child} {r : Range} {b : Nat} (hr : r.start ≤ r.stop)
    (h : Row text whole r.stop children b) :
    children.foldl (fun r c => r.hull c.2.range) r = ⟨r.start, b⟩ := by
  induction children generalizing r with
  | nil =>
    obtain rfl : r.stop = b := h
    rfl
  | cons c children ih =>
    obtain ⟨hg, hle, hrest⟩ := h
    have hstart := hg.le
    have hhull : r.hull c.2.range = ⟨r.start, c.2.range.stop⟩ := by
      simp only [Range.hull, Range.mk.injEq]
      omega
    rw [List.foldl_cons, hhull]
    exact ih (show r.start ≤ c.2.range.stop by omega) hrest

end Row

/-! ### Nodes -/

/-- The children stand in a row over the range of the node, and so on below. -/
inductive Node.Tiled (text : List Char) (whole : Prop) : Node → Prop
  | mk {n : Node} (le : n.range.start ≤ n.range.stop)
      (first : ∀ c ∈ n.children.head?, c.2.range.start = n.range.start)
      (row : n.children ≠ [] → Row text whole n.range.start n.children n.range.stop)
      (children : ∀ c ∈ n.children, c.2.Tiled text whole) : n.Tiled text whole

namespace Node

theorem Tiled.le {n : Node} (h : n.Tiled text whole) : n.range.start ≤ n.range.stop := by
  cases h
  assumption

theorem Tiled.first {n : Node} (h : n.Tiled text whole) :
    ∀ c ∈ n.children.head?, c.2.range.start = n.range.start := by
  cases h
  assumption

theorem Tiled.row {n : Node} (h : n.Tiled text whole) (hn : n.children ≠ []) :
    Row text whole n.range.start n.children n.range.stop := by
  cases h with
  | mk _ _ row _ => exact row hn

theorem Tiled.children {n : Node} (h : n.Tiled text whole) :
    ∀ c ∈ n.children, c.2.Tiled text whole := by
  cases h
  assumption

theorem Tiled.mono {whole' : Prop} {n : Node} (h : n.Tiled text whole) (hw : whole' → whole) :
    n.Tiled text whole' := by
  induction h with
  | mk le first row _ ih => exact ⟨le, first, fun hn => (row hn).mono hw, ih⟩

end Node

/-- Tiled children in a row. -/
structure Tiles (text : List Char) (whole : Prop) (a : Nat) (children : List Child) (b : Nat) :
    Prop where
  row : Row text whole a children b
  tiled : ∀ c ∈ children, c.2.Tiled text whole

/-- Children that a node with this range may have. -/
structure Tiling (text : List Char) (whole : Prop) (r : Range) (children : List Child) : Prop
    extends Tiles text whole r.start children r.stop where
  ne : children ≠ []
  first : ∀ c ∈ children.head?, c.2.range.start = r.start

namespace Tiles

theorem nil (a : Nat) : Tiles text whole a [] a := ⟨rfl, nofun⟩

theorem mono {whole' : Prop} {children : List Child} {a b : Nat}
    (h : Tiles text whole a children b) (hw : whole' → whole) : Tiles text whole' a children b :=
  ⟨h.row.mono hw, fun c hc => (h.tiled c hc).mono hw⟩

/-- The labels do not matter. -/
theorem relabel {children : List Child} {a b : Nat} (h : Tiles text whole a children b)
    (label : Child → Option Field) :
    Tiles text whole a (children.map fun c => (label c, c.2)) b :=
  ⟨h.row.map (fun c => (label c, c.2)) fun _ _ => rfl, List.forall_mem_map.2 h.tiled⟩

/-- Two rows with gaps in between and behind. -/
theorem append {children more : List Child} {a b b' c d : Nat} (h : Tiles text whole a children b)
    (hg : Gap text whole b b') (h' : Tiles text whole b' more c) (hg' : Gap text whole c d) :
    ∃ e, Tiles text whole a (children ++ more) e ∧ Gap text whole e d := by
  obtain ⟨e, hrow, he⟩ := h.row.append hg h'.row hg'
  refine ⟨e, ⟨hrow, fun c hc => ?_⟩, he⟩
  exact (List.mem_append.1 hc).elim (h.tiled c) (h'.tiled c)

/-- One node more, with gaps before and behind it. -/
theorem push {children : List Child} {a b c : Nat} (h : Tiles text whole a children b)
    (label : Option Field) {n : Node} (hn : n.Tiled text whole)
    (hg : Gap text whole b n.range.start) (hg' : Gap text whole n.range.stop c) :
    ∃ e, Tiles text whole a (children ++ [(label, n)]) e ∧ Gap text whole e c := by
  have hone : Tiles text whole n.range.start [(label, n)] n.range.stop :=
    ⟨⟨.refl _, hn.le, rfl⟩, fun c hc => List.mem_singleton.1 hc ▸ hn⟩
  exact h.append hg hone hg'

end Tiles

namespace Node

/-- A leaf is tiled. -/
theorem tiled_of_leaf {n : Node} (hn : n.children = []) (hle : n.range.start ≤ n.range.stop) :
    n.Tiled text whole :=
  ⟨hle, by simp [hn], fun h => absurd hn h, by simp [hn]⟩

/-- A node over the children of another one, some of them read again, is tiled. -/
theorem tiled_of_map {n n' : Node} (h : n.Tiled text whole) (hr : n'.range = n.range)
    {again : Child → Child} (hc : n'.children = n.children.map again)
    (hrange : ∀ c ∈ n.children, (again c).2.range = c.2.range)
    (htiled : ∀ c ∈ n.children, (again c).2.Tiled text whole) : n'.Tiled text whole := by
  obtain ⟨le, first, row, -⟩ := h
  refine ⟨hr ▸ le, fun c hhead => ?_, fun hne => ?_, fun c hmem => ?_⟩
  · rw [hc, List.head?_map] at hhead
    obtain ⟨c', hc', rfl⟩ := Option.map_eq_some_iff.1 hhead
    rw [hr, hrange c' (List.mem_of_mem_head? hc')]
    exact first c' hc'
  · rw [hr, hc]
    exact (row fun hnil => hne (by rw [hc, hnil]; rfl)).map again hrange
  · rw [hc] at hmem
    obtain ⟨c', hc', rfl⟩ := List.mem_map.1 hmem
    exact htiled c' hc'

end Node

namespace Tiling

/-- A node by itself. -/
theorem ofNode {n : Node} {label : Option Field} (h : n.Tiled text whole) :
    Tiling text whole n.range [(label, n)] where
  row := ⟨.refl _, h.le, rfl⟩
  tiled _ hc := List.mem_singleton.1 hc ▸ h
  ne := nofun
  first _ h := Option.some.inj h ▸ rfl

/-- Every child gives way to children that stand where it does. -/
theorem flatMap {children : List Child} {r : Range} {parts : Child → List Child}
    (h : Tiling text whole r children)
    (hp : ∀ c ∈ children, Tiling text whole c.2.range (parts c)) :
    Tiling text whole r (children.flatMap parts) := by
  obtain ⟨⟨hrow, htiled⟩, hne, hfirst⟩ := h
  refine ⟨⟨hrow.flatMap fun c hc => ⟨(hp c hc).ne, (hp c hc).row⟩, fun c hc => ?_⟩, ?_, ?_⟩
  · obtain ⟨d, hd, hc⟩ := List.mem_flatMap.1 hc
    exact (hp d hd).tiled c hc
  all_goals
    obtain ⟨c, more, rfl⟩ := List.exists_cons_of_ne_nil hne
    obtain ⟨part, others, hparts⟩ := List.exists_cons_of_ne_nil (hp c List.mem_cons_self).ne
  · simp [hparts]
  · intro d hd
    obtain rfl : part = d := by simpa [hparts] using hd
    exact ((hp c List.mem_cons_self).first part (by simp [hparts])).trans
      (hfirst c (by simp))

end Tiling

namespace Node

theorem tiled_of_tiling {n : Node} (h : Tiling text whole n.range n.children) :
    n.Tiled text whole :=
  ⟨h.row.le, h.first, fun _ => h.row, h.tiled⟩

/-- The children of a tiled node. -/
theorem Tiled.tiling {n : Node} (h : n.Tiled text whole) (hn : n.children ≠ []) :
    Tiling text whole n.range n.children :=
  ⟨⟨h.row hn, h.children⟩, hn, h.first⟩

/-! ### Reading again -/

theorem tiled_withKind {n : Node} (h : n.Tiled text whole) (kind : Kind) :
    (n.withKind kind).Tiled text whole := by
  obtain ⟨le, first, row, children⟩ := h
  exact ⟨le, first, row, children⟩

theorem tiled_withFlags {n : Node} (h : n.Tiled text whole) (flags : NodeFlags) :
    (n.withFlags flags).Tiled text whole := by
  obtain ⟨le, first, row, children⟩ := h
  exact ⟨le, first, row, children⟩

/-- The children of a tiled node, some of them read again. -/
theorem tiled_rebuild {n : Node} (h : n.Tiled text whole) {kind : Kind} {flags : NodeFlags}
    {p : Child → Prop} [DecidablePred p] {label : Child → Option Field} {again : Node → Node}
    (hr : ∀ n, (again n).range = n.range)
    (ha : ∀ c ∈ n.children, (again c.2).Tiled text whole) :
    (rebuild n kind flags (n.children.map fun c => if p c then (label c, again c.2) else c)).Tiled
      text whole := by
  have hc : (rebuild n kind flags (n.children.map fun c =>
      if p c then (label c, again c.2) else c)).children =
      n.children.map fun c => if p c then (label c, again c.2) else c := by
    simp [rebuild, Draft.finishOver]
  refine tiled_of_map h rfl hc (fun c _ => ?_) fun c hc => ?_
  · split
    · exact hr c.2
    · rfl
  · split
    · exact ha c hc
    · exact h.children c hc

theorem tiled_asType {n : Node} (h : n.Tiled text whole) : n.asType.Tiled text whole := by
  induction h with
  | @mk n le first row children ih =>
    have hn : n.Tiled text whole := ⟨le, first, row, children⟩
    rcases n.asType_cases with ⟨-, h⟩ | ⟨-, h⟩ | ⟨-, h⟩ | h <;> rw [h]
    · exact tiled_withKind hn _
    · exact tiled_rebuild hn asType_range ih
    · exact tiled_rebuild hn asType_range ih
    · exact hn

theorem tiled_asPath {n : Node} (h : n.Tiled text whole) : n.asPath.Tiled text whole := by
  induction h with
  | @mk n le first row children ih =>
    have hn : n.Tiled text whole := ⟨le, first, row, children⟩
    rcases n.asPath_cases with ⟨-, h⟩ | ⟨-, h⟩ | h <;> rw [h]
    · exact tiled_withKind hn _
    · exact tiled_rebuild hn asPath_range ih
    · exact hn

/-- The conjuncts of a condition stand where it does. -/
theorem tiling_conjuncts {n : Node} (h : n.Tiled text whole) :
    Tiling text whole n.range (n.conjuncts.map fun part => (none, part)) := by
  induction h with
  | @mk n le first row children ih =>
    have hn : n.Tiled text whole := ⟨le, first, row, children⟩
    rw [conjuncts_eq]
    split
    · next hconj =>
      rw [List.map_flatMap]
      -- an operand gives way to its conjuncts, the mark stays
      have hparts : ∀ c ∈ n.children, Tiling text whole c.2.range
          ((if isOperand c.1 then c.2.conjuncts else [c.2]).map fun part => (none, part)) := by
        intro c hc
        split
        · exact ih c hc
        · exact .ofNode (children c hc)
      have hne : n.children ≠ [] := by
        intro hnil
        simp [isConjunction, childByField?, hnil] at hconj
      exact .flatMap (hn.tiling hne) hparts
    · exact .ofNode hn

theorem tiled_asLetChain {n : Node} (h : n.Tiled text whole) : n.asLetChain.Tiled text whole := by
  rcases n.asLetChain_cases with ⟨he, -⟩ | he <;> rw [he]
  · exact tiled_of_tiling (by simpa [rebuild, Draft.finishOver] using tiling_conjuncts h)
  · exact h

end Node

/-! ### Drafts -/

/-- A draft over a row is finished as a tiled node, where the row is. -/
theorem Tiles.finish {d : Draft} {a b e : Nat} (h : Tiles text whole a d.children.toList e)
    (hg : Gap text whole e b) :
    Gap text whole a (d.finish b).range.start ∧ (d.finish b).Tiled text whole ∧
      Gap text whole (d.finish b).range.stop b := by
  cases hc : d.children.toList with
  | nil =>
    rw [hc] at h
    obtain rfl : a = e := h.row
    have hrange : (d.finish b).range = .emptyAt b := by
      simp [Draft.finish, Draft.finishOver, Draft.span, hc]
    rw [hrange]
    exact ⟨hg, Node.tiled_of_leaf hc (by rw [hrange]; exact Nat.le_refl b), .refl b⟩
  | cons c more =>
    rw [hc] at h
    obtain ⟨hfirst, hle, hmore⟩ := h.row
    have hrange : (d.finish b).range = ⟨c.2.range.start, e⟩ := by
      simp [Draft.finish, Draft.finishOver, Draft.span, hc, hmore.hull_eq hle]
    have hchildren : (d.finish b).children = c :: more := hc
    rw [hrange]
    refine ⟨hfirst, Node.tiled_of_tiling ?_, hg⟩
    rw [hrange, hchildren]
    exact ⟨⟨⟨.refl _, hle, hmore⟩, h.tiled⟩, nofun, fun _ h => Option.some.inj h ▸ rfl⟩

/-! ### Tokens -/

/-- The pieces of a token stand in a row. -/
theorem Pieces.tiles {pieces : List Piece} {start stop : Nat} (h : Pieces start pieces stop) :
    Tiles text whole start (pieces.map fun p => (none, Node.leaf p.kind p.range {})) stop := by
  induction pieces generalizing start with
  | nil =>
    obtain rfl : start = stop := h
    exact .nil start
  | cons p pieces ih =>
    obtain ⟨rfl, hlt, -, hmore⟩ := h
    have hle : p.range.start ≤ p.range.stop := Nat.le_of_lt hlt
    obtain ⟨hrow, htiled⟩ := ih hmore
    exact ⟨⟨.refl _, hle, hrow⟩, List.forall_mem_cons.2 ⟨Node.tiled_of_leaf rfl hle, htiled⟩⟩

namespace Node

theorem tiled_ofPieces {kind : Kind} {flags : NodeFlags} {range : Range} {pieces : List Piece}
    (h : Pieces range.start pieces range.stop) (hne : pieces ≠ []) :
    (ofPieces kind flags range pieces).Tiled text whole := by
  refine tiled_of_tiling ?_
  simp only [ofPieces, Draft.finishOver]
  refine ⟨h.tiles, by simpa using hne, fun c hc => ?_⟩
  cases pieces with
  | nil => exact absurd rfl hne
  | cons p pieces =>
    obtain rfl : (none, leaf p.kind p.range {}) = c := by simpa using hc
    exact h.1

theorem tiled_ofComment {t : Token} (h : t.Laid) (hle : t.range.start ≤ t.range.stop) :
    (ofComment t).Tiled text whole ∧ (ofComment t).range = t.range := by
  unfold ofComment
  split
  · exact ⟨tiled_of_leaf rfl hle, rfl⟩
  · next hne =>
    have hne : t.pieces ≠ [] := by simpa using hne
    exact ⟨tiled_ofPieces (h.pieces.resolve_left hne) hne, rfl⟩

theorem literalKind?_pieces {t : Token} (h : t.Laid) {plain : Bool} {kind : Kind}
    (hk : literalKind? t plain = some kind) : t.pieces ≠ [] := by
  unfold literalKind? at hk
  split at hk
  · next hkind => exact h.pieces_ne (by rw [hkind]; rfl)
  · next hkind => exact h.pieces_ne (by rw [hkind]; rfl)
  · next hkind => exact h.pieces_ne (by rw [hkind]; rfl)
  · intro hnil
    simp [hnil] at hk
  · next hkind => exact h.pieces_ne (by rw [hkind]; rfl)
  · exact nomatch hk

theorem tiled_ofToken {t : Token} (h : t.Laid) (hle : t.range.start ≤ t.range.stop)
    (as? : Option Kind) :
    (ofToken t as?).Tiled text whole ∧ (ofToken t as?).range = t.range := by
  unfold ofToken
  dsimp only
  split
  · next kind hk =>
    have hne := literalKind?_pieces h hk
    exact ⟨tiled_ofPieces (h.pieces.resolve_left hne) hne, rfl⟩
  · exact ⟨tiled_of_leaf rfl hle, rfl⟩

end Node

end ConcreteSyntax
