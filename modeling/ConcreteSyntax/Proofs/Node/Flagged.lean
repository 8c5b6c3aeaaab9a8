import ConcreteSyntax.Proofs.Node.Quiet
import ConcreteSyntax.Proofs.Node.Outermost

/-! # Flagged leaves and literals

A leaf or a literal with the mark of an error is *flagged* (`Node.isFlagged`); the *spots* of a node
are the ranges of the outermost flagged nodes at it and below it. A node is *explained* when what is
flagged stands over a range that was blamed for a fault, errors without children and unknown
fragments apart (`Node.Explained`). Reading an explained node again leaves its spots where they are
(`Node.Explained.spots_asType` and the like), and a draft with such nodes hides none of them when it
is finished (`Draft.nested_finish`). -/

namespace ConcreteSyntax

/-- Every one of these ranges nests in one of those. -/
def Range.Nested (inner outer : List Range) : Prop := ∀ r ∈ inner, ∃ s ∈ outer, s.covers r = true

theorem Range.nested_of_subset {inner outer : List Range} (h : inner ⊆ outer) :
    Nested inner outer :=
  fun r hr => ⟨r, h hr, r.covers_refl⟩

theorem Range.Nested.trans {rs ss ts : List Range} (h : Nested rs ss) (h' : Nested ss ts) :
    Nested rs ts := by
  intro r hr
  obtain ⟨s, hs, hrs⟩ := h r hr
  obtain ⟨t, ht, hst⟩ := h' s hs
  exact ⟨t, ht, covers_trans hst hrs⟩

theorem Range.Nested.append {rs ss rs' ss' : List Range} (h : Nested rs ss) (h' : Nested rs' ss') :
    Nested (rs ++ rs') (ss ++ ss') := by
  intro r hr
  rcases List.mem_append.1 hr with hr | hr
  · obtain ⟨s, hs, hcovers⟩ := h r hr
    exact ⟨s, List.mem_append_left _ hs, hcovers⟩
  · obtain ⟨s, hs, hcovers⟩ := h' r hr
    exact ⟨s, List.mem_append_right _ hs, hcovers⟩

variable {blamed : Range → Prop} {text : List Char} {whole : Prop}

namespace Node

/-- A leaf or a literal with the mark of an error. -/
def isFlagged (n : Node) : Bool := n.flags.error && (n.isLeaf || n.isA .literal)

/-- The ranges of the outermost flagged nodes. -/
def spots (n : Node) : List Range := (n.outermost isFlagged).map (·.range)

/-- What is flagged, no error and no fragment, is a token or a literal in pieces, and stands over a
range that was blamed. An error without children is empty. -/
inductive Explained (blamed : Range → Prop) : Node → Prop
  | mk {n : Node}
      (fault : n.flags.error = true → n.kind ≠ .error → n.kind ≠ .fragmentSpecifier →
        (n.isLeaf = true ∧ n.kind.isToken = true ∨ n.kind.isPieced = true) ∧
          ∃ r, blamed r ∧ n.range.covers r = true)
      (bare : n.kind = .error → n.children = [] → n.range.start = n.range.stop)
      (children : ∀ c ∈ n.children, c.2.Explained blamed) : n.Explained blamed

/-! ### Spots -/

theorem spots_eq (n : Node) :
    n.spots = if n.isFlagged then [n.range] else n.children.flatMap (·.2.spots) := by
  rw [spots, outermost_eq]
  split
  · rfl
  · rw [List.map_flatMap]
    rfl

theorem spots_of_isFlagged {n : Node} (h : n.isFlagged = true) : n.spots = [n.range] := by
  rw [spots_eq, if_pos h]

theorem spots_of_not_isFlagged {n : Node} (h : n.isFlagged = false) :
    n.spots = n.children.flatMap (·.2.spots) := by
  rw [spots_eq, if_neg (Bool.eq_false_iff.1 h)]

theorem isFlagged_eq_false {n : Node} (h : n.flags.error = false) : n.isFlagged = false := by
  rw [isFlagged, h, Bool.false_and]

/-- The spots of a tiled node lie in its range. -/
theorem Tiled.covers_spots {n : Node} (h : n.Tiled text whole) :
    ∀ r ∈ n.spots, n.range.covers r = true := by
  intro r hr
  obtain ⟨m, hm, rfl⟩ := List.mem_map.1 hr
  exact Range.covers_iff.2 (h.outermost.1 m hm)

/-- Without the mark of an error there is no spot. -/
theorem Faultless.spots {n : Node} (h : n.Faultless) : n.spots = [] := by
  induction h with
  | mk error _ ih =>
    rw [spots_of_not_isFlagged (isFlagged_eq_false error)]
    exact List.flatMap_eq_nil_iff.2 ih

theorem spots_rebuild (n : Node) {kind : Kind} (hk : kind ≠ .error) (ambiguous : Bool)
    (children : List Child) :
    (rebuild n kind { ambiguous } children).spots = children.flatMap (·.2.spots) := by
  have herror : (rebuild n kind { ambiguous } children).flags.error = false := by
    simp [rebuild, Draft.finishOver, hk]
  have hchildren : (rebuild n kind { ambiguous } children).children = children := by
    simp [rebuild, Draft.finishOver]
  rw [spots_of_not_isFlagged (isFlagged_eq_false herror), hchildren]

/-- A leaf under another kind. -/
theorem spots_withKind {n : Node} (hl : n.isLeaf = true) (kind : Kind) :
    (n.withKind kind).spots = n.spots := by
  have hflagged : (n.withKind kind).isFlagged = n.isFlagged := by
    have hl' : (n.withKind kind).isLeaf = true := hl
    rw [isFlagged, isFlagged, hl, hl', Bool.true_or, Bool.true_or]
    rfl
  rw [spots_eq, spots_eq, hflagged]
  rfl

theorem isA_of_isPathEnd {n : Node} (h : n.kind.isPathEnd = true) : n.isA .literal = false := by
  unfold isA
  revert h
  generalize n.kind = k
  cases k <;> decide

/-- The end of a path under another kind. -/
theorem spots_renamed {n : Node} {kind : Kind} (hn : n.kind.isPathEnd = true)
    (hk : kind.isPathEnd = true) : (n.withKind kind).spots = n.spots := by
  have hflagged : (n.withKind kind).isFlagged = n.isFlagged := by
    have hliteral : (n.withKind kind).isA .literal = false := isA_of_isPathEnd hk
    rw [isFlagged, isFlagged, isA_of_isPathEnd hn, hliteral]
    rfl
  rw [spots_eq, spots_eq, hflagged]
  rfl

theorem spots_ambiguous (n : Node) : (n.withFlags { ambiguous := true }).spots = n.spots := by
  have hflagged : (n.withFlags { ambiguous := true }).isFlagged = n.isFlagged := by
    simp [isFlagged, withFlags, NodeFlags.union, isLeaf, isA]
  rw [spots_eq, spots_eq, hflagged]
  rfl

/-- A fragment with the mark of an error hides no spot. -/
theorem nested_withError {n : Node} (hk : n.kind = .fragmentSpecifier) :
    Range.Nested n.spots (n.withFlags { error := true }).spots := by
  have hliteral : n.isA .literal = false := by rw [isA, hk]; rfl
  have hliteral' : (n.withFlags { error := true }).isA .literal = false := hliteral
  have hleaf' : (n.withFlags { error := true }).isLeaf = n.isLeaf := rfl
  cases hl : n.isLeaf with
  | true =>
    have herror : (n.withFlags { error := true }).flags.error = true := by
      simp [withFlags, NodeFlags.union]
    have hflagged : (n.withFlags { error := true }).isFlagged = true := by
      rw [isFlagged, herror, hleaf', hl]
      rfl
    have hnil : n.children = [] := by simpa [isLeaf] using hl
    rw [spots_of_isFlagged hflagged, spots_eq, hnil]
    split
    · exact Range.nested_of_subset (List.Subset.refl _)
    · exact List.forall_mem_nil _
  | false =>
    have hflagged : n.isFlagged = false := by rw [isFlagged, hliteral, hl]; simp
    have hflagged' : (n.withFlags { error := true }).isFlagged = false := by
      rw [isFlagged, hliteral', hleaf', hl]
      simp
    rw [spots_of_not_isFlagged hflagged, spots_of_not_isFlagged hflagged']
    exact Range.nested_of_subset (List.Subset.refl _)

/-! ### Explained nodes -/

namespace Explained

variable {n : Node}

theorem fault (h : n.Explained blamed) (he : n.flags.error = true) (hk : n.kind ≠ .error)
    (hf : n.kind ≠ .fragmentSpecifier) :
    (n.isLeaf = true ∧ n.kind.isToken = true ∨ n.kind.isPieced = true) ∧
      ∃ r, blamed r ∧ n.range.covers r = true := by
  cases h with
  | mk fault _ _ => exact fault he hk hf

theorem bare (h : n.Explained blamed) (hk : n.kind = .error) (hn : n.children = []) :
    n.range.start = n.range.stop := by
  cases h with
  | mk _ bare _ => exact bare hk hn

theorem children (h : n.Explained blamed) : ∀ c ∈ n.children, c.2.Explained blamed := by
  cases h
  assumption

theorem mono {blamed' : Range → Prop} (h : n.Explained blamed) (hb : ∀ r, blamed r → blamed' r) :
    n.Explained blamed' := by
  induction h with
  | mk fault bare _ ih =>
    refine ⟨fun he hk hf => ?_, bare, ih⟩
    obtain ⟨hshape, r, hr, hcovers⟩ := fault he hk hf
    exact ⟨hshape, r, hb r hr, hcovers⟩

/-- What is no error, no token and no literal in pieces has no mark of an error. -/
theorem error_eq_false (h : n.Explained blamed) (hk : n.kind ≠ .error)
    (ht : n.kind.isToken = false) (hp : n.kind.isPieced = false) : n.flags.error = false := by
  refine Bool.eq_false_iff.2 fun he => ?_
  have hf : n.kind ≠ .fragmentSpecifier := by
    intro hf
    rw [hf] at ht
    cases ht
  rcases (h.fault he hk hf).1 with ⟨-, h⟩ | h
  · cases ht.symm.trans h
  · cases hp.symm.trans h

/-- What is flagged tells of a fault, if it is no fragment and no empty error. -/
theorem tells (h : n.Explained blamed) (hn : n.isFlagged = true)
    (hfragment : n.kind ≠ .fragmentSpecifier)
    (hempty : ¬ (n.kind = .error ∧ n.range.start = n.range.stop)) :
    ∃ r, blamed r ∧ n.range.covers r = true := by
  obtain ⟨herror, hshape⟩ := Bool.and_eq_true_iff.1 hn
  refine (h.fault herror (fun hk => hempty ⟨hk, h.bare hk ?_⟩) hfragment).2
  have hliteral : n.isA .literal = false := by rw [Node.isA, hk]; rfl
  simpa [hliteral, Node.isLeaf] using hshape

end Explained

theorem Quiet.explained {n : Node} (h : n.Quiet) : n.Explained blamed := by
  induction h with
  | mk kind error _ _ _ ih =>
    exact ⟨fun he => absurd (error.symm.trans he) Bool.false_ne_true, fun hk => absurd hk kind, ih⟩

/-- A missing token is no error. -/
theorem explained_missing {kind : Kind} (hk : kind ≠ .error) (hs : kind ≠ .errorSentinel)
    (range : Range) : (leaf kind range { missing := true }).Explained blamed :=
  ⟨fun he => (nomatch (faultless_missing hs range).error.symm.trans he), fun h => absurd h hk, nofun⟩

theorem lasting_explained : Lasting (Explained blamed) where
  children h := h.children
  renamed := by
    intro n kind hn hk h
    have hplain {k : Kind} (hk : k.isPathEnd = true) : k ≠ .error ∧ k ≠ .fragmentSpecifier ∧
        k.isToken = true ∧ k.isPieced = false := by
      revert hk
      cases k <;> decide
    refine ⟨fun he _ _ => ?_, fun h => absurd h (hplain hk).1, h.children⟩
    obtain ⟨herror, hfragment, -, hpieced⟩ := hplain hn
    obtain ⟨hshape, hblamed⟩ := h.fault he herror hfragment
    rcases hshape with ⟨hl, -⟩ | hp
    · exact ⟨.inl ⟨hl, (hplain hk).2.2.1⟩, hblamed⟩
    · cases hpieced.symm.trans hp
  rebuilt := by
    intro n kind ambiguous children hk h
    have hne : kind ≠ .error := (Kind.ne_of_isFree (Kind.isFree_of_isReread hk)).1
    refine ⟨fun he _ _ => ?_, fun h => absurd h hne, by simpa [rebuild, Draft.finishOver] using h⟩
    simp [rebuild, Draft.finishOver, hne] at he

/-- A leaf that is no error and no fragment under the kind of a name. -/
theorem explained_withKind {n : Node} {kind : Kind} (h : n.Explained blamed) (hl : n.isLeaf = true)
    (hn : n.kind ≠ .error) (hf : n.kind ≠ .fragmentSpecifier) (hk : kind.isName = true) :
    (n.withKind kind).Explained blamed := by
  have hne : kind ≠ .error := (Kind.ne_of_isFree (Kind.isFree_of_isName hk)).1
  exact ⟨fun he _ _ => ⟨.inl ⟨hl, Kind.isToken_of_isName hk⟩, (h.fault he hn hf).2⟩,
    fun h => absurd h hne, h.children⟩

theorem explained_ambiguous {n : Node} (h : n.Explained blamed) :
    (n.withFlags { ambiguous := true }).Explained blamed := by
  refine ⟨fun he hk hf => h.fault ?_ hk hf, h.bare, h.children⟩
  simpa [withFlags, NodeFlags.union] using he

theorem explained_withError {n : Node} (h : n.Explained blamed) (hk : n.kind = .fragmentSpecifier) :
    (n.withFlags { error := true }).Explained blamed :=
  ⟨fun _ _ hf => absurd hk hf, h.bare, h.children⟩

/-! ### Reading again -/

/-- Some children read again. -/
theorem flatMap_spots_again {children : List Child} {p : Child → Prop} [DecidablePred p]
    {label : Child → Option Field} {again : Node → Node}
    (h : ∀ c ∈ children, (again c.2).spots = c.2.spots) :
    (children.map fun c => if p c then (label c, again c.2) else c).flatMap (·.2.spots) =
      children.flatMap (·.2.spots) := by
  rw [List.flatMap_map]
  refine List.flatMap_congr fun c hc => ?_
  split
  · exact h c hc
  · rfl

namespace Explained

variable {n : Node}

theorem spots_asType (h : n.Explained blamed) : n.asType.spots = n.spots := by
  induction n using Node.induction with
  | step n ih =>
    have hagain : ∀ c ∈ n.children, c.2.asType.spots = c.2.spots :=
      fun c hc => ih c hc (h.children c hc)
    rcases n.asType_cases with ⟨hk, he⟩ | ⟨hk, he⟩ | ⟨hk, he⟩ | he <;> rw [he]
    · exact spots_renamed (by rw [hk]; rfl) rfl
    · have herror := h.error_eq_false (by rw [hk]; decide) (by rw [hk]; rfl) (by rw [hk]; rfl)
      rw [spots_rebuild, flatMap_spots_again hagain,
        spots_of_not_isFlagged (isFlagged_eq_false herror)]
      decide
    · have herror := h.error_eq_false (by rw [hk]; decide) (by rw [hk]; rfl) (by rw [hk]; rfl)
      rw [spots_rebuild, flatMap_spots_again hagain,
        spots_of_not_isFlagged (isFlagged_eq_false herror)]
      decide

theorem spots_asPath (h : n.Explained blamed) : n.asPath.spots = n.spots := by
  induction n using Node.induction with
  | step n ih =>
    have hagain : ∀ c ∈ n.children, c.2.asPath.spots = c.2.spots :=
      fun c hc => ih c hc (h.children c hc)
    rcases n.asPath_cases with ⟨hk, he⟩ | ⟨hk, he⟩ | he <;> rw [he]
    · exact spots_renamed (by rw [hk]; rfl) rfl
    · have herror := h.error_eq_false (by rw [hk]; decide) (by rw [hk]; rfl) (by rw [hk]; rfl)
      rw [spots_rebuild, flatMap_spots_again hagain,
        spots_of_not_isFlagged (isFlagged_eq_false herror)]
      decide

theorem spots_conjunction (h : n.Explained blamed) (hc : n.isConjunction = true) :
    n.spots = n.children.flatMap (·.2.spots) := by
  have hk : n.kind = .binaryExpression := by
    simp only [isConjunction, Bool.and_eq_true, beq_iff_eq] at hc
    exact hc.1
  have herror := h.error_eq_false (by rw [hk]; decide) (by rw [hk]; rfl) (by rw [hk]; rfl)
  exact spots_of_not_isFlagged (isFlagged_eq_false herror)

theorem spots_conjuncts (h : n.Explained blamed) : n.conjuncts.flatMap spots = n.spots := by
  induction n using Node.induction with
  | step n ih =>
    rw [conjuncts_eq]
    split
    · next hc =>
      rw [h.spots_conjunction hc, List.flatMap_assoc]
      refine List.flatMap_congr fun c hmem => ?_
      split
      · exact ih c hmem (h.children c hmem)
      · exact List.flatMap_singleton spots c.2
    · exact List.flatMap_singleton spots n

theorem spots_asLetChain (h : n.Explained blamed) : n.asLetChain.spots = n.spots := by
  rcases n.asLetChain_cases with ⟨he, -⟩ | he <;> rw [he]
  rw [spots_rebuild, List.flatMap_map, ← h.spots_conjuncts]
  decide

end Explained

/-! ### Tokens -/

theorem isFlagged_of_isPieced {n : Node} (he : n.flags.error = true) (hk : n.kind.isPieced = true) :
    n.isFlagged = true := by
  have hliteral : n.isA .literal = true := by
    unfold isA
    revert hk
    generalize n.kind = k
    cases k <;> decide
  rw [isFlagged, he, hliteral, Bool.or_true, Bool.and_self]

/-- A faulty token is a spot. -/
theorem spots_ofToken {t : Token} (hf : t.faults ≠ []) (as? : Option Kind) :
    (ofToken t as?).spots = [t.range] := by
  have hflags : (!t.faults.isEmpty) = true := by simpa using hf
  rcases ofToken_cases t as? with ⟨kind, hkind, he⟩ | ⟨he, -⟩ <;> rw [he, hflags]
  · exact spots_of_isFlagged (isFlagged_of_isPieced (by simp [ofPieces, Draft.finishOver]) hkind)
  · have herror : (leaf (as?.getD t.kind) t.range { error := true }).flags.error = true := by
      unfold leaf
      split <;> rfl
    exact spots_of_isFlagged (by rw [isFlagged, herror]; rfl)

/-- A token is explained once its faults are blamed. -/
theorem explained_ofToken {t : Token} (hl : t.Laid) (hb : ∀ f ∈ t.faults, blamed f.range)
    {as? : Option Kind}
    (has : ∀ kind, as? = some kind → kind.isToken = true ∧ kind ≠ .errorSentinel) :
    (ofToken t as?).Explained blamed := by
  -- a faulty token stands over the range of its first fault
  have hwithin (hf : t.faults ≠ []) : ∃ r, blamed r ∧ t.range.covers r = true := by
    obtain ⟨f, hf⟩ := List.exists_mem_of_ne_nil _ hf
    have := hl.within f hf
    exact ⟨f.range, hb f hf, Range.covers_iff.2 ⟨this.1, this.2.2⟩⟩
  have hfaulty (h : (!t.faults.isEmpty) = true) : t.faults ≠ [] := by simpa using h
  rcases ofToken_cases t as? with ⟨kind, hkind, he⟩ | ⟨he, -⟩ <;> rw [he]
  · have hne := (Kind.ne_of_isFree (Kind.isFree_of_isPieced hkind)).1
    refine ⟨fun herror _ _ => ⟨.inr hkind, hwithin (hfaulty ?_)⟩, fun h => absurd h hne, ?_⟩
    · simpa [ofPieces, Draft.finishOver, hne] using herror
    · rw [children_ofPieces]
      refine List.forall_mem_map.2 fun p hp =>
        ⟨fun herror _ _ => ?_, fun h => absurd h (Kind.ne_of_isPiece (hl.isPiece p hp)),
          List.forall_mem_nil _⟩
      -- of the pieces only an unread escape is flagged
      have hk : p.kind = .errorSentinel := by
        by_contra hk
        simp [leaf, hk] at herror
      obtain ⟨f, hf, hr⟩ := hl.unread p hp hk
      refine ⟨.inl ⟨rfl, ?_⟩, f.range, hb f hf, ?_⟩
      · show p.kind.isToken = true
        rw [hk]
        rfl
      · rw [hr]
        exact p.range.covers_refl
  · have hne : as?.getD t.kind ≠ .error := by
      cases as? with
      | none => exact hl.kind_ne
      | some kind =>
        rintro rfl
        cases (has .error rfl).1
    refine ⟨fun herror _ _ => ?_, fun h => absurd h hne, List.forall_mem_nil _⟩
    have hf : t.faults ≠ [] := by
      by_cases hk : as?.getD t.kind = .errorSentinel
      · cases as? with
        | none => exact hl.explained hk
        | some kind => exact absurd hk (has kind rfl).2
      · exact hfaulty (by simpa [leaf, hk] using herror)
    refine ⟨.inl ⟨rfl, ?_⟩, hwithin hf⟩
    show (as?.getD t.kind).isToken = true
    cases as? with
    | some kind => exact (has kind rfl).1
    | none =>
      have hmay : t.kind.mayBeFaulty = true := by
        by_contra hmay
        exact hf (hl.faultless (Bool.eq_false_iff.2 hmay))
      show t.kind.isToken = true
      revert hmay
      generalize t.kind = k
      cases k <;> decide

end Node

/-! ### Drafts -/

namespace Draft

variable {d : Draft}

/-- The spots of the node that a draft becomes. -/
def spots (d : Draft) : List Range :=
  if d.flags.error then [d.span 0] else d.children.toList.flatMap (·.2.spots)

theorem foldl_hull_covers (r : Range) (children : List Child) :
    (children.foldl (fun r c => r.hull c.2.range) r).covers r = true ∧
      ∀ c ∈ children, (children.foldl (fun r c => r.hull c.2.range) r).covers c.2.range = true := by
  induction children generalizing r with
  | nil => exact ⟨r.covers_refl, List.forall_mem_nil _⟩
  | cons c children ih =>
    obtain ⟨hr, hmore⟩ := ih (r.hull c.2.range)
    have hleft : (r.hull c.2.range).covers r = true :=
      Range.covers_iff.2 ⟨Nat.min_le_left _ _, Nat.le_max_left _ _⟩
    have hright : (r.hull c.2.range).covers c.2.range = true :=
      Range.covers_iff.2 ⟨Nat.min_le_right _ _, Nat.le_max_right _ _⟩
    exact ⟨Range.covers_trans hr hleft,
      List.forall_mem_cons.2 ⟨Range.covers_trans hr hright, hmore⟩⟩

/-- The span of a draft holds its children. -/
theorem span_covers {c : Child} (hc : c ∈ d.children.toList) (offset : Nat) :
    (d.span offset).covers c.2.range = true := by
  unfold span
  cases h : d.children.toList with
  | nil => simp [h] at hc
  | cons first rest =>
    rw [h] at hc
    rcases List.mem_cons.1 hc with rfl | hc
    · exact (foldl_hull_covers _ _).1
    · exact (foldl_hull_covers _ _).2 c hc

/-- Where there are children, the offset does not matter. -/
theorem span_eq (hne : d.children.toList ≠ []) (offset : Nat) : d.span offset = d.span 0 := by
  unfold span
  cases h : d.children.toList with
  | nil => exact absurd h hne
  | cons first rest => rfl

/-- The span grows with the children. -/
theorem span_extend_covers (hne : d.children.toList ≠ []) (more : List Child) :
    ((d.extend more).span 0).covers (d.span 0) = true := by
  unfold span
  simp only [extend, Array.toList_append]
  cases h : d.children.toList with
  | nil => exact absurd h hne
  | cons first rest =>
    simp only [List.cons_append, List.foldl_append]
    exact (foldl_hull_covers _ _).1

/-- The span of a draft with the children of a tiled node holds that node. -/
theorem span_extend_covers_node {n : Node} (hn : n.Tiled text whole) (hne : n.children ≠ []) :
    ((d.extend n.children).span 0).covers n.range = true := by
  have hspan {c : Child} (hc : c ∈ n.children) :
      ((d.extend n.children).span 0).covers c.2.range = true :=
    span_covers (by simp [extend, hc]) 0
  obtain ⟨first, hfirst⟩ : ∃ c, c ∈ n.children.head? :=
    ⟨_, List.head?_eq_some_head hne⟩
  obtain ⟨last, hlast⟩ : ∃ c, c ∈ n.children.getLast? :=
    ⟨_, List.getLast?_eq_some_getLast hne⟩
  have hstart := Range.covers_iff.1 (hspan (List.mem_of_mem_head? hfirst))
  have hstop := Range.covers_iff.1 (hspan (List.mem_of_mem_getLast? hlast))
  rw [hn.first first hfirst] at hstart
  rw [(hn.row hne).stop_getLast hlast] at hstop
  exact Range.covers_iff.2 ⟨hstart.1, hstop.2⟩

/-- The spots of a draft whose children are tiled lie in its span. -/
theorem span_covers_spots (hd : ∀ c ∈ d.children.toList, c.2.Tiled text whole) :
    ∀ r ∈ d.spots, (d.span 0).covers r = true := by
  intro r hr
  unfold spots at hr
  split at hr
  · rw [List.mem_singleton.1 hr]
    exact Range.covers_refl _
  · obtain ⟨c, hc, hr⟩ := List.mem_flatMap.1 hr
    exact Range.covers_trans (span_covers hc 0) ((hd c hc).covers_spots r hr)

/-- More children hide no spot. -/
theorem nested_extend (hd : ∀ c ∈ d.children.toList, c.2.Tiled text whole) {more : List Child}
    (hm : ∀ c ∈ more, c.2.Tiled text whole) (hne : d.flags.error = true → d.children.toList ≠ []) :
    Range.Nested (d.spots ++ more.flatMap (·.2.spots)) (d.extend more).spots := by
  cases he : d.flags.error with
  | false =>
    have hspots : (d.extend more).spots = d.spots ++ more.flatMap (·.2.spots) := by
      simp [spots, extend, he]
    rw [hspots]
    exact Range.nested_of_subset (List.Subset.refl _)
  | true =>
    have hspots : (d.extend more).spots = [(d.extend more).span 0] := by simp [spots, extend, he]
    rw [hspots]
    intro r hr
    refine ⟨_, List.mem_singleton_self _, ?_⟩
    rcases List.mem_append.1 hr with hr | hr
    · exact Range.covers_trans (span_extend_covers (hne he) more) (span_covers_spots hd r hr)
    · obtain ⟨c, hc, hr⟩ := List.mem_flatMap.1 hr
      have hspan := span_covers (d := d.extend more) (c := c) (by simp [extend, hc]) 0
      exact Range.covers_trans hspan ((hm c hc).covers_spots r hr)

/-- The pieces of a literal and its mark of an error hide no spot of a draft, nor of the literal. -/
theorem nested_unpacked (hd : ∀ c ∈ d.children.toList, c.2.Tiled text whole) {n : Node}
    (hn : n.Tiled text whole) (hne : n.children ≠ [])
    (hchildren : d.flags.error = true → d.children.toList ≠ []) :
    Range.Nested (d.spots ++ n.spots)
      ((d.addFlags { error := n.flags.error }).extend n.children).spots := by
  cases he : d.flags.error || n.flags.error with
  | false =>
    obtain ⟨hderror, hnerror⟩ := Bool.or_eq_false_iff.1 he
    have hspots : ((d.addFlags { error := n.flags.error }).extend n.children).spots =
        d.spots ++ n.spots := by
      rw [Node.spots_of_not_isFlagged (Node.isFlagged_eq_false hnerror)]
      simp [spots, extend, addFlags, NodeFlags.union, hderror, hnerror]
    rw [hspots]
    exact Range.nested_of_subset (List.Subset.refl _)
  | true =>
    have hspots : ((d.addFlags { error := n.flags.error }).extend n.children).spots =
        [(d.extend n.children).span 0] := by
      have herror : ((d.addFlags { error := n.flags.error }).extend n.children).flags.error = true := he
      rw [spots, if_pos herror]
      rfl
    rw [hspots]
    refine List.forall_mem_append.2 ⟨fun r hr => ?_, fun r hr => ?_⟩
    · by_cases hnil : d.children.toList = []
      · have hderror : d.flags.error = false := Bool.eq_false_iff.2 fun h => hchildren h hnil
        simp [spots, hderror, hnil] at hr
      · have hspan := span_covers_spots hd r hr
        exact ⟨_, List.mem_singleton_self _, Range.covers_trans (span_extend_covers hnil _) hspan⟩
    · exact ⟨_, List.mem_singleton_self _,
        Range.covers_trans (span_extend_covers_node hn hne) (hn.covers_spots r hr)⟩

/-- A finished draft hides no spot. -/
theorem nested_finish (hk : d.flags.error = true → d.kind.isPieced = true)
    (hne : d.flags.error = true → d.children.toList ≠ []) (offset : Nat) :
    Range.Nested d.spots (d.finish offset).spots := by
  cases he : d.flags.error with
  | true =>
    have hflagged : (d.finish offset).isFlagged = true :=
      Node.isFlagged_of_isPieced (by simp [finish, finishOver, he]) (hk he)
    have hspots : d.spots = [d.span offset] := by
      rw [spots, if_pos he, span_eq (hne he) offset]
    rw [Node.spots_of_isFlagged hflagged, hspots]
    exact Range.nested_of_subset (List.Subset.refl _)
  | false =>
    have hspots : d.spots = (d.finish offset).children.flatMap (·.2.spots) := by
      rw [spots, if_neg (Bool.eq_false_iff.1 he)]
      rfl
    rw [hspots]
    cases hflagged : (d.finish offset).isFlagged with
    | false =>
      rw [Node.spots_of_not_isFlagged hflagged]
      exact Range.nested_of_subset (List.Subset.refl _)
    | true =>
      -- of those without the mark of an error only an error without children is flagged
      have hkind : (d.finish offset).kind = .error := by
        have herror := (Bool.and_eq_true_iff.1 hflagged).1
        simpa [finish, finishOver, he] using herror
      have hliteral : (d.finish offset).isA .literal = false := by
        rw [Node.isA, hkind]
        rfl
      have hleaf : (d.finish offset).isLeaf = true := by
        simpa [hliteral] using (Bool.and_eq_true_iff.1 hflagged).2
      have hnil : (d.finish offset).children = [] := by simpa [Node.isLeaf] using hleaf
      rw [hnil]
      exact List.forall_mem_nil _

end Draft

end ConcreteSyntax
