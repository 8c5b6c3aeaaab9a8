import ConcreteSyntax.Diagnostic.Basic
import ConcreteSyntax.Node.OfToken
import ConcreteSyntax.Node.Retag
import ConcreteSyntax.Token.Basic

/-! # Trees of a later text

A text that stands some bytes later in a longer one has the same tokens, nodes and diagnostics
there, each as many bytes later (`Range.shift`, `Node.shift`, `Diagnostic.shift`). Whatever is made
of nodes is made of the shifted ones alike: a finished draft (`Draft.finish_shift`), a path or a
condition that is read again (`Node.asType_shift`, `Node.asPath_shift`, `Node.asLetChain_shift`) and
the node of a token (`Token.Shifted.ofToken`). -/

namespace ConcreteSyntax

variable {k : Nat}

/-! ### Ranges, faults and diagnostics -/

namespace Range

/-- The range some bytes later. -/
def shift (k : Nat) (r : Range) : Range := ⟨r.start + k, r.stop + k⟩

@[simp] theorem shift_zero (r : Range) : r.shift 0 = r := rfl

theorem shift_hull (r s : Range) : (r.hull s).shift k = (r.shift k).hull (s.shift k) := by
  simp only [shift, hull, Nat.add_min_add_right, Nat.add_max_add_right]

end Range

/-- The piece some bytes later. -/
def Piece.shift (k : Nat) (p : Piece) : Piece := { p with range := p.range.shift k }

/-- The fault some bytes later. -/
def Fault.shift (k : Nat) (f : Fault) : Fault := { f with range := f.range.shift k }

/-- The diagnostic some bytes later. -/
def Diagnostic.shift (k : Nat) (d : Diagnostic) : Diagnostic :=
  { d with range := d.range.map (Range.shift k) }

/-- The token some bytes later. -/
def Token.shift (k : Nat) (t : Token) : Token :=
  { t with
    range := t.range.shift k
    pieces := t.pieces.map (Piece.shift k)
    faults := t.faults.map (Fault.shift k) }

/-- A token that stands some bytes later in another text, whether or not a line ends before it. -/
structure Token.Shifted (k : Nat) (t t' : Token) : Prop where
  kind : t'.kind = t.kind
  range : t'.range = t.range.shift k
  pieces : t'.pieces = t.pieces.map (Piece.shift k)
  faults : t'.faults = t.faults.map (Fault.shift k)

/-! ### Nodes -/

namespace Node

mutual

/-- The node some bytes later. -/
def shift (k : Nat) : Node → Node
  | ⟨kind, range, flags, children⟩ => ⟨kind, range.shift k, flags, shiftAll k children⟩

/-- Every child some bytes later. -/
def shiftAll (k : Nat) : List (Option Field × Node) → List (Option Field × Node)
  | [] => []
  | (label, n) :: rest => (label, shift k n) :: shiftAll k rest

end

end Node

/-- The child some bytes later, under its label. -/
def Child.shift (k : Nat) (c : Child) : Child := (c.1, c.2.shift k)

namespace Node

theorem shiftAll_eq_map (children : List Child) :
    shiftAll k children = children.map (Child.shift k) := by
  induction children with
  | nil => rfl
  | cons c children ih =>
    obtain ⟨label, n⟩ := c
    rw [shiftAll, ih, List.map_cons]
    rfl

@[simp] theorem shift_kind (n : Node) : (n.shift k).kind = n.kind := by
  obtain ⟨kind, range, flags, children⟩ := n
  rfl

@[simp] theorem shift_range (n : Node) : (n.shift k).range = n.range.shift k := by
  obtain ⟨kind, range, flags, children⟩ := n
  rfl

@[simp] theorem shift_flags (n : Node) : (n.shift k).flags = n.flags := by
  obtain ⟨kind, range, flags, children⟩ := n
  rfl

@[simp] theorem shift_children (n : Node) :
    (n.shift k).children = n.children.map (Child.shift k) := by
  obtain ⟨kind, range, flags, children⟩ := n
  rw [shift, shiftAll_eq_map]

mutual

theorem shift_zero : (n : Node) → n.shift 0 = n
  | ⟨kind, range, flags, children⟩ => by
    rw [shift, shiftAll_zero children, Range.shift_zero]

theorem shiftAll_zero : (children : List (Option Field × Node)) → shiftAll 0 children = children
  | [] => rfl
  | (label, n) :: rest => by
    rw [shiftAll, shift_zero n, shiftAll_zero rest]

end

@[simp] theorem hasError_shift (n : Node) : (n.shift k).hasError = n.hasError := by
  simp [hasError, isError, isMissing]

@[simp] theorem isExtra_shift (n : Node) : (n.shift k).isExtra = n.isExtra := by
  simp [isExtra]

@[simp] theorem isLeaf_shift (n : Node) : (n.shift k).isLeaf = n.isLeaf := by
  simp [isLeaf]

theorem withKind_shift (n : Node) (kind : Kind) :
    (n.shift k).withKind kind = (n.withKind kind).shift k := by
  obtain ⟨kind', range, flags, children⟩ := n
  rfl

theorem withFlags_shift (n : Node) (flags : NodeFlags) :
    (n.shift k).withFlags flags = (n.withFlags flags).shift k := by
  obtain ⟨kind, range, flags', children⟩ := n
  rfl

theorem leaf_shift (kind : Kind) (range : Range) (flags : NodeFlags) :
    leaf kind (range.shift k) flags = (leaf kind range flags).shift k := rfl

end Node

@[simp] theorem Child.shift_zero : Child.shift 0 = id := by
  funext c
  simp [Child.shift, Node.shift_zero]

/-! ### Drafts -/

namespace Draft

/-- The draft some bytes later. -/
def shift (k : Nat) (d : Draft) : Draft := { d with children := d.children.map (Child.shift k) }

@[simp] theorem shift_kind (d : Draft) : (d.shift k).kind = d.kind := rfl

@[simp] theorem shift_flags (d : Draft) : (d.shift k).flags = d.flags := rfl

@[simp] theorem toList_shift (d : Draft) :
    (d.shift k).children.toList = d.children.toList.map (Child.shift k) := by
  simp [shift]

@[simp] theorem shift_ofKind (kind : Kind) : (ofKind kind).shift k = ofKind kind := by
  simp [shift, ofKind]

@[simp] theorem shift_setKind (d : Draft) (kind : Kind) :
    (d.setKind kind).shift k = (d.shift k).setKind kind := rfl

@[simp] theorem isEmpty_shift (d : Draft) : (d.shift k).isEmpty = d.isEmpty := by
  simp [shift, isEmpty, Array.isEmpty]

@[simp] theorem hasError_shift (d : Draft) : (d.shift k).hasError = d.hasError := by
  have hany (e : Draft) : e.hasError = e.children.toList.any (·.2.hasError) := by
    simp [hasError]
  rw [hany, hany, toList_shift]
  simp [Child.shift, Function.comp_def]

theorem clearFields_shift (d : Draft) : (d.shift k).clearFields = d.clearFields.shift k := by
  simp [clearFields, shift, Child.shift, Function.comp_def]

theorem finishOver_shift (d : Draft) (r : Range) :
    (d.shift k).finishOver (r.shift k) = (d.finishOver r).shift k := by
  unfold finishOver
  rw [Node.shift, hasError_shift, toList_shift, Node.shiftAll_eq_map]
  rfl

theorem span_shift (d : Draft) (offset : Nat) :
    (d.shift k).span (offset + k) = (d.span offset).shift k := by
  have hfold (cs : List Child) (r : Range) :
      (cs.map (Child.shift k)).foldl (fun r c => r.hull c.2.range) (r.shift k) =
        (cs.foldl (fun r c => r.hull c.2.range) r).shift k := by
    induction cs generalizing r with
    | nil => rfl
    | cons c cs ih =>
      rw [List.map_cons, List.foldl_cons, List.foldl_cons, ← ih, Range.shift_hull]
      simp [Child.shift]
  unfold span
  rw [toList_shift]
  cases d.children.toList with
  | nil => rfl
  | cons c cs => simpa [Child.shift] using hfold cs c.2.range

/-- The finished node stands as many bytes later. -/
theorem finish_shift (d : Draft) (offset : Nat) :
    (d.shift k).finish (offset + k) = (d.finish offset).shift k := by
  unfold finish
  rw [span_shift, finishOver_shift]

/-- A draft that has collected, after the children `pre`, what another one has, some bytes later.
With nothing before, its kind and its marks are the same, too. -/
structure After (k : Nat) (pre : List Child) (d d' : Draft) : Prop where
  children : d'.children.toList = pre ++ d.children.toList.map (Child.shift k)
  whole : pre = [] → d'.kind = d.kind ∧ d'.flags = d.flags

theorem After.of_shift (d : Draft) : After k [] d (d.shift k) :=
  ⟨by simp, fun _ => ⟨rfl, rfl⟩⟩

namespace After

variable {pre : List Child} {d d' : Draft}

theorem eq_shift (h : After k [] d d') : d' = d.shift k := by
  obtain ⟨kind', flags', children'⟩ := d'
  obtain ⟨rfl, rfl⟩ := h.whole rfl
  have hchildren : children' = d.children.map (Child.shift k) := by
    apply Array.toList_inj.1
    simpa using h.children
  rw [hchildren]
  rfl

theorem setKind (h : After k pre d d') (kind : Kind) : After k pre (d.setKind kind) (d'.setKind kind) :=
  ⟨h.children, fun hpre => ⟨rfl, (h.whole hpre).2⟩⟩

theorem addFlags (h : After k pre d d') (flags : NodeFlags) :
    After k pre (d.addFlags flags) (d'.addFlags flags) :=
  ⟨h.children, fun hpre => ⟨(h.whole hpre).1, congrArg (NodeFlags.union · flags) (h.whole hpre).2⟩⟩

theorem pushChild (h : After k pre d d') (label : Option Field) (n : Node) :
    After k pre (d.pushChild label n) (d'.pushChild label (n.shift k)) := by
  refine ⟨?_, h.whole⟩
  simp [Draft.pushChild, h.children, Child.shift]

theorem extend (h : After k pre d d') (more : List Child) :
    After k pre (d.extend more) (d'.extend (more.map (Child.shift k))) := by
  refine ⟨?_, h.whole⟩
  simp [Draft.extend, h.children]

end After

end Draft

/-! ### Nodes of tokens -/

namespace Node

theorem ofPieces_shift (kind : Kind) (flags : NodeFlags) (range : Range) (pieces : List Piece) :
    ofPieces kind flags (range.shift k) (pieces.map (Piece.shift k)) =
      (ofPieces kind flags range pieces).shift k := by
  unfold ofPieces
  rw [← Draft.finishOver_shift]
  simp [Draft.shift, Child.shift, Piece.shift, ← leaf_shift, Function.comp_def]

/-- The node of a comment that stands some bytes later. -/
theorem ofComment_shift (t : Token) : ofComment (t.shift k) = (ofComment t).shift k := by
  unfold ofComment
  simp only [Token.shift, List.isEmpty_map, ofPieces_shift, leaf_shift]
  split <;> rfl

end Node

/-- The node of a token that stands some bytes later. -/
theorem Token.Shifted.ofToken {t t' : Token} (h : t.Shifted k t') (as? : Option Kind) :
    Node.ofToken t' as? = (Node.ofToken t as?).shift k := by
  have hkind : Node.literalKind? t' as?.isNone = Node.literalKind? t as?.isNone := by
    simp [Node.literalKind?, h.kind, h.pieces]
  unfold Node.ofToken
  simp only [hkind, h.kind, h.range, h.pieces, h.faults, List.isEmpty_map, Node.ofPieces_shift,
    Node.leaf_shift]
  split <;> rfl

/-! ### Nodes that are read again -/

namespace Node

theorem rebuild_shift (n : Node) (kind : Kind) (flags : NodeFlags) (children : List Child) :
    rebuild (n.shift k) kind flags (children.map (Child.shift k)) =
      (rebuild n kind flags children).shift k := by
  unfold rebuild
  rw [shift_range, ← Draft.finishOver_shift]
  simp [Draft.shift]

mutual

/-- A path is read as one of a type alike. -/
theorem asType_shift : (n : Node) → (n.shift k).asType = n.asType.shift k
  | ⟨kind, range, flags, children⟩ => by
    have hnames := namesAsTypes_shift children
    have hfunctions := functionsAsTypes_shift children
    rw [shift]
    by_cases hname : kind = .identifier
    · subst hname
      rfl
    by_cases hscoped : kind = .scopedIdentifier
    · subst hscoped
      rw [asType, asType, hnames, ← rebuild_shift, shift, shiftAll_eq_map (namesAsTypes children)]
    by_cases hgeneric : kind = .genericFunction
    · subst hgeneric
      rw [asType, asType, hfunctions, ← rebuild_shift, shift, shiftAll_eq_map (functionsAsTypes children)]
    have hsame (r : Range) (cs : List Child) :
        asType ⟨kind, r, flags, cs⟩ = ⟨kind, r, flags, cs⟩ := by
      refine asType.eq_4 _ ?_ ?_ ?_
      · intro _ _ _ h
        exact hname (congrArg Node.kind h)
      · intro _ _ _ h
        exact hscoped (congrArg Node.kind h)
      · intro _ _ _ h
        exact hgeneric (congrArg Node.kind h)
    rw [hsame, hsame, shift]

theorem namesAsTypes_shift : (children : List (Option Field × Node)) →
    namesAsTypes (shiftAll k children) = shiftAll k (namesAsTypes children)
  | [] => rfl
  | (label, n) :: rest => by
    have hn := asType_shift n
    have hrest := namesAsTypes_shift rest
    rw [shiftAll]
    by_cases hname : label = some .name
    · subst hname
      rw [namesAsTypes, namesAsTypes, shiftAll, hn, hrest]
    · have hsame (n : Node) (rest : List (Option Field × Node)) :
          namesAsTypes ((label, n) :: rest) = (label, n) :: namesAsTypes rest :=
        namesAsTypes.eq_3 _ _ fun _ h => hname (congrArg Prod.fst h)
      rw [hsame, hsame, shiftAll, hrest]

theorem functionsAsTypes_shift : (children : List (Option Field × Node)) →
    functionsAsTypes (shiftAll k children) = shiftAll k (functionsAsTypes children)
  | [] => rfl
  | (label, n) :: rest => by
    have hn := asType_shift n
    have hrest := functionsAsTypes_shift rest
    rw [shiftAll]
    by_cases hfunction : label = some .function
    · subst hfunction
      rw [functionsAsTypes, functionsAsTypes, shiftAll, hn, hrest]
    · have hsame (n : Node) (rest : List (Option Field × Node)) :
          functionsAsTypes ((label, n) :: rest) = (label, n) :: functionsAsTypes rest :=
        functionsAsTypes.eq_3 _ _ fun _ h => hfunction (congrArg Prod.fst h)
      rw [hsame, hsame, shiftAll, hrest]

end

mutual

/-- The path of a type is read as one of a value alike. -/
theorem asPath_shift : (n : Node) → (n.shift k).asPath = n.asPath.shift k
  | ⟨kind, range, flags, children⟩ => by
    have hnames := namesAsPaths_shift children
    rw [shift]
    by_cases hname : kind = .typeIdentifier
    · subst hname
      rfl
    by_cases hscoped : kind = .scopedTypeIdentifier
    · subst hscoped
      rw [asPath, asPath, hnames, ← rebuild_shift, shift, shiftAll_eq_map (namesAsPaths children)]
    have hsame (r : Range) (cs : List Child) :
        asPath ⟨kind, r, flags, cs⟩ = ⟨kind, r, flags, cs⟩ := by
      refine asPath.eq_3 _ ?_ ?_
      · intro _ _ _ h
        exact hname (congrArg Node.kind h)
      · intro _ _ _ h
        exact hscoped (congrArg Node.kind h)
    rw [hsame, hsame, shift]

theorem namesAsPaths_shift : (children : List (Option Field × Node)) →
    namesAsPaths (shiftAll k children) = shiftAll k (namesAsPaths children)
  | [] => rfl
  | (label, n) :: rest => by
    have hn := asPath_shift n
    have hrest := namesAsPaths_shift rest
    rw [shiftAll]
    by_cases hname : label = some .name
    · subst hname
      rw [namesAsPaths, namesAsPaths, shiftAll, hn, hrest]
    · have hsame (n : Node) (rest : List (Option Field × Node)) :
          namesAsPaths ((label, n) :: rest) = (label, n) :: namesAsPaths rest :=
        namesAsPaths.eq_3 _ _ fun _ h => hname (congrArg Prod.fst h)
      rw [hsame, hsame, shiftAll, hrest]

end

/-! ### Conditions -/

theorem childByField?_shift (n : Node) (label : Field) :
    (n.shift k).childByField? label = (n.childByField? label).map (Node.shift k) := by
  unfold childByField?
  rw [shift_children, List.find?_map, Option.map_map, Option.map_map]
  rfl

@[simp] theorem isConjunction_shift (n : Node) : (n.shift k).isConjunction = n.isConjunction := by
  simp [isConjunction, childByField?_shift, Option.any_map]

mutual

@[simp] theorem hasLet_shift : (n : Node) → (n.shift k).hasLet = n.hasLet
  | ⟨kind, range, flags, children⟩ => by
    have hconj := isConjunction_shift (k := k) ⟨kind, range, flags, children⟩
    rw [shift] at hconj ⊢
    rw [hasLet, hasLet, hconj, anyOperandHasLet_shift children]

theorem anyOperandHasLet_shift : (children : List (Option Field × Node)) →
    anyOperandHasLet (shiftAll k children) = anyOperandHasLet children
  | [] => rfl
  | (label, n) :: rest => by
    rw [shiftAll, anyOperandHasLet, anyOperandHasLet, hasLet_shift n, anyOperandHasLet_shift rest]

end

mutual

theorem conjuncts_shift : (n : Node) → (n.shift k).conjuncts = n.conjuncts.map (Node.shift k)
  | ⟨kind, range, flags, children⟩ => by
    have hconj := isConjunction_shift (k := k) ⟨kind, range, flags, children⟩
    rw [shift] at hconj ⊢
    rw [conjuncts, conjuncts, hconj, conjunctsOf_shift children]
    split
    · rfl
    · rw [List.map_singleton, shift]

theorem conjunctsOf_shift : (children : List (Option Field × Node)) →
    conjunctsOf (shiftAll k children) = (conjunctsOf children).map (Node.shift k)
  | [] => rfl
  | (label, n) :: rest => by
    rw [shiftAll, conjunctsOf, conjunctsOf, conjuncts_shift n, conjunctsOf_shift rest]
    split <;> simp

end

/-- A condition is flattened alike. -/
theorem asLetChain_shift (n : Node) : (n.shift k).asLetChain = n.asLetChain.shift k := by
  unfold asLetChain
  rw [isConjunction_shift, hasLet_shift, conjuncts_shift]
  split
  · rw [← rebuild_shift, List.map_map, List.map_map]
    rfl
  · rfl

end Node

end ConcreteSyntax
