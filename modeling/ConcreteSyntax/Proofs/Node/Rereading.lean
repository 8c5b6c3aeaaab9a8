import ConcreteSyntax.Proofs.Node.Place
import ConcreteSyntax.Proofs.Node.Rereadable

/-! # What reading again keeps

A node that is read again echoes itself (`Node.Echoes`): it keeps its range, its error and its leaves,
comments included, and of these only the role of a name may change. What `Node.asType` changes stands
at the paths that `Node.Retyped` lists: the node itself, the name of a scoped path, and the path that
has arguments; everything else is the same node under the same label as before (`Node.reach?_asType`,
`Node.reach?_asType_of_not`). A chain is no conjunction, so it stays as it is
(`Node.asLetChain_asLetChain`). -/

namespace ConcreteSyntax

/-- The kind of a name, whether that of a value or of a type. -/
def Kind.untyped : Kind → Kind
  | .typeIdentifier => .identifier
  | kind => kind

namespace Node

/-! ### Leaves and errors -/

/-- What is alike of all elements of a list is found in it or not. -/
theorem any_eq_of_forall {α : Type} {l : List α} {p q : α → Bool} (h : ∀ x ∈ l, p x = q x) :
    l.any p = l.any q := by
  rw [List.any_eq, List.any_eq]
  exact decide_eq_decide.2 (exists_congr fun x => and_congr_right fun hx => by rw [h x hx])

/-- What a leaf is, apart from the role of a name: its kind, its range and its flags. -/
def trace (n : Node) : Kind × Range × NodeFlags := (n.kind.untyped, n.range, n.flags)

/-- `m` is over the range of `n`, and has an error just if `n` has one; its leaves are those of `n`,
apart from the roles of names. -/
structure Echoes (m n : Node) : Prop where
  range : m.range = n.range
  hasError : m.hasError = n.hasError
  leaves : m.leaves.map trace = n.leaves.map trace

theorem Echoes.refl (n : Node) : n.Echoes n := ⟨rfl, rfl, rfl⟩

/-- A name in another role. -/
theorem echoes_withKind {n : Node} {kind : Kind} (hk : kind.untyped = n.kind.untyped)
    (herror : (kind == .error) = (n.kind == .error)) : (n.withKind kind).Echoes n := by
  refine ⟨rfl, ?_, ?_⟩
  · simp [hasError, isError, isMissing, withKind, herror]
  · rw [leaves_eq, leaves_eq]
    show List.map trace (if n.children = [] then _ else _) = _
    split
    · simp [trace, withKind, hk]
    · rfl

theorem hasError_rebuild (n : Node) {kind : Kind} (hk : kind ≠ .error) (ambiguous : Bool)
    (children : List Child) :
    (rebuild n kind { ambiguous } children).hasError = children.any (·.2.hasError) := by
  simp [rebuild, Draft.finishOver, Draft.hasError, hasError, isError, isMissing, hk]

namespace Whole

variable {n : Node}

theorem hasError_eq (h : n.Whole) (hk : n.kind ≠ .error) :
    n.hasError = n.children.any (·.2.hasError) := by
  rw [Node.hasError, isError, isMissing, h.error, h.missing, h.hasError, beq_false_of_ne hk]
  simp

theorem leaves_eq (h : n.Whole) : n.leaves = n.children.flatMap (·.2.leaves) := by
  rw [Node.leaves_eq, if_neg h.parts]

/-- A whole node that is rebuilt over its children, some of them read again. -/
theorem echoes_rebuild (h : n.Whole) (hn : n.kind ≠ .error) {kind : Kind} (hk : kind ≠ .error)
    (ambiguous : Bool) {old new : Field} {change : Node → Node}
    (hchange : ∀ c ∈ n.children, (change c.2).Echoes c.2) :
    (rebuild n kind { ambiguous } (n.children.map (Child.again old new change))).Echoes n := by
  have hagain : ∀ c ∈ n.children, (Child.again old new change c).2.Echoes c.2 := by
    intro c hc
    unfold Child.again
    split
    · exact hchange c hc
    · exact .refl c.2
  have hrebuilt := whole_rebuild n hk ambiguous
    (fun hnil => h.parts (List.map_eq_nil_iff.1 hnil) :
      n.children.map (Child.again old new change) ≠ [])
  refine ⟨rfl, ?_, ?_⟩
  · rw [hasError_rebuild n hk, h.hasError_eq hn, List.any_map]
    exact any_eq_of_forall fun c hc => (hagain c hc).hasError
  · rw [hrebuilt.leaves_eq, h.leaves_eq, children_rebuild, List.flatMap_map, List.map_flatMap,
      List.map_flatMap]
    exact List.flatMap_congr fun c hc => (hagain c hc).leaves

end Whole

namespace Rereadable

variable {n : Node}

theorem echoes_asType (h : n.Rereadable) : n.asType.Echoes n := by
  induction n using Node.induction with
  | step n ih =>
    have hchildren : ∀ c ∈ n.children, c.2.asType.Echoes c.2 :=
      fun c hc => ih c hc (h.children c hc)
    rw [asType_eq]
    split
    · next hk => exact echoes_withKind (by rw [hk]; rfl) (by rw [hk]; rfl)
    · split
      · next hk =>
        exact (h.whole (by rw [hk]; rfl)).echoes_rebuild (by rw [hk]; nofun) (by nofun) _ hchildren
      · split
        · next hk =>
          exact (h.whole (by rw [hk]; rfl)).echoes_rebuild (by rw [hk]; nofun) (by nofun) false
            hchildren
        · exact .refl n

theorem echoes_asPath (h : n.Rereadable) : n.asPath.Echoes n := by
  induction n using Node.induction with
  | step n ih =>
    have hchildren : ∀ c ∈ n.children, c.2.asPath.Echoes c.2 :=
      fun c hc => ih c hc (h.children c hc)
    rw [asPath_eq]
    split
    · next hk => exact echoes_withKind (by rw [hk]; rfl) (by rw [hk]; rfl)
    · split
      · next hk =>
        exact (h.whole (by rw [hk]; rfl)).echoes_rebuild (by rw [hk]; nofun) (by nofun) _ hchildren
      · exact .refl n

/-- A conjunction is a whole of its operands and marks. -/
theorem whole_of_isConjunction (h : n.Rereadable) (hc : n.isConjunction = true) : n.Whole :=
  h.whole (by rw [kind_of_isConjunction hc]; rfl)

theorem any_conjuncts (h : n.Rereadable) : n.conjuncts.any (·.hasError) = n.hasError := by
  induction n using Node.induction with
  | step n ih =>
    rw [conjuncts_eq]
    split
    · next hconj =>
      rw [(h.whole_of_isConjunction hconj).hasError_eq (by rw [kind_of_isConjunction hconj]; nofun),
        List.any_flatMap]
      refine any_eq_of_forall fun c hc => ?_
      split
      · exact ih c hc (h.children c hc)
      · simp
    · simp

/-- The leaves of a condition are those of its conjuncts. -/
theorem leaves_conjuncts (h : n.Rereadable) : n.conjuncts.flatMap (·.leaves) = n.leaves := by
  induction n using Node.induction with
  | step n ih =>
    rw [conjuncts_eq]
    split
    · next hconj =>
      rw [(h.whole_of_isConjunction hconj).leaves_eq, List.flatMap_assoc]
      refine List.flatMap_congr fun c hc => ?_
      split
      · exact ih c hc (h.children c hc)
      · exact List.flatMap_singleton _ _
    · exact List.flatMap_singleton _ _

theorem leaves_asLetChain (h : n.Rereadable) : n.asLetChain.leaves = n.leaves := by
  rcases n.asLetChain_cases with ⟨he, -⟩ | he <;> rw [he]
  · have hne : (n.conjuncts.map fun part => ((none, part) : Child)) ≠ [] :=
      fun hnil => n.conjuncts_ne_nil (List.map_eq_nil_iff.1 hnil)
    have hkind : Kind.letChain ≠ .error := nofun
    have hrebuilt := whole_rebuild n hkind false hne
    rw [hrebuilt.leaves_eq, children_rebuild, List.flatMap_map]
    exact h.leaves_conjuncts

theorem echoes_asLetChain (h : n.Rereadable) : n.asLetChain.Echoes n := by
  refine ⟨n.asLetChain_range, ?_, congrArg _ h.leaves_asLetChain⟩
  rcases n.asLetChain_cases with ⟨he, -⟩ | he <;> rw [he]
  rw [hasError_rebuild n (by nofun), List.any_map]
  exact h.any_conjuncts

end Rereadable

/-! ### What is read as a type -/

/-- The paths from a path of a value to what changes if it is read as one of a type: it itself, its
name, or the path before its arguments, and so on from there. -/
inductive Retyped : Node → List Nat → Prop
  | self (n : Node) : n.Retyped []
  | name {n m : Node} {i : Nat} {path : List Nat} (kind : n.kind = .scopedIdentifier)
      (child : n.children[i]? = some (some .name, m)) (below : m.Retyped path) :
      n.Retyped (i :: path)
  | function {n m : Node} {i : Nat} {path : List Nat} (kind : n.kind = .genericFunction)
      (child : n.children[i]? = some (some .function, m)) (below : m.Retyped path) :
      n.Retyped (i :: path)

/-- The label of a path before arguments, as that of a type. -/
def retypedLabel : Option Field → Option Field
  | some .function => some .type
  | label => label

/-- The child of a node, found again where the node is rebuilt. -/
theorem getElem?_again {n : Node} {kind : Kind} {flags : NodeFlags} {old new : Field}
    {change : Node → Node} (i : Nat) :
    (rebuild n kind flags (n.children.map (Child.again old new change))).children[i]? =
      n.children[i]?.map (Child.again old new change) := by
  rw [children_rebuild, List.getElem?_map]

/-- What changes is read as a type where it stands, and is a type to its parent if it is the path
before arguments. -/
theorem reach?_asType {n : Node} {path : List Nat} (h : n.Retyped path) (label : Option Field) :
    n.asType.reach? (retypedLabel label) path =
      (n.reach? label path).map fun c => (retypedLabel c.1, c.2.asType) := by
  induction h generalizing label with
  | self n => rfl
  | @name n m i path kind child below ih =>
    rw [asType_eq, if_neg (by rw [kind]; decide), if_pos kind, reach?, reach?, getElem?_again, child]
    exact ih (some .name)
  | @function n m i path kind child below ih =>
    rw [asType_eq, if_neg (by rw [kind]; decide), if_neg (by rw [kind]; decide), if_pos kind, reach?,
      reach?, getElem?_again, child]
    exact ih (some .function)

/-- What is below a node is reached whatever label the node itself has. -/
theorem reach?_of_ne_nil {n : Node} {path : List Nat} (h : path ≠ [])
    (label label' : Option Field) : n.reach? label path = n.reach? label' path := by
  cases path with
  | nil => exact absurd rfl h
  | cons i path => rfl

/-- Everything else stays as it is. -/
theorem reach?_asType_of_not {n : Node} {path : List Nat} (h : ¬ n.Retyped path)
    (label : Option Field) : n.asType.reach? label path = n.reach? label path := by
  induction path generalizing n label with
  | nil => exact absurd (.self n) h
  | cons i path ih =>
    have hrebuild {kind : Kind} {flags : NodeFlags} {old new : Field}
        (hagain : ∀ m, n.children[i]? = some (some old, m) → ¬ m.Retyped path) :
        (rebuild n kind flags (n.children.map (Child.again old new asType))).reach? label
          (i :: path) = n.reach? label (i :: path) := by
      rw [reach?, reach?, getElem?_again]
      cases hc : n.children[i]? with
      | none => rfl
      | some c =>
        obtain ⟨l, m⟩ := c
        show (Child.again old new asType (l, m)).2.reach? _ path = m.reach? l path
        unfold Child.again
        split
        · next hl =>
          obtain rfl : l = some old := hl
          have hm := hagain m hc
          have hne : path ≠ [] := fun hnil => hm (hnil ▸ .self m)
          rw [reach?_of_ne_nil hne (some new) (some old)]
          exact ih hm (some old)
        · rfl
    rw [asType_eq]
    split
    · rfl
    · split
      · next hk => exact hrebuild fun m hm hbelow => h (.name hk hm hbelow)
      · split
        · next hk => exact hrebuild fun m hm hbelow => h (.function hk hm hbelow)
        · rfl

/-! ### Chains -/

/-- A chain that was read from a condition is none to be read again. -/
theorem asLetChain_asLetChain (n : Node) : n.asLetChain.asLetChain = n.asLetChain := by
  rcases n.asLetChain_cases with ⟨he, -⟩ | he
  · rw [he]
    rfl
  · rw [he, he]

end Node

end ConcreteSyntax
