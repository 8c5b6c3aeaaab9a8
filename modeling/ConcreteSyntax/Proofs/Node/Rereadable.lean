import ConcreteSyntax.Proofs.Node.Sheds

/-! # Nodes that may be read again

A node that is read again is rebuilt from its parts: a mark of its own would get lost, and without
parts it would change as a leaf. A node of a kind that is rebuilt is *whole* if it has parts and no
mark but that of an error in one of them (`Node.Whole`); it may be read again if so is every node
below it, and if no operator and no element of a chain is a conjunction itself (`Node.Rereadable`).
Such a node may be read again once more (`Node.Rereadable.asType`, `Node.Rereadable.asPath`,
`Node.Rereadable.asLetChain`). A draft becomes one if it stands in a *mould* that suits its kind
(`Mould.Holds`, `Mould.Holds.rereadable`). -/

namespace ConcreteSyntax

/-! ### Kinds -/

namespace Kind

/-- The kinds of nodes that are rebuilt when they are read again, or were rebuilt. -/
def isRejoined : Kind → Bool
  | .scopedIdentifier | .scopedTypeIdentifier | .genericFunction | .binaryExpression
  | .letChain => true
  | _ => false

variable {k : Kind}

theorem isRejoined_of_isPiece (h : k.isPiece = true) : k.isRejoined = false := by
  revert h
  cases k <;> decide

theorem isRejoined_of_isPieced (h : k.isPieced = true) : k.isRejoined = false := by
  revert h
  cases k <;> decide

end Kind

/-! ### Nodes -/

namespace Node

/-- A node with parts and without a mark of its own: an error in it is one in a part. -/
structure Whole (n : Node) : Prop where
  parts : n.children ≠ []
  error : n.flags.error = false
  missing : n.flags.missing = false
  hasError : n.flags.hasError = n.children.any (·.2.hasError)

/-- A node that may be read again, with every node below it. -/
inductive Rereadable : Node → Prop
  | mk {n : Node} (whole : n.kind.isRejoined = true → n.Whole)
      (marks : n.isConjunction = true →
        ∀ c ∈ n.children, isOperand c.1 = false → c.2.isConjunction = false)
      (chain : n.kind = .letChain → ∀ c ∈ n.children, c.2.isConjunction = false)
      (children : ∀ c ∈ n.children, c.2.Rereadable) : n.Rereadable

theorem kind_of_isConjunction {n : Node} (h : n.isConjunction = true) :
    n.kind = .binaryExpression :=
  eq_of_beq (Bool.and_eq_true_iff.1 h).1

theorem isConjunction_of_kind {n : Node} (h : n.kind ≠ .binaryExpression) :
    n.isConjunction = false :=
  Bool.eq_false_iff.2 fun hc => h (kind_of_isConjunction hc)

/-- A node of a kind that is not rebuilt. -/
structure Plain (n : Node) : Prop where
  kind : n.kind.isRejoined = false
  rereadable : n.Rereadable

theorem Plain.isConjunction {n : Node} (h : n.Plain) : n.isConjunction = false := by
  refine isConjunction_of_kind fun hk => ?_
  have hkind := h.kind
  rw [hk] at hkind
  exact nomatch hkind

theorem plain_of_children {n : Node} (hk : n.kind.isRejoined = false)
    (hc : ∀ c ∈ n.children, c.2.Rereadable) : n.Plain := by
  refine ⟨hk, .mk (fun h => nomatch hk.symm.trans h) (fun h => ?_) (fun h => ?_) hc⟩
  · rw [kind_of_isConjunction h] at hk
    exact nomatch hk
  · rw [h] at hk
    exact nomatch hk

theorem plain_leaf {kind : Kind} (hk : kind.isRejoined = false) (range : Range)
    (flags : NodeFlags) : (leaf kind range flags).Plain :=
  plain_of_children hk nofun

theorem plain_ofPieces {kind : Kind} (hk : kind.isRejoined = false) {flags : NodeFlags}
    {range : Range} {pieces : List Piece} (hp : ∀ p ∈ pieces, p.kind.isPiece = true) :
    (ofPieces kind flags range pieces).Plain := by
  refine plain_of_children hk ?_
  rw [children_ofPieces]
  exact List.forall_mem_map.2 fun p h =>
    (plain_leaf (Kind.isRejoined_of_isPiece (hp p h)) p.range {}).rereadable

namespace Rereadable

variable {n : Node}

theorem children (h : n.Rereadable) : ∀ c ∈ n.children, c.2.Rereadable := by
  cases h
  assumption

theorem whole (h : n.Rereadable) : n.kind.isRejoined = true → n.Whole := by
  cases h
  assumption

theorem chain (h : n.Rereadable) : n.kind = .letChain →
    ∀ c ∈ n.children, c.2.isConjunction = false := by
  cases h
  assumption

theorem marks (h : n.Rereadable) : n.isConjunction = true →
    ∀ c ∈ n.children, isOperand c.1 = false → c.2.isConjunction = false := by
  cases h
  assumption

theorem withKind (h : n.Rereadable) {kind : Kind} (hk : kind.isRejoined = false) :
    (n.withKind kind).Plain :=
  plain_of_children hk h.children

/-- The mark of an ambiguity says nothing of errors. -/
theorem ambiguous (h : n.Rereadable) : (n.withFlags { ambiguous := true }).Rereadable := by
  refine .mk (fun hk => ?_) h.marks h.chain h.children
  obtain ⟨hparts, herror, hmissing, hsum⟩ := h.whole hk
  exact ⟨hparts, (Bool.or_false _).trans herror, (Bool.or_false _).trans hmissing,
    (Bool.or_false _).trans hsum⟩

end Rereadable

theorem Plain.withFlags {n : Node} (h : n.Plain) (flags : NodeFlags) : (n.withFlags flags).Plain :=
  plain_of_children h.kind h.rereadable.children

/-! ### Reading again -/

theorem whole_rebuild (n : Node) {kind : Kind} (hk : kind ≠ .error) (ambiguous : Bool)
    {children : List Child} (hne : children ≠ []) :
    (rebuild n kind { ambiguous } children).Whole := by
  refine ⟨by simpa [rebuild, Draft.finishOver] using hne, ?_, rfl, ?_⟩
  · simpa [rebuild, Draft.finishOver] using hk
  · simp [rebuild, Draft.finishOver, Draft.hasError]

theorem children_rebuild (n : Node) (kind : Kind) (flags : NodeFlags) (children : List Child) :
    (rebuild n kind flags children).children = children := by
  simp [rebuild, Draft.finishOver]

namespace Rereadable

variable {n : Node}

/-- A node that is rebuilt over rereadable children, and is no conjunction. -/
theorem rebuild (n : Node) {kind : Kind} (hk : kind ≠ .error) (hb : kind ≠ .binaryExpression)
    (ambiguous : Bool) {children : List Child} (hne : children ≠ [])
    (hchain : kind = .letChain → ∀ c ∈ children, c.2.isConjunction = false)
    (hc : ∀ c ∈ children, c.2.Rereadable) :
    (Node.rebuild n kind { ambiguous } children).Rereadable := by
  refine .mk (fun _ => whole_rebuild n hk ambiguous hne) (fun h => ?_) ?_ ?_
  · exact absurd (kind_of_isConjunction h) hb
  · rw [children_rebuild]
    exact hchain
  · rw [children_rebuild]
    exact hc

/-- A whole node that is rebuilt over its children, those with a label read again. -/
theorem rebuildAgain (h : n.Rereadable) (hn : n.kind.isRejoined = true) {kind : Kind}
    (hk : kind ≠ .error) (hb : kind ≠ .binaryExpression) (hl : kind ≠ .letChain) (ambiguous : Bool)
    {old new : Field} {change : Node → Node} (hchange : ∀ c ∈ n.children, (change c.2).Rereadable) :
    (Node.rebuild n kind { ambiguous }
      (n.children.map (Child.again old new change))).Rereadable := by
  have hne : n.children.map (Child.again old new change) ≠ [] :=
    fun hnil => (h.whole hn).parts (List.map_eq_nil_iff.1 hnil)
  refine .rebuild n hk hb ambiguous hne (fun hchain => absurd hchain hl) ?_
  refine List.forall_mem_map.2 fun c hc => ?_
  unfold Child.again
  split
  · exact hchange c hc
  · exact h.children c hc

/-- A path may be read again after it was read as one of a type. -/
theorem asType (h : n.Rereadable) : n.asType.Rereadable := by
  induction n using Node.induction with
  | step n ih =>
    have hchildren : ∀ c ∈ n.children, c.2.asType.Rereadable :=
      fun c hc => ih c hc (h.children c hc)
    rw [asType_eq]
    split
    · exact (h.withKind rfl).rereadable
    · split
      · next hk => exact h.rebuildAgain (by rw [hk]; rfl) (by nofun) (by nofun) (by nofun) _ hchildren
      · split
        · next hk =>
          exact h.rebuildAgain (by rw [hk]; rfl) (by nofun) (by nofun) (by nofun) false hchildren
        · exact h

theorem asPath (h : n.Rereadable) : n.asPath.Rereadable := by
  induction n using Node.induction with
  | step n ih =>
    have hchildren : ∀ c ∈ n.children, c.2.asPath.Rereadable :=
      fun c hc => ih c hc (h.children c hc)
    rw [asPath_eq]
    split
    · exact (h.withKind rfl).rereadable
    · split
      · next hk => exact h.rebuildAgain (by rw [hk]; rfl) (by nofun) (by nofun) (by nofun) _ hchildren
      · exact h

/-- The conjuncts of a condition may be read again, and none is a conjunction. -/
theorem conjuncts (h : n.Rereadable) :
    ∀ part ∈ n.conjuncts, part.Rereadable ∧ part.isConjunction = false := by
  induction n using Node.induction with
  | step n ih =>
    intro part hpart
    rw [conjuncts_eq] at hpart
    split at hpart
    · next hconj =>
      obtain ⟨c, hc, hpart⟩ := List.mem_flatMap.1 hpart
      split at hpart
      · exact ih c hc (h.children c hc) part hpart
      · next hoperand =>
        rw [List.mem_singleton.1 hpart]
        exact ⟨h.children c hc, h.marks hconj c hc (Bool.eq_false_iff.2 hoperand)⟩
    · next hconj =>
      rw [List.mem_singleton.1 hpart]
      exact ⟨h, Bool.eq_false_iff.2 hconj⟩

theorem asLetChain (h : n.Rereadable) : n.asLetChain.Rereadable := by
  rcases n.asLetChain_cases with ⟨he, -⟩ | he <;> rw [he]
  · refine .rebuild n (by nofun) (by nofun) false (by simpa using n.conjuncts_ne_nil)
      (fun _ => ?_) ?_
    · exact List.forall_mem_map.2 fun part hpart => (h.conjuncts part hpart).2
    · exact List.forall_mem_map.2 fun part hpart => (h.conjuncts part hpart).1
  · exact h

end Rereadable

end Node

/-! ### Drafts -/

/-- What a draft is to become: a node that is not rebuilt, a path, or an infix operator between its
operands. -/
inductive Mould where
  | plain
  | path
  | operation
  deriving DecidableEq

namespace Mould

/-- What a mould says of a draft. -/
def Holds : Mould → Draft → Prop
  | .plain, d => d.kind.isRejoined = false
  | .path, d => d.kind ≠ .error ∧ d.kind ≠ .letChain ∧ d.kind ≠ .binaryExpression ∧ d.flags = {}
  | .operation, d => d.kind = .binaryExpression ∧ d.flags = {} ∧
      ∀ c ∈ d.children.toList, Node.isOperand c.1 = false → c.2.isConjunction = false

/-- Whether a node may be added under a label. -/
def Takes (T : Mould) (label : Option Field) (n : Node) : Prop :=
  T = .operation → Node.isOperand label = false → n.isConjunction = false

variable {T : Mould} {d : Draft}

theorem takes_plain (label : Option Field) (n : Node) : plain.Takes label n := nofun

theorem takes_path (label : Option Field) (n : Node) : path.Takes label n := nofun

theorem Takes.of_plain {n : Node} (h : n.Plain) (label : Option Field) : T.Takes label n :=
  fun _ _ => h.isConjunction

/-- More children in a mould. -/
theorem Holds.extend (h : T.Holds d) {more : List Child} (hm : ∀ c ∈ more, T.Takes c.1 c.2) :
    T.Holds (d.extend more) := by
  cases T with
  | plain => exact h
  | path => exact h
  | operation =>
    exact ⟨h.1, h.2.1, Draft.forall_mem_extend.2 ⟨h.2.2, fun c hc => hm c hc rfl⟩⟩

/-- A draft in a mould becomes a node that may be read again; a path or an operation has to have
parts. -/
theorem Holds.rereadable (h : T.Holds d) (hd : ∀ c ∈ d.children.toList, c.2.Rereadable)
    (hne : T ≠ .plain → d.children.toList ≠ []) (range : Range) :
    (d.finishOver range).Rereadable := by
  have hwhole (hk : d.kind ≠ .error) (hf : d.flags = {}) (hne : d.children.toList ≠ []) :
      (d.finishOver range).Whole := by
    refine ⟨hne, ?_, ?_, ?_⟩
    · simpa [Draft.finishOver, hf] using hk
    · simp [Draft.finishOver, hf]
    · simp [Draft.finishOver, Draft.hasError, hf, Array.any_toList]
  cases T with
  | plain =>
    have hk : (d.finishOver range).kind.isRejoined = false := h
    exact (Node.plain_of_children hk hd).rereadable
  | path =>
    obtain ⟨herror, hchain, hbinary, hf⟩ := h
    exact .mk (fun _ => hwhole herror hf (hne (by decide)))
      (fun hc => absurd (Node.kind_of_isConjunction hc) hbinary) (fun hk => absurd hk hchain) hd
  | operation =>
    obtain ⟨hk, hf, hmarks⟩ := h
    refine .mk (fun _ => hwhole (by rw [hk]; decide) hf (hne (by decide))) (fun _ => hmarks)
      (fun hchain => ?_) hd
    exact absurd (hk.symm.trans hchain) (by decide)

end Mould

end ConcreteSyntax
