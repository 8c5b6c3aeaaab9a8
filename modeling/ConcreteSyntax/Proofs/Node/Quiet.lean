import ConcreteSyntax.Node.OfToken
import ConcreteSyntax.Node.Traversal
import ConcreteSyntax.Proofs.Node.Draft
import ConcreteSyntax.Proofs.Node.Retag
import ConcreteSyntax.Proofs.Token.Scanner

/-! # Quiet nodes

A node is *quiet* when no error and no missing token stands at it or below it, and its flags say so
(`Node.Quiet`). A draft with quiet children finishes as a quiet node, reading a quiet node again
keeps it quiet, and a token without faults is quiet. A node is *faultless* when neither it nor a node
below it is marked as an error (`Node.Faultless`); unlike a quiet node it may hold tokens that are
missing. -/

namespace ConcreteSyntax

/-- No error and no missing token stands at the node or below it. -/
inductive Node.Quiet : Node → Prop
  | mk {n : Node} (kind : n.kind ≠ .error) (error : n.flags.error = false)
      (missing : n.flags.missing = false) (hasError : n.flags.hasError = false)
      (children : ∀ c ∈ n.children, c.2.Quiet) : n.Quiet

/-- A draft whose children are quiet, and which is no error if it is fair. -/
structure Draft.Quiet (d : Draft) (fair : Bool) : Prop where
  kind : fair = true → d.kind ≠ .error
  error : d.flags.error = false
  missing : d.flags.missing = false
  hasError : d.flags.hasError = false
  children : ∀ c ∈ d.children.toList, c.2.Quiet

namespace Node

theorem Quiet.error {n : Node} (h : n.Quiet) : n.flags.error = false := by
  cases h
  assumption

theorem Quiet.children {n : Node} (h : n.Quiet) : ∀ c ∈ n.children, c.2.Quiet := by
  cases h
  assumption

theorem Quiet.hasError_eq {n : Node} (h : n.Quiet) : n.hasError = false := by
  obtain ⟨hk, he, hm, hf, -⟩ := h
  simp [Node.hasError, Node.isError, Node.isMissing, hk, he, hm, hf]

/-! ### Finishing -/

theorem quiet_finishOver {d : Draft} (h : d.Quiet true) (range : Range) :
    (d.finishOver range).Quiet := by
  have hchildren : d.hasError = false := by
    rw [Draft.hasError, Array.any_eq_false']
    exact fun c hc => by simp [(h.children c (Array.mem_toList_iff.2 hc)).hasError_eq]
  refine ⟨h.kind rfl, ?_, h.missing, ?_, h.children⟩
  · simp [Draft.finishOver, h.error, h.kind rfl]
  · simp [Draft.finishOver, h.hasError, hchildren]

theorem quiet_rebuild {n : Node} {kind : Kind} {flags : NodeFlags} {children : List Child}
    (hk : kind ≠ .error) (hf : flags.error = false ∧ flags.missing = false ∧ flags.hasError = false)
    (hc : ∀ c ∈ children, c.2.Quiet) : (rebuild n kind flags children).Quiet :=
  quiet_finishOver ⟨fun _ => hk, hf.1, hf.2.1, hf.2.2, by simpa using hc⟩ _

theorem quiet_leaf {kind : Kind} (hk : kind ≠ .error) (hs : kind ≠ .errorSentinel) {range : Range}
    {flags : NodeFlags}
    (hf : flags.error = false ∧ flags.missing = false ∧ flags.hasError = false) :
    (leaf kind range flags).Quiet := by
  refine ⟨hk, ?_, ?_, ?_, nofun⟩ <;> simp [leaf, hs, hf]

/-! ### Reading again -/

theorem quiet_withKind {n : Node} {kind : Kind} (h : n.Quiet) (hk : kind ≠ .error) :
    (n.withKind kind).Quiet := by
  obtain ⟨-, he, hm, hf, hc⟩ := h
  exact ⟨hk, he, hm, hf, hc⟩

theorem quiet_ambiguous {n : Node} (h : n.Quiet) : (n.withFlags { ambiguous := true }).Quiet := by
  obtain ⟨hk, he, hm, hf, hc⟩ := h
  refine ⟨hk, ?_, ?_, ?_, hc⟩ <;> simp [withFlags, NodeFlags.union, he, hm, hf]

theorem lasting_quiet : Lasting Quiet where
  children h := h.children
  renamed _ hk h :=
    quiet_withKind h (Kind.ne_of_isFree (Kind.isFree_of_isReread (Kind.isReread_of_isPathEnd hk))).1
  rebuilt hk h :=
    quiet_rebuild (Kind.ne_of_isFree (Kind.isFree_of_isReread hk)).1 ⟨rfl, rfl, rfl⟩ h

/-! ### Tokens -/

/-- The pieces of a token that could be read are quiet, and so is the node over them. -/
theorem quiet_ofPieces {kind : Kind} {flags : NodeFlags} {range : Range} {pieces : List Piece}
    (hk : kind ≠ .error)
    (hf : flags.error = false ∧ flags.missing = false ∧ flags.hasError = false)
    (hp : ∀ p ∈ pieces, p.kind ≠ .error ∧ p.kind ≠ .errorSentinel) :
    (ofPieces kind flags range pieces).Quiet := by
  refine quiet_finishOver ⟨fun _ => hk, hf.1, hf.2.1, hf.2.2, ?_⟩ range
  refine List.forall_mem_map.2 fun p h => ?_
  exact quiet_leaf (hp p h).1 (hp p h).2 ⟨rfl, rfl, rfl⟩

theorem quiet_ofComment {t : Token} (hl : t.Laid) (hc : t.kind.isComment = true) :
    (ofComment t).Quiet := by
  have hfaults : t.faults = [] := hl.faultless (Kind.mayBeFaulty_of_isComment hc)
  obtain ⟨hread, hpieces⟩ := hl.readable hfaults
  unfold ofComment
  split
  · exact quiet_leaf hl.kind_ne hread ⟨rfl, rfl, rfl⟩
  · exact quiet_ofPieces hl.kind_ne ⟨rfl, rfl, rfl⟩ fun p hp => ⟨hl.piece_ne p hp, hpieces p hp⟩

/-- A token without faults is quiet, under whatever kind it is read. -/
theorem quiet_ofToken {t : Token} (hl : t.Laid) (hf : t.faults = []) {as? : Option Kind}
    (has : ∀ kind, as? = some kind → kind ≠ .error ∧ kind ≠ .errorSentinel) :
    (ofToken t as?).Quiet := by
  obtain ⟨hread, hpieces⟩ := hl.readable hf
  have hflags : ({ error := !t.faults.isEmpty } : NodeFlags) = {} := by simp [hf]
  rcases ofToken_cases t as? with ⟨kind, hkind, he⟩ | ⟨he, -⟩ <;> rw [he, hflags]
  · exact quiet_ofPieces (Kind.ne_of_isFree (Kind.isFree_of_isPieced hkind)).1 ⟨rfl, rfl, rfl⟩
      fun p hp => ⟨hl.piece_ne p hp, hpieces p hp⟩
  · cases as? with
    | none => exact quiet_leaf hl.kind_ne hread ⟨rfl, rfl, rfl⟩
    | some kind => exact quiet_leaf (has kind rfl).1 (has kind rfl).2 ⟨rfl, rfl, rfl⟩

end Node

/-! ### Nodes without faulty tokens -/

/-- No error is marked at the node or below it. -/
inductive Node.Faultless : Node → Prop
  | mk {n : Node} (error : n.flags.error = false) (children : ∀ c ∈ n.children, c.2.Faultless) :
      n.Faultless

/-- A draft that finishes as a faultless node. -/
structure Draft.Faultless (d : Draft) : Prop where
  kind : d.kind ≠ .error
  error : d.flags.error = false
  children : ∀ c ∈ d.children.toList, c.2.Faultless

namespace Node

theorem Faultless.error {n : Node} (h : n.Faultless) : n.flags.error = false := by
  cases h
  assumption

theorem Quiet.faultless {n : Node} (h : n.Quiet) : n.Faultless := by
  induction h with
  | mk _ error _ _ _ ih => exact ⟨error, ih⟩

/-- A missing token is no faulty one. -/
theorem faultless_missing {kind : Kind} (hk : kind ≠ .errorSentinel) (range : Range) :
    (leaf kind range { missing := true }).Faultless := by
  refine ⟨?_, nofun⟩
  simp only [leaf, if_neg hk]

theorem faultless_finishOver {d : Draft} (h : d.Faultless) (range : Range) :
    (d.finishOver range).Faultless := by
  refine ⟨?_, h.children⟩
  simp [Draft.finishOver, h.error, h.kind]

end Node

namespace Draft.Faultless

variable {d : Draft}

theorem ofKind {kind : Kind} (h : kind ≠ .error) : (Draft.ofKind kind).Faultless :=
  ⟨h, rfl, nofun⟩

theorem extend (h : d.Faultless) {more : List Child} (hm : ∀ c ∈ more, c.2.Faultless) :
    (d.extend more).Faultless :=
  ⟨h.kind, h.error, forall_mem_extend.2 ⟨h.children, hm⟩⟩

theorem pushChild (h : d.Faultless) {n : Node} (hn : n.Faultless) (label : Option Field) :
    (d.pushChild label n).Faultless :=
  ⟨h.kind, h.error, forall_mem_pushChild.2 ⟨h.children, hn⟩⟩

end Draft.Faultless

end ConcreteSyntax
