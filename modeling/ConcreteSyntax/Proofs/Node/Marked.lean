import ConcreteSyntax.Proofs.Node.Draft
import ConcreteSyntax.Proofs.Node.Retag
import ConcreteSyntax.Proofs.Token.Scanner

/-! # Nodes that are marked as they should be

The marks of a node speak of what stands at it and below it: an error has its mark and no labels, a
missing token is an empty leaf, the extras are the comments, what has no name has no children, and
the mark of an error below is what the children say of themselves (`Node.Marked`). A draft counts the
errors of its children when it is finished, so its node is marked as it should be
(`Node.marked_finishOver`); reading a node again counts them once more. At the root of marked nodes
one mark tells whether any of them is an error or a missing token (`Node.Marked.hasError_iff`). -/

namespace ConcreteSyntax

/-- A node and all nodes below it are marked as they should be. -/
inductive Node.Marked : Node → Prop
  | mk {n : Node} (hasError : n.flags.hasError = n.children.any (·.2.hasError))
      (error : n.kind = .error → n.flags.error = true ∧ ∀ c ∈ n.children, c.1 = none)
      (missing : n.flags.missing = true → n.children = [] ∧ n.range.start = n.range.stop)
      (extra : n.flags.extra = n.kind.isComment)
      (anonymous : n.isNamed = false → n.children = [])
      (children : ∀ c ∈ n.children, c.2.Marked) : n.Marked

/-- A draft over marked children, with no mark of its own but that of an error. -/
structure Draft.Marked (d : Draft) : Prop where
  extra : d.flags.extra = false
  missing : d.flags.missing = false
  hasError : d.flags.hasError = false
  /-- A draft that failed has no labels. -/
  bare : d.kind = .error → ∀ c ∈ d.children.toList, c.1 = none
  children : ∀ c ∈ d.children.toList, c.2.Marked

/-! ### Drafts -/

namespace Draft

theorem marked_ofKind (kind : Kind) : (ofKind kind).Marked := ⟨rfl, rfl, rfl, nofun, nofun⟩

namespace Marked

variable {d : Draft}

theorem extend (h : d.Marked) {more : List Child} (hm : ∀ c ∈ more, c.2.Marked)
    (hb : d.kind = .error → ∀ c ∈ more, c.1 = none) : (d.extend more).Marked :=
  ⟨h.extra, h.missing, h.hasError, fun hk => forall_mem_extend.2 ⟨h.bare hk, hb hk⟩,
    forall_mem_extend.2 ⟨h.children, hm⟩⟩

theorem pushChild (h : d.Marked) {n : Node} (hn : n.Marked) {label : Option Field}
    (hb : d.kind = .error → label = none) : (d.pushChild label n).Marked :=
  ⟨h.extra, h.missing, h.hasError, fun hk => forall_mem_pushChild.2 ⟨h.bare hk, hb hk⟩,
    forall_mem_pushChild.2 ⟨h.children, hn⟩⟩

theorem addError (h : d.Marked) (error : Bool) : (d.addFlags { error }).Marked := by
  refine ⟨?_, ?_, ?_, h.bare, h.children⟩
  · simp [Draft.addFlags, NodeFlags.union, h.extra]
  · simp [Draft.addFlags, NodeFlags.union, h.missing]
  · simp [Draft.addFlags, NodeFlags.union, h.hasError]

theorem setKind (h : d.Marked) {kind : Kind} (hk : kind ≠ .error) : (d.setKind kind).Marked :=
  ⟨h.extra, h.missing, h.hasError, fun he => absurd he hk, h.children⟩

/-- A draft that fails loses its labels. -/
theorem fail (h : d.Marked) : (d.setKind .error).clearFields.Marked :=
  ⟨h.extra, h.missing, h.hasError, fun _ => forall_mem_clearFields.2 fun _ _ => rfl,
    forall_mem_clearFields.2 h.children⟩

end Marked

end Draft

namespace Node

namespace Marked

variable {n : Node}

theorem children (h : n.Marked) : ∀ c ∈ n.children, c.2.Marked := by
  cases h
  assumption

theorem anonymous (h : n.Marked) : n.isNamed = false → n.children = [] := by
  cases h
  assumption

/-- A marked node tells of every error and every missing token at it and below it. -/
theorem hasError_iff (h : n.Marked) :
    n.hasError = true ↔ ∃ m ∈ n.preorder, m.isError = true ∨ m.isMissing = true := by
  induction h with
  | @mk n hasError _ _ _ _ _ ih =>
    have hbelow : n.flags.hasError = true ↔
        ∃ m ∈ n.children.flatMap (·.2.preorder), m.isError = true ∨ m.isMissing = true := by
      rw [hasError, List.any_eq_true]
      constructor
      · rintro ⟨c, hc, he⟩
        obtain ⟨m, hm, he⟩ := (ih c hc).1 he
        exact ⟨m, List.mem_flatMap.2 ⟨c, hc, hm⟩, he⟩
      · rintro ⟨m, hm, he⟩
        obtain ⟨c, hc, hm⟩ := List.mem_flatMap.1 hm
        exact ⟨c, hc, (ih c hc).2 ⟨m, hm, he⟩⟩
    rw [preorder_eq, Node.hasError, Bool.or_eq_true, Bool.or_eq_true, hbelow]
    simp only [List.mem_cons, exists_eq_or_imp]

/-- The mark of an error below speaks of the nodes below, without the node itself. -/
theorem below_iff (h : n.Marked) :
    n.flags.hasError = true ↔ ∃ m ∈ n.preorder.tail, m.isError = true ∨ m.isMissing = true := by
  obtain ⟨hasError, -, -, -, -, children⟩ := h
  rw [hasError, List.any_eq_true, preorder_eq, List.tail_cons]
  constructor
  · rintro ⟨c, hc, he⟩
    obtain ⟨m, hm, he⟩ := (children c hc).hasError_iff.1 he
    exact ⟨m, List.mem_flatMap.2 ⟨c, hc, hm⟩, he⟩
  · rintro ⟨m, hm, he⟩
    obtain ⟨c, hc, hm⟩ := List.mem_flatMap.1 hm
    exact ⟨c, hc, (children c hc).hasError_iff.2 ⟨m, hm, he⟩⟩

end Marked

/-! ### Finishing -/

theorem marked_finishOver {d : Draft} (h : d.Marked) (hk : d.kind.isComment = false)
    (hn : d.kind.isNamed = true) (range : Range) : (d.finishOver range).Marked := by
  refine ⟨?_, fun he => ⟨?_, h.bare he⟩, fun hm => absurd (h.missing.symm.trans hm) nofun,
    h.extra.trans hk.symm, fun ha => absurd (hn.symm.trans ha) nofun, h.children⟩
  · simp [Draft.finishOver, Draft.hasError, h.hasError, Array.any_toList]
  · simp [Draft.finishOver, show d.kind = .error from he]

theorem marked_rebuild {n : Node} {kind : Kind} {ambiguous : Bool} {children : List Child}
    (hk : kind.isFree = true) (hc : ∀ c ∈ children, c.2.Marked) :
    (rebuild n kind { ambiguous } children).Marked := by
  refine marked_finishOver ⟨rfl, rfl, rfl, fun he => ?_, by simpa using hc⟩ ?_ ?_ _
  · exact absurd he (Kind.ne_of_isFree hk).1
  · exact Kind.isComment_of_isFree hk
  · exact Kind.isNamed_of_isFree hk

theorem marked_leaf {kind : Kind} (hk : kind ≠ .error) {range : Range} {flags : NodeFlags}
    (hf : flags.hasError = false) (hm : flags.missing = true → range.start = range.stop)
    (he : flags.extra = kind.isComment) : (leaf kind range flags).Marked := by
  have hflags : (leaf kind range flags).flags.hasError = flags.hasError ∧
      (leaf kind range flags).flags.missing = flags.missing ∧
      (leaf kind range flags).flags.extra = flags.extra := by
    unfold leaf
    split <;> exact ⟨rfl, rfl, rfl⟩
  obtain ⟨hbelow, hmissing, hextra⟩ := hflags
  exact ⟨hbelow.trans hf, fun h => absurd h hk, fun h => ⟨rfl, hm (hmissing.symm.trans h)⟩,
    hextra.trans he, fun _ => rfl, nofun⟩

/-! ### Reading again -/

theorem marked_withKind {n : Node} {kind : Kind} (h : n.Marked) (hn : n.kind.isComment = false)
    (hk : kind.isFree = true) : (n.withKind kind).Marked := by
  obtain ⟨hasError, -, missing, extra, -, children⟩ := h
  exact ⟨hasError, fun he => absurd he (Kind.ne_of_isFree hk).1, missing,
    extra.trans (hn.trans (Kind.isComment_of_isFree hk).symm),
    fun ha => absurd ((Kind.isNamed_of_isFree hk).symm.trans ha) nofun, children⟩

/-- A node with the mark of an error or of an ambiguity more. -/
theorem marked_withFlags {n : Node} (h : n.Marked) (error ambiguous : Bool) :
    (n.withFlags { error, ambiguous }).Marked := by
  obtain ⟨hasError, herror, missing, extra, anonymous, children⟩ := h
  refine ⟨?_, fun hk => ⟨?_, (herror hk).2⟩, fun hm => missing ?_, ?_, anonymous, children⟩
  · simpa [withFlags, NodeFlags.union] using hasError
  · simp [withFlags, NodeFlags.union, (herror hk).1]
  · simpa [withFlags, NodeFlags.union] using hm
  · simpa [withFlags, NodeFlags.union] using extra

theorem lasting_marked : Lasting Marked where
  children h := h.children
  renamed hn hk h :=
    have hname := Kind.isFree_of_isReread (Kind.isReread_of_isPathEnd hn)
    marked_withKind h (Kind.isComment_of_isFree hname)
      (Kind.isFree_of_isReread (Kind.isReread_of_isPathEnd hk))
  rebuilt hk h := marked_rebuild (Kind.isFree_of_isReread hk) h

/-- What is no comment is none when it is read again. -/
theorem isComment_of_reread {n m : Node} (h : m = n ∨ m.kind.isReread = true)
    (hn : n.kind.isComment = false) : m.kind.isComment = false := by
  rcases h with rfl | h
  · exact hn
  · exact Kind.isComment_of_isFree (Kind.isFree_of_isReread h)

/-! ### Tokens -/

/-- A node over the pieces of a token. -/
theorem marked_ofPieces {kind : Kind} {flags : NodeFlags} {range : Range} {pieces : List Piece}
    (hk : kind ≠ .error) (hn : kind.isNamed = true) (hm : flags.missing = false) (hf : flags.hasError = false)
    (he : flags.extra = kind.isComment) (hp : ∀ p ∈ pieces, p.kind.isPiece = true) :
    (ofPieces kind flags range pieces).Marked := by
  have hchildren : ∀ c ∈ (ofPieces kind flags range pieces).children, c.2.Marked := by
    rw [children_ofPieces]
    refine List.forall_mem_map.2 fun p h => ?_
    exact marked_leaf (Kind.ne_of_isPiece (hp p h)) rfl nofun (Kind.isComment_of_isPiece (hp p h)).symm
  refine ⟨?_, fun h => absurd h hk, fun h => absurd (hm.symm.trans h) nofun, he,
    fun ha => absurd (hn.symm.trans ha) nofun, hchildren⟩
  simp [ofPieces, Draft.finishOver, Draft.hasError, hf]

theorem marked_ofComment {t : Token} (hl : t.Laid) (hc : t.kind.isComment = true) :
    (ofComment t).Marked := by
  unfold ofComment
  split
  · exact marked_leaf hl.kind_ne rfl nofun hc.symm
  · exact marked_ofPieces hl.kind_ne (Kind.isNamed_of_isComment hc) rfl rfl hc.symm hl.isPiece

/-- A token that is no comment, under whatever kind it is read. -/
theorem marked_ofToken {t : Token} (hl : t.Laid) (hn : t.kind.isComment = false) {as? : Option Kind}
    (has : ∀ kind, as? = some kind → kind ≠ .error ∧ kind.isComment = false) :
    (ofToken t as?).Marked ∧ (ofToken t as?).kind.isComment = false := by
  rcases ofToken_cases t as? with ⟨kind, hkind, he⟩ | ⟨he, -⟩ <;> rw [he]
  · have hfree := Kind.isFree_of_isPieced hkind
    have hcomment := Kind.isComment_of_isFree hfree
    exact ⟨marked_ofPieces (Kind.ne_of_isFree hfree).1 (Kind.isNamed_of_isFree hfree) rfl rfl
      hcomment.symm hl.isPiece, hcomment⟩
  · cases as? with
    | none => exact ⟨marked_leaf hl.kind_ne rfl nofun hn.symm, hn⟩
    | some kind =>
      obtain ⟨hk, hc⟩ := has kind rfl
      exact ⟨marked_leaf hk rfl nofun hc.symm, hc⟩

end Node

end ConcreteSyntax
