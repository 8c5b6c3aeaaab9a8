import ConcreteSyntax.Proofs.Node.Draft
import ConcreteSyntax.Proofs.Node.Retag
import ConcreteSyntax.Proofs.Token.Scanner

/-! # Exposed literals

The literal of a structure is *exposed* in a node if no delimiter is open around it there: on the way
down to it, no `(`, `[` or `{` stands before the branch taken (`Node.Exposes`). The head of an `if`, a
`while`, a `match` or a `for` may expose none, since the `{` after it opens the body. A node whose
heads expose none, at any depth, is *sheltered* (`Node.Sheltered`). `Node.descend?` follows a path of
indices; on a path to a literal that is not exposed, some node has a delimiter before the branch
(`Node.exists_opener`). -/

namespace ConcreteSyntax

/-- The label of the child of a node after which a `{` opens the body. -/
def Kind.headLabel? : Kind → Option Field
  | .ifExpression | .whileExpression => some .condition
  | .matchExpression | .forExpression => some .value
  | _ => none

/-- Whether a label may be that of a head. -/
def Field.mayBeHead : Field → Bool
  | .condition | .value => true
  | _ => false

theorem Kind.mayBeHead_of_headLabel? {kind : Kind} {label : Field}
    (h : kind.headLabel? = some label) : label.mayBeHead = true := by
  unfold headLabel? at h
  split at h <;> cases h <;> rfl

namespace Node

/-! ### Exposed literals -/

/-- Whether a node is a delimiter of the text that opens a group. -/
def isOpener (n : Node) : Bool := n.kind.isOpen && !n.isMissing

/-- A literal of a structure stands in a node, and no delimiter is open around it there. -/
inductive Exposes : Node → Prop
  | literal {n : Node} (h : n.kind = .structExpression) : n.Exposes
  | inside {n m : Node} {before after : List Node}
      (h : n.children.map (·.2) = before ++ m :: after)
      (hb : ∀ d ∈ before, d.isOpener = false) (hm : m.Exposes) : n.Exposes

/-- A literal is exposed in a row of nodes. -/
def Exposing (row : List Node) : Prop :=
  ∃ before n after, row = before ++ n :: after ∧ (∀ d ∈ before, d.isOpener = false) ∧ n.Exposes

theorem exposes_iff {n : Node} :
    n.Exposes ↔ n.kind = .structExpression ∨ Exposing (n.children.map (·.2)) := by
  constructor
  · intro h
    cases h with
    | literal h => exact .inl h
    | inside h hb hm => exact .inr ⟨_, _, _, h, hb, hm⟩
  · rintro (h | ⟨before, m, after, h, hb, hm⟩)
    · exact .literal h
    · exact .inside h hb hm

theorem exposing_nil : ¬ Exposing [] := by
  rintro ⟨before, n, after, h, -⟩
  exact List.append_ne_nil_of_right_ne_nil before (List.cons_ne_nil n after) h.symm

theorem exposing_cons {n : Node} {row : List Node} :
    Exposing (n :: row) ↔ n.Exposes ∨ n.isOpener = false ∧ Exposing row := by
  constructor
  · rintro ⟨before, m, after, h, hb, hm⟩
    cases before with
    | nil =>
      obtain ⟨rfl, -⟩ := List.cons.inj h
      exact .inl hm
    | cons d before =>
      obtain ⟨rfl, rfl⟩ := List.cons.inj h
      obtain ⟨hd, hb⟩ := List.forall_mem_cons.1 hb
      exact .inr ⟨hd, before, m, after, rfl, hb, hm⟩
  · rintro (h | ⟨hn, before, m, after, rfl, hb, hm⟩)
    · exact ⟨[], n, row, rfl, nofun, h⟩
    · exact ⟨n :: before, m, after, rfl, List.forall_mem_cons.2 ⟨hn, hb⟩, hm⟩

theorem exposing_singleton {n : Node} : Exposing [n] ↔ n.Exposes := by
  simp [exposing_cons, exposing_nil]

/-- In two rows, one exposes a literal, the second only if the first opens no group. -/
theorem exposing_append {row more : List Node} :
    Exposing (row ++ more) ↔
      Exposing row ∨ (∀ d ∈ row, d.isOpener = false) ∧ Exposing more := by
  induction row with
  | nil => simp [exposing_nil]
  | cons n row ih =>
    rw [List.cons_append, exposing_cons, exposing_cons, ih, List.forall_mem_cons]
    constructor
    · rintro (h | ⟨hn, h | ⟨hrow, h⟩⟩)
      · exact .inl (.inl h)
      · exact .inl (.inr ⟨hn, h⟩)
      · exact .inr ⟨⟨hn, hrow⟩, h⟩
    · rintro ((h | ⟨hn, h⟩) | ⟨⟨hn, hrow⟩, h⟩)
      · exact .inl h
      · exact .inr ⟨hn, .inl h⟩
      · exact .inr ⟨hn, .inr ⟨hrow, h⟩⟩

/-- A row in which no node exposes a literal exposes none. -/
theorem not_exposing {row : List Node} (h : ∀ n ∈ row, ¬ n.Exposes) : ¬ Exposing row := by
  rintro ⟨before, n, after, rfl, -, hn⟩
  exact h n (List.mem_append_right _ List.mem_cons_self) hn

/-! ### Sheltered nodes -/

/-- No head in a node exposes a literal, at any depth. -/
inductive Sheltered : Node → Prop
  | mk {n : Node}
      (heads : ∀ label, n.kind.headLabel? = some label → ∀ c ∈ n.children, c.1 = some label →
        ¬ c.2.Exposes)
      (children : ∀ c ∈ n.children, c.2.Sheltered) : n.Sheltered

namespace Sheltered

variable {n : Node}

theorem heads (h : n.Sheltered) {label : Field} (hl : n.kind.headLabel? = some label) :
    ∀ c ∈ n.children, c.1 = some label → ¬ c.2.Exposes := by
  cases h with
  | mk heads => exact heads label hl

theorem children (h : n.Sheltered) : ∀ c ∈ n.children, c.2.Sheltered := by
  cases h
  assumption

end Sheltered

theorem sheltered_of_children {n : Node} (hk : n.kind.headLabel? = none)
    (h : ∀ c ∈ n.children, c.2.Sheltered) : n.Sheltered :=
  .mk (fun _ hl => nomatch hk.symm.trans hl) h

/-! ### Other marks and kinds -/

variable {n : Node} {kind : Kind}

theorem exposes_withFlags {flags : NodeFlags} : (n.withFlags flags).Exposes ↔ n.Exposes := by
  rw [exposes_iff, exposes_iff]
  rfl

theorem exposes_of_withKind (h : (n.withKind kind).Exposes) (hk : kind ≠ .structExpression) :
    n.Exposes :=
  exposes_iff.2 (.inr ((exposes_iff.1 h).resolve_left hk))

theorem sheltered_withFlags {flags : NodeFlags} (h : n.Sheltered) :
    (n.withFlags flags).Sheltered :=
  ⟨fun _ hl => h.heads hl, h.children⟩

theorem sheltered_withKind (h : n.Sheltered) (hk : kind.headLabel? = none) :
    (n.withKind kind).Sheltered :=
  sheltered_of_children hk h.children

/-! ### Reading again -/

theorem exposes_rebuild {flags : NodeFlags} {children : List Child}
    (hk : kind ≠ .structExpression) :
    (rebuild n kind flags children).Exposes ↔ Exposing (children.map (·.2)) := by
  rw [exposes_iff]
  exact or_iff_right hk

theorem lasting_sheltered : Lasting Sheltered where
  children h := h.children
  renamed {_ kind} _ hk h := sheltered_withKind h (by revert hk; cases kind <;> decide)
  rebuilt {_ kind _ _} hk h := by
    have hhead : kind.headLabel? = none := by revert hk; cases kind <;> decide
    exact sheltered_of_children hhead (by simpa [rebuild, Draft.finishOver] using h)

/-- A path that is read again opens no group. -/
theorem isOpener_asType (n : Node) : n.asType.isOpener = n.isOpener := by
  rcases n.asType_cases with ⟨hk, h⟩ | ⟨hk, h⟩ | ⟨hk, h⟩ | h <;> rw [h]
  all_goals
    simp only [isOpener, hk]
    rfl

theorem isOpener_asPath (n : Node) : n.asPath.isOpener = n.isOpener := by
  rcases n.asPath_cases with ⟨hk, h⟩ | ⟨hk, h⟩ | h <;> rw [h]
  all_goals
    simp only [isOpener, hk]
    rfl

/-- Children some of which are read again expose a literal only if they did before. -/
theorem exposing_of_again {children : List Child} {p : Child → Prop} [DecidablePred p]
    {label : Child → Option Field} {again : Node → Node}
    (ho : ∀ n : Node, (again n).isOpener = n.isOpener)
    (he : ∀ c ∈ children, (again c.2).Exposes → c.2.Exposes)
    (h : Exposing ((children.map fun c => if p c then (label c, again c.2) else c).map (·.2))) :
    Exposing (children.map (·.2)) := by
  induction children with
  | nil => exact h
  | cons c children ih =>
    obtain ⟨hc, he⟩ := List.forall_mem_cons.1 he
    simp only [List.map_cons, exposing_cons] at h ⊢
    split at h
    · exact h.imp hc fun h => ⟨ho c.2 ▸ h.1, ih he h.2⟩
    · exact h.imp_right fun h => ⟨h.1, ih he h.2⟩

/-- A path read as one of a type exposes a literal only if it did before. -/
theorem exposes_of_asType : (n : Node) → n.asType.Exposes → n.Exposes := by
  refine Node.induction fun n ih h => ?_
  rcases n.asType_cases with ⟨-, he⟩ | ⟨-, he⟩ | ⟨-, he⟩ | he <;> rw [he] at h
  · exact exposes_of_withKind h nofun
  · exact exposes_iff.2 (.inr (exposing_of_again isOpener_asType ih ((exposes_rebuild (by decide)).1 h)))
  · exact exposes_iff.2 (.inr (exposing_of_again isOpener_asType ih ((exposes_rebuild (by decide)).1 h)))
  · exact h

theorem exposes_of_asPath : (n : Node) → n.asPath.Exposes → n.Exposes := by
  refine Node.induction fun n ih h => ?_
  rcases n.asPath_cases with ⟨-, he⟩ | ⟨-, he⟩ | he <;> rw [he] at h
  · exact exposes_of_withKind h nofun
  · exact exposes_iff.2 (.inr (exposing_of_again isOpener_asPath ih ((exposes_rebuild (by decide)).1 h)))
  · exact h

/-! ### Conditions -/

/-- If no conjunct opens a group, the condition opens none. -/
theorem isOpener_of_conjuncts (h : ∀ d ∈ n.conjuncts, d.isOpener = false) :
    n.isOpener = false := by
  rw [conjuncts_eq] at h
  split at h
  · next hn =>
    have hk : n.kind = .binaryExpression := eq_of_beq (Bool.and_eq_true_iff.1 hn).1
    simp [isOpener, hk, Kind.isOpen]
  · exact h n List.mem_cons_self

/-- A condition exposes what its conjuncts expose in a row. -/
theorem exposes_of_conjuncts : (n : Node) → Exposing n.conjuncts → n.Exposes := by
  refine Node.induction fun n ih h => ?_
  rw [conjuncts_eq] at h
  split at h
  · refine exposes_iff.2 (.inr ?_)
    generalize n.children = children at ih h
    induction children with
    | nil => exact h
    | cons c children ihc =>
      obtain ⟨hc, ih⟩ := List.forall_mem_cons.1 ih
      simp only [List.flatMap_cons, exposing_append, List.map_cons, exposing_cons] at h ⊢
      split at h
      · exact h.imp hc fun h => ⟨isOpener_of_conjuncts h.1, ihc ih h.2⟩
      · refine h.imp (fun h => ?_) fun h => ⟨h.1 c.2 List.mem_cons_self, ihc ih h.2⟩
        exact exposing_singleton.1 h
  · exact exposing_singleton.1 h

theorem exposes_of_asLetChain (h : n.asLetChain.Exposes) : n.Exposes := by
  rcases n.asLetChain_cases with ⟨he, -⟩ | he <;> rw [he] at h
  · refine exposes_of_conjuncts n ?_
    simpa [Function.comp_def] using (exposes_rebuild (by decide)).1 h
  · exact h

end Node

/-! ### Kinds of tokens -/

/-- Neither the literal of a structure nor a construct with a head. -/
def Kind.isHeadless (k : Kind) : Bool := k != .structExpression && k.headLabel?.isNone

namespace Kind

variable {k : Kind}

theorem ne_of_isHeadless (h : k.isHeadless = true) : k ≠ .structExpression :=
  ne_of_beq_false (Bool.not_eq_true' _ ▸ (Bool.and_eq_true_iff.1 h).1)

theorem headLabel?_of_isHeadless (h : k.isHeadless = true) : k.headLabel? = none :=
  Option.isNone_iff_eq_none.1 (Bool.and_eq_true_iff.1 h).2

theorem isHeadless_of_isPieced (h : k.isPieced = true) : k.isHeadless = true := by
  revert h
  cases k <;> decide

theorem isHeadless_of_isPiece (h : k.isPiece = true) : k.isHeadless = true := by
  revert h
  cases k <;> decide

theorem isHeadless_of_isComment (h : k.isComment = true) : k.isHeadless = true := by
  rcases isComment_iff.1 h with rfl | rfl <;> rfl

end Kind

/-! ### Rows of children -/

namespace Draft

variable {d : Draft}

/-- The children without their labels. -/
def row (d : Draft) : List Node := d.children.toList.map (·.2)

/-- The literals that the node will expose. -/
def Exposes (d : Draft) : Prop := d.kind = .structExpression ∨ Node.Exposing d.row

theorem row_extend (d : Draft) (more : List Child) : (d.extend more).row = d.row ++ more.map (·.2) := by
  simp [row, extend]

theorem row_clearFields (d : Draft) : d.clearFields.row = d.row := by
  simp [row, clearFields, Function.comp_def]

theorem exposes_finishOver {range : Range} : (d.finishOver range).Exposes ↔ d.Exposes :=
  Node.exposes_iff

end Draft

namespace Node

/-! ### Tokens -/

/-- A token or a part of one: it exposes no literal, nor does a child of it, and none has a label. -/
structure Atomic (n : Node) : Prop where
  headless : n.kind.isHeadless = true
  children : ∀ c ∈ n.children, c.1 = none ∧ ¬ c.2.Exposes ∧ c.2.Sheltered

namespace Atomic

variable {n : Node}

theorem not_exposes (h : n.Atomic) : ¬ n.Exposes := by
  rw [exposes_iff]
  rintro (hk | he)
  · exact Kind.ne_of_isHeadless h.headless hk
  · refine not_exposing (fun m hm => ?_) he
    obtain ⟨c, hc, rfl⟩ := List.mem_map.1 hm
    exact (h.children c hc).2.1

theorem sheltered (h : n.Atomic) : n.Sheltered :=
  sheltered_of_children (Kind.headLabel?_of_isHeadless h.headless) fun c hc => (h.children c hc).2.2

end Atomic

theorem atomic_leaf {kind : Kind} {range : Range} {flags : NodeFlags} (hk : kind.isHeadless = true) :
    (leaf kind range flags).Atomic :=
  ⟨hk, nofun⟩

theorem atomic_ofPieces {kind : Kind} {flags : NodeFlags} {range : Range} {pieces : List Piece}
    (hk : kind.isHeadless = true) (hp : ∀ p ∈ pieces, p.kind.isPiece = true) :
    (ofPieces kind flags range pieces).Atomic := by
  refine ⟨hk, fun c hc => ?_⟩
  rw [children_ofPieces] at hc
  obtain ⟨p, hp', rfl⟩ := List.mem_map.1 hc
  have hleaf : (leaf p.kind p.range {}).Atomic :=
    atomic_leaf (Kind.isHeadless_of_isPiece (hp p hp'))
  exact ⟨rfl, hleaf.not_exposes, hleaf.sheltered⟩

theorem atomic_ofComment {t : Token} (hl : t.Laid) (hc : t.kind.isComment = true) :
    (ofComment t).Atomic := by
  unfold ofComment
  split
  · exact atomic_leaf (Kind.isHeadless_of_isComment hc)
  · exact atomic_ofPieces (Kind.isHeadless_of_isComment hc) hl.isPiece

theorem atomic_ofToken {t : Token} (hl : t.Laid) {as? : Option Kind}
    (hk : (as?.getD t.kind).isHeadless = true) : (ofToken t as?).Atomic := by
  rcases ofToken_cases t as? with ⟨kind, hkind, he⟩ | ⟨he, -⟩ <;> rw [he]
  · exact atomic_ofPieces (Kind.isHeadless_of_isPieced hkind) hl.isPiece
  · exact atomic_leaf hk

/-- An opener that is taken as it is opens a group in the tree. -/
theorem isOpener_ofToken {t : Token} (h : t.kind.isOpen = true) :
    (ofToken t none).isOpener = true := by
  have hliteral : literalKind? t true = none := by
    revert h
    unfold literalKind?
    cases t.kind <;> first | exact fun _ => rfl | exact fun h => nomatch h
  have hne : t.kind ≠ .errorSentinel := by
    intro he
    rw [he] at h
    exact nomatch h
  have hleaf : ofToken t none = leaf t.kind t.range { error := !t.faults.isEmpty } := by
    simp only [ofToken, Option.isNone_none, hliteral, Option.getD_none]
  rw [hleaf, leaf, if_neg hne]
  simp [isOpener, h, isMissing]

/-! ### Paths to a literal -/

/-- The node that a path of indices leads to. -/
def descend? (n : Node) : List Nat → Option Node
  | [] => some n
  | i :: path => (n.child? i).bind (·.descend? path)

/-- A node exposes what a child exposes before which no delimiter opens a group. -/
theorem exposes_of_child {n c : Node} {i : Nat} (hc : n.child? i = some c)
    (hb : ∀ j < i, ∀ d, n.child? j = some d → d.isOpener = false) (h : c.Exposes) :
    n.Exposes := by
  obtain ⟨child, hchild, rfl⟩ := Option.map_eq_some_iff.1 hc
  obtain ⟨hi, rfl⟩ := List.getElem?_eq_some_iff.1 hchild
  have hrow : n.children.map (·.2) = (n.children.take i).map (·.2) ++ n.children[i].2 ::
      (n.children.drop (i + 1)).map (·.2) := by
    rw [← List.map_cons, ← List.map_append, List.getElem_cons_drop, List.take_append_drop]
  refine .inside hrow (fun d hd => ?_) h
  obtain ⟨c, hc, rfl⟩ := List.mem_map.1 hd
  obtain ⟨j, hj, rfl⟩ := List.mem_take_iff_getElem.1 hc
  refine hb j (by omega) _ ?_
  rw [child?, List.getElem?_eq_getElem, Option.map_some]

/-- On the way down to a literal that is not exposed, a delimiter stands before the branch. -/
theorem exists_opener {m : Node} (hk : m.kind = .structExpression) {path : List Nat} :
    ∀ {n : Node}, ¬ n.Exposes → n.descend? path = some m →
      ∃ above i below ancestor, path = above ++ i :: below ∧ n.descend? above = some ancestor ∧
        ∃ j < i, ∃ d, ancestor.child? j = some d ∧ d.kind.isOpen = true ∧ d.isMissing = false := by
  induction path with
  | nil =>
    intro n hn hm
    obtain rfl := Option.some.inj hm
    exact absurd (.literal hk) hn
  | cons i path ih =>
    intro n hn hm
    obtain ⟨c, hc, hm⟩ := Option.bind_eq_some_iff.1 hm
    by_cases hb : ∀ j < i, ∀ d, n.child? j = some d → d.isOpener = false
    · -- no delimiter before this branch, so what stands below it is not exposed either
      have hbelow : ¬ c.Exposes := fun h => hn (exposes_of_child hc hb h)
      obtain ⟨above, k, below, ancestor, rfl, habove, h⟩ := ih hbelow hm
      exact ⟨i :: above, k, below, ancestor, rfl, Option.bind_eq_some_iff.2 ⟨c, hc, habove⟩, h⟩
    · push Not at hb
      obtain ⟨j, hj, d, hd, ho⟩ := hb
      have ho : d.isOpener = true := Bool.not_eq_false _ ▸ ho
      rw [isOpener, Bool.and_eq_true, Bool.not_eq_true'] at ho
      exact ⟨[], i, path, n, rfl, rfl, j, hj, d, hd, ho⟩

end Node

end ConcreteSyntax
