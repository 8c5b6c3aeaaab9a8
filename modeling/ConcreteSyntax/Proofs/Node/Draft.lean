import ConcreteSyntax.Node.OfToken
import ConcreteSyntax.Proofs.Kind

/-! # What is in a draft

What holds of all children of a draft, after more were pushed or the labels were cleared, and of the
pieces of a token as children. -/

namespace ConcreteSyntax

variable {P : Child → Prop}

namespace Draft

variable {d : Draft}

theorem pushChild_eq_extend (d : Draft) (label : Option Field) (n : Node) :
    d.pushChild label n = d.extend [(label, n)] := by
  simp [pushChild, extend]

theorem extend_extend (d : Draft) (more further : List Child) :
    (d.extend more).extend further = d.extend (more ++ further) := by
  simp [extend]

theorem forall_mem_extend {more : List Child} :
    (∀ c ∈ (d.extend more).children.toList, P c) ↔
      (∀ c ∈ d.children.toList, P c) ∧ ∀ c ∈ more, P c := by
  simp only [extend, Array.toList_append, List.mem_append, or_imp, forall_and]

theorem forall_mem_pushChild {label : Option Field} {n : Node} :
    (∀ c ∈ (d.pushChild label n).children.toList, P c) ↔
      (∀ c ∈ d.children.toList, P c) ∧ P (label, n) := by
  simp only [pushChild, Array.toList_push, List.mem_append, List.mem_singleton, or_imp, forall_and,
    forall_eq]

theorem forall_mem_clearFields :
    (∀ c ∈ d.clearFields.children.toList, P c) ↔ ∀ c ∈ d.children.toList, P (none, c.2) := by
  simp only [clearFields, Array.toList_map, List.forall_mem_map]

/-- A draft without marks is finished over its children, none of which is an error. -/
theorem finish_clean {kind : Kind} {children : Array Child} (hk : kind ≠ .error)
    (hc : children.toList.any (·.2.hasError) = false) (offset : Nat) :
    (⟨kind, {}, children⟩ : Draft).finish offset =
      ⟨kind, (⟨kind, {}, children⟩ : Draft).span offset, {}, children.toList⟩ := by
  have hnone : (⟨kind, {}, children⟩ : Draft).hasError = false := Array.any_toList.symm.trans hc
  simp [finish, finishOver, hnone, hk]

end Draft

namespace Node

/-! ### Tokens -/

theorem children_ofPieces (kind : Kind) (flags : NodeFlags) (range : Range) (pieces : List Piece) :
    (ofPieces kind flags range pieces).children =
      pieces.map fun p => (none, leaf p.kind p.range {}) := by
  simp [ofPieces, Draft.finishOver]

/-- A token becomes the node of a literal over its pieces, or a leaf, if it is no literal between
quotes. -/
theorem ofToken_cases (t : Token) (as? : Option Kind) :
    (∃ kind : Kind, kind.isPieced = true ∧
      ofToken t as? = ofPieces kind { error := !t.faults.isEmpty } t.range t.pieces) ∨
    (ofToken t as? = leaf (as?.getD t.kind) t.range { error := !t.faults.isEmpty } ∧
      t.kind.isCompositeLiteral = false) := by
  cases hliteral : literalKind? t as?.isNone with
  | some kind =>
    refine .inl ⟨kind, ?_, by simp only [ofToken, hliteral]⟩
    unfold literalKind? at hliteral
    split at hliteral
    · exact Option.some.inj hliteral ▸ rfl
    · exact Option.some.inj hliteral ▸ rfl
    · exact Option.some.inj hliteral ▸ rfl
    · exact Option.some.inj (Option.ite_none_right_eq_some.1 hliteral).2 ▸ rfl
    · exact Option.some.inj (Option.ite_none_right_eq_some.1 hliteral).2 ▸ rfl
    · exact nomatch hliteral
  | none =>
    refine .inr ⟨by simp only [ofToken, hliteral], ?_⟩
    cases hkind : t.kind with
    | stringToken | rawStringToken | charToken => simp [literalKind?, hkind] at hliteral
    | _ => rfl

/-- A token with children is a literal in pieces. -/
theorem isPieced_ofToken {t : Token} {as? : Option Kind} (h : (ofToken t as?).children ≠ []) :
    (ofToken t as?).kind.isPieced = true := by
  rcases ofToken_cases t as? with ⟨kind, hkind, he⟩ | ⟨he, -⟩ <;> rw [he] at h ⊢
  · exact hkind
  · exact absurd rfl h

/-- The children of a token are its pieces, without labels. -/
theorem mem_children_ofToken {t : Token} {as? : Option Kind} {c : Child}
    (h : c ∈ (ofToken t as?).children) : ∃ p ∈ t.pieces, (none, leaf p.kind p.range {}) = c := by
  rcases ofToken_cases t as? with ⟨kind, -, he⟩ | ⟨he, -⟩ <;> rw [he] at h
  · rw [children_ofPieces] at h
    exact List.mem_map.1 h
  · exact nomatch h

end Node

end ConcreteSyntax
