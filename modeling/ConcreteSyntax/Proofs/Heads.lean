import ConcreteSyntax.Proofs.Node.Preorder
import ConcreteSyntax.Proofs.Shelters.Expression
import ConcreteSyntax.Proofs.Termination

/-! # The heads of control flow

The head of an `if`, a `while`, a `match` or a `for` is read at a place that forbids bare literals. What
is read inside it may replace that restriction, mask it or inherit it, but lifts it only behind a
delimiter; so no literal is exposed in a head (`Tree.heads_parse`), and a `{` after a path there opens
the body. -/

namespace ConcreteSyntax

/-- At the end of a reading nothing in the draft has a head that exposes a literal. -/
theorem Setting.run_sheltered {σ : Setting} {s : Session} (h : σ.run? = some s) :
    s.draft.Sheltered ∧ s.draft.kind.headLabel? = none := by
  have hread : Parse.Shelters σ.source.toList none .anywhere .headless Anything
      (Grammar.upTo σ.nesting).sourceFile := .sourceFile (Grammar.shelters_upTo _ _)
  obtain ⟨-, -, hfills, -⟩ := hread.follow nofun (Session.stands_start _) (run_eq_some h)
  exact ⟨hfills.sheltered nofun, hfills.frame rfl⟩

namespace Tree

theorem sheltered_parse (file source : String) (options : Options) :
    (parse file source options).root.Sheltered := by
  obtain ⟨s, hrun, htree⟩ := parse_ends file source options
  obtain ⟨hs, hk⟩ := Setting.run_sheltered (hrun false)
  rw [htree]
  exact Frame.Holds.sheltered (T := .headless) hk hs _

/-- **No literal is bare in a head.** On the way from the head of an `if`, a `while`, a `match` or a
`for` down to the literal of a structure, some node has a delimiter that opens a group before the branch
taken. In particular the head itself is no such literal. -/
theorem heads_parse (file source : String) (options : Options) :
    ∀ n ∈ (parse file source options).root.preorder, ∀ label, n.kind.headLabel? = some label →
      ∀ head ∈ n.childrenByField label, ∀ path literal, head.descend? path = some literal →
        literal.kind = .structExpression →
          ∃ above i below ancestor, path = above ++ i :: below ∧ head.descend? above = some ancestor ∧
            ∃ j < i, ∃ opener, ancestor.child? j = some opener ∧ opener.kind.isOpen = true ∧
              opener.isMissing = false := by
  intro n hn label hlabel head hhead path literal hpath hliteral
  have hsheltered : n.Sheltered :=
    Node.forall_mem_preorder (fun _ h => h.children) (sheltered_parse file source options) n hn
  obtain ⟨c, hc, rfl⟩ := List.mem_map.1 hhead
  obtain ⟨hc, hl⟩ := List.mem_filter.1 hc
  exact Node.exists_opener hliteral (hsheltered.heads hlabel c hc (eq_of_beq hl)) hpath

/-- A literal between parentheses in the condition of an `if`. -/
theorem heads_parse_parenthesized :
    ∃ n ∈ (parse "f.rs" "if (S \x7b\x7d) \x7b\x7d" {}).root.preorder,
      n.kind.headLabel? = some .condition ∧ ∃ head ∈ n.childrenByField .condition,
        ∃ literal, head.descend? [1] = some literal ∧ literal.kind = .structExpression ∧
          ∃ above i below ancestor, [1] = above ++ i :: below ∧ head.descend? above = some ancestor ∧
            ∃ j < i, ∃ opener, ancestor.child? j = some opener ∧ opener.kind.isOpen = true ∧
              opener.isMissing = false := by
  have hfound : (parse "f.rs" "if (S \x7b\x7d) \x7b\x7d" {}).root.preorder.any (fun n =>
      n.kind.headLabel? == some .condition && (n.childrenByField .condition).any fun head =>
        (head.descend? [1]).any (·.kind == .structExpression)) = true := by decide +kernel
  obtain ⟨n, hn, hfound⟩ := List.any_eq_true.1 hfound
  obtain ⟨hlabel, hfound⟩ := Bool.and_eq_true_iff.1 hfound
  obtain ⟨head, hhead, hfound⟩ := List.any_eq_true.1 hfound
  obtain ⟨literal, hpath, hliteral⟩ := (Option.any_eq_true _ _).1 hfound
  have hlabel := eq_of_beq hlabel
  have hliteral := eq_of_beq hliteral
  exact ⟨n, hn, hlabel, head, hhead, literal, hpath, hliteral,
    heads_parse "f.rs" "if (S \x7b\x7d) \x7b\x7d" {} n hn _ hlabel head hhead [1] literal hpath hliteral⟩

end Tree

end ConcreteSyntax
