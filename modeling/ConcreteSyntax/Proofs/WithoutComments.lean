import ConcreteSyntax.Proofs.Sheds.Expression
import ConcreteSyntax.Proofs.Termination

/-! # Dropping comments only drops comments

A reading that keeps the comments and one that drops them go through the same text in step, so the
tree of the second is that of the first without its comments (`Tree.sheds_parse`). Of the ranges only
those of tokens and missing tokens have to agree: a comment at an end of a node widens it. Both report
the same, but where a parameter without a pattern stands they point to a whole node, which may have
been widened (`Tree.alike_parse`). -/

namespace ConcreteSyntax

open Parse

theorem Parse.Sheds.sourceFile {P : Scanner → Prop} {T : Draft.Trait} {g : Grammar} (hg : g.Sheds) :
    Parse.Sheds P T Eq g.sourceFile g.sourceFile :=
  .bind .consumeIf fun _ => .bind (.statements hg) fun _ => .flush

/-- Both readings begin alike. -/
theorem Session.sheds_start (source : String) :
    (start source).Sheds .any ⟨.empty, .ofKind .sourceFile⟩ := by
  refine ⟨rfl, .ofKind .sourceFile, trivial, fun c hc _ => ?_⟩
  obtain ⟨t, ht, rfl⟩ := List.mem_map.1 hc
  exact ⟨rfl, (quiet_leading (Scanner.ofText source) .usual t ht).hasError_eq⟩

/-- A whole reading that keeps the comments sheds to one that drops them. -/
theorem Setting.sheds_run {σ : Setting} (hσ : σ.options.keepComments = true) {s : Session}
    (h : σ.run? = some s) : ∃ w, σ.bare.run? = some (s.twin w) ∧ s.Sheds .any w := by
  obtain ⟨⟨_, t⟩, hrun, rfl⟩ := Option.map_eq_some_iff.1 h
  have hread : Parse.Sheds Anywhere .any Eq (Grammar.upTo σ.nesting).sourceFile
      (Grammar.upTo σ.nesting).sourceFile := .sourceFile (Grammar.sheds_upTo _)
  obtain ⟨_, w, hbare, -, ht⟩ := (hread.follow hσ (Session.sheds_start σ.source) trivial).run hrun
  exact ⟨w, congrArg (Option.map Prod.snd) hbare, ht⟩

/-- **Dropping comments only drops comments**: the tree of a text that is read without them is the
tree that is read with them, without its extras. -/
theorem Tree.sheds_parse (file source : String) (options : Options) :
    (parse file source { options with keepComments := true }).root.Sheds
      (parse file source { options with keepComments := false }).root := by
  obtain ⟨s, hrun, htree⟩ := parse_ends file source { options with keepComments := true }
  obtain ⟨s', hrun', htree'⟩ := parse_ends file source { options with keepComments := false }
  obtain ⟨w, hbare, hs⟩ := Setting.sheds_run rfl (hrun false)
  obtain rfl : s.twin w = s' := Option.some.inj (hbare.symm.trans (hrun' false))
  rw [htree, htree']
  exact hs.draft.finishOver fun _ => rfl

/-! ### What is reported -/

theorem Diagnostic.isAnonymous_unplaced (d : Diagnostic) : d.unplaced.isAnonymous = d.isAnonymous := by
  unfold unplaced
  split <;> rfl

/-- Whatever is not about a whole node has its place. -/
theorem Report.filter_unplaced (r : Report) :
    r.unplaced.filter (!·.isAnonymous) = r.toList.filter (!·.isAnonymous) := by
  have hsame (d : Diagnostic) (hd : d ∈ r.toList.filter (!·.isAnonymous)) : d.unplaced = d := by
    have hd : d.isAnonymous = false := by simpa using (List.mem_filter.1 hd).2
    rw [Diagnostic.unplaced, hd]
    rfl
  have hcomp : ((!·.isAnonymous) ∘ Diagnostic.unplaced) = (!·.isAnonymous) :=
    funext fun d => congrArg not d.isAnonymous_unplaced
  rw [unplaced, List.filter_map, hcomp, List.map_congr_left hsame, List.map_id']

/-- A sorted report, apart from where whole nodes stand. -/
theorem Report.unplaced_sortByPosition (r : Report) :
    (r.sortByPosition.toList.map Diagnostic.unplaced).Perm r.unplaced :=
  (List.mergeSort_perm _ _).map _

/-- **Dropping comments changes no report** but for the ranges of parameters without a pattern: all
other diagnostics are the same, in the same order, and these are as many and say the same. -/
theorem Tree.alike_parse (file source : String) (options : Options) :
    (parse file source { options with keepComments := false }).diagnostics.filter (!·.isAnonymous) =
        (parse file source { options with keepComments := true }).diagnostics.filter (!·.isAnonymous) ∧
      ((parse file source { options with keepComments := false }).diagnostics.map
        Diagnostic.unplaced).Perm
          ((parse file source { options with keepComments := true }).diagnostics.map
            Diagnostic.unplaced) := by
  obtain ⟨s, hrun, htree⟩ := parse_ends file source { options with keepComments := true }
  obtain ⟨s', hrun', htree'⟩ := parse_ends file source { options with keepComments := false }
  obtain ⟨w, hbare, hs⟩ := Setting.sheds_run rfl (hrun false)
  obtain rfl : s.twin w = s' := Option.some.inj (hbare.symm.trans (hrun' false))
  rw [htree, htree']
  constructor
  · show (w.report.toList.mergeSort fun d e => d.sortKey ≤ e.sortKey).filter _ =
      (s.report.toList.mergeSort fun d e => d.sortKey ≤ e.sortKey).filter _
    rw [← Diagnostic.mergeSort_filter, ← Diagnostic.mergeSort_filter, ← Report.filter_unplaced,
      hs.report, Report.filter_unplaced]
  · refine w.report.unplaced_sortByPosition.trans ?_
    rw [hs.report]
    exact s.report.unplaced_sortByPosition.symm

/-- A comment between the attributes of a parameter and its type is a part of the parameter. -/
example : ((Tree.parse "f.rs" "fn f(#[a] /*c*/ u8) \x7b\x7d" {}).diagnostics.map (·.range),
    (Tree.parse "f.rs" "fn f(#[a] /*c*/ u8) \x7b\x7d" { keepComments := false }).diagnostics.map
      (·.range)) = ([some ⟨10, 18⟩], [some ⟨16, 18⟩]) := by
  decide +kernel

end ConcreteSyntax
