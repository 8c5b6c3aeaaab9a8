import ConcreteSyntax.Proofs.Node.Rereading
import ConcreteSyntax.Proofs.Rereading.Expression
import ConcreteSyntax.Proofs.Termination

/-! # Reading again

While a text is read, the path of a value is read again as one of a type, the path of a type as the name
of a macro, and a condition as a chain of its conjuncts. Whatever the parser builds may be read again
(`Node.Built.rereadable`), so nothing but the roles of names and the labels of paths before arguments
gets lost or changed that way (`Node.Persists`). -/

namespace ConcreteSyntax

open Parse

/-! ### Trees -/

/-- At the end of a reading the draft is plain, and all of it may be read again. -/
theorem Setting.run_fits {σ : Setting} {s : Session} (h : σ.run? = some s) : s.draft.Fits .plain := by
  have hread : Parse.Composes .plain Anything (Grammar.upTo σ.nesting).sourceFile :=
    .sourceFile (Grammar.composes_upTo _)
  have hempty : (Session.start σ.source).draft.Fits .plain := Draft.fits_plain rfl
  exact (hread.follow (Session.legible_start _) (run_eq_some h)).fills.fits hempty

theorem Tree.rereadable_parse (file source : String) (options : Options) :
    (parse file source options).root.Rereadable := by
  obtain ⟨s, hrun, htree⟩ := parse_ends file source options
  have hfits := Setting.run_fits (hrun false)
  rw [htree]
  exact hfits.mould.rereadable hfits.rereadable (fun hT => absurd rfl hT) _

/-! ### What the parser builds -/

mutual

/-- What the parser builds: the root of a tree, what a nonterminal or a path is read to wherever it is
read, what that is read again as, and every node below one of these. -/
inductive Node.Built : Node → Prop
  | root (file source : String) (options : Options) : (Tree.parse file source options).root.Built
  | nonterminal {depth : Nat} {nonterminal : Nonterminal} {σ : Setting} {s s' : Session} {n : Node}
      (hs : s.Legible) (h : (Grammar.upTo depth).parse nonterminal σ s = some (n, s')) : n.Built
  | valuePath {depth : Nat} {σ : Setting} {s s' : Session} {n : Node} (hs : s.Legible)
      (h : (Grammar.upTo depth).valuePath σ s = some (n, s')) : n.Built
  /-- A segment of a path of a value, with the path up to it. -/
  | segment {scope : Option Draft} {σ : Setting} {s s' : Session} {n : Node}
      (hscope : Node.Scope scope) (hs : s.Legible)
      (h : segmentIn scope .identifier σ s = some (n, s')) : n.Built
  /-- A path of a value with its arguments. -/
  | arguments {depth : Nat} {path : Node} {σ : Setting} {s s' : Session} {n : Node}
      (hpath : path.Built) (hs : s.Legible)
      (h : (Grammar.upTo depth).withArguments path σ s = some (n, s')) : n.Built
  /-- A segment of a path of a type, with the path up to it. -/
  | typeName {scope : Option Draft} {σ : Setting} {s s' : Session} {n : Node}
      (hscope : Node.Scope scope) (hs : s.Legible)
      (h : Grammar.typeName scope σ s = some (n, s')) : n.Built
  | asType {n : Node} (h : n.Built) : n.asType.Built
  | asPath {n : Node} (h : n.Built) : n.asPath.Built
  | asLetChain {n : Node} (h : n.Built) : n.asLetChain.Built
  | part {n m : Node} (h : n.Built) (hm : m ∈ n.preorder) : m.Built

/-- What a path is continued in: nothing, the `::` that it begins with, or what stands before a
`::`. -/
inductive Node.Scope : Option Draft → Prop
  | first {depth : Nat} {scope : Option Draft} {σ : Setting} {s s' : Session} (hs : s.Legible)
      (h : (Grammar.upTo depth).pathScope σ s = some (scope, s')) : Node.Scope scope
  | after {path : Node} {scope : Draft} {σ : Setting} {s s' : Session} (hpath : path.Built)
      (hs : s.Legible) (h : scopeAfter path σ s = some (scope, s')) : Node.Scope (some scope)

end

mutual

/-- **Whatever the parser builds may be read again.** -/
theorem Node.Built.rereadable : {n : Node} → n.Built → n.Rereadable
  | _, .root file source options => Tree.rereadable_parse file source options
  | _, .nonterminal hs h =>
    ((Grammar.composes_upTo _).parse (T := .plain) |>.follow hs h).result
  | _, .valuePath hs h =>
    (Composes.valuePath (T := .plain) (Grammar.composes_upTo _) |>.follow hs h).result
  | _, .segment hscope hs h =>
    (Composes.segmentIn (T := .plain) hscope.fits rfl |>.follow hs h).result
  | _, .arguments hpath hs h =>
    (Composes.withArguments (T := .plain) (Grammar.composes_upTo _) hpath.rereadable
      |>.follow hs h).result
  | _, .typeName hscope hs h => (Composes.typeName (T := .plain) hscope.fits |>.follow hs h).result
  | _, .asType h => h.rereadable.asType
  | _, .asPath h => h.rereadable.asPath
  | _, .asLetChain h => h.rereadable.asLetChain
  | _, .part h hm => Node.forall_mem_preorder (fun _ h => h.children) h.rereadable _ hm

theorem Node.Scope.fits : {scope : Option Draft} → Node.Scope scope → IfAny (Draft.Fits .path) scope
  | _, .first hs h =>
    (Composes.pathScope (T := .plain) (Grammar.composes_upTo _) |>.follow hs h).result
  | _, .after hpath hs h =>
    ifAny_some (Composes.scopeAfter (T := .plain) hpath.rereadable |>.follow hs h).result

end

/-! ### What is kept -/

namespace Node

/-- What is kept of a node that is read again, and what is changed. -/
structure Persists (n : Node) : Prop where
  /-- The range, the error and the leaves, comments included, apart from the roles of names. -/
  asType : n.asType.Echoes n
  asPath : n.asPath.Echoes n
  asLetChain : n.asLetChain.Echoes n
  /-- As the path of a type a node changes at itself, at its name and down the path before its
  arguments; only the label of that path becomes another. -/
  retyped {path : List Nat} (h : n.Retyped path) : n.asType.reach? none path =
    (n.reach? none path).map fun c => (retypedLabel c.1, c.2.asType)
  /-- Everything else is the same node under the same label. -/
  untouched {path : List Nat} (h : ¬ n.Retyped path) :
    n.asType.reach? none path = n.reach? none path
  /-- A chain stays as it is. -/
  idempotent : n.asLetChain.asLetChain = n.asLetChain
  /-- No element of a chain is a conjunction. -/
  flat : n.asLetChain.kind = .letChain → ∀ c ∈ n.asLetChain.children, c.2.isConjunction = false

/-- **Reading again keeps the leaves** of whatever the parser built. -/
theorem Built.persists {n : Node} (h : n.Built) : n.Persists where
  asType := h.rereadable.echoes_asType
  asPath := h.rereadable.echoes_asPath
  asLetChain := h.rereadable.echoes_asLetChain
  retyped h := reach?_asType h none
  untouched h := reach?_asType_of_not h none
  idempotent := n.asLetChain_asLetChain
  flat := h.rereadable.asLetChain.chain

/-- A path with arguments, as in `a::b::<c>`. -/
theorem persists_turbofish :
    ∃ n : Node, n.Built ∧ n.kind = .genericFunction ∧ n.asType.kind = .genericType ∧ n.Persists := by
  have hfound : (Tree.parse "f.rs" "a::b::<c>;" {}).root.preorder.any (fun n =>
      n.kind == .genericFunction && n.asType.kind == .genericType) = true := by decide +kernel
  obtain ⟨n, hn, hfound⟩ := List.any_eq_true.1 hfound
  obtain ⟨hkind, htype⟩ := Bool.and_eq_true_iff.1 hfound
  have hbuilt : n.Built := .part (.root "f.rs" "a::b::<c>;" {}) hn
  exact ⟨n, hbuilt, eq_of_beq hkind, eq_of_beq htype, hbuilt.persists⟩

end Node

end ConcreteSyntax
