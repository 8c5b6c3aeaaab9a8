import ConcreteSyntax.Proofs.Grammar.Path

/-! # Token trees are orderly

Every element of a tree takes its first token, and so do a tree and a repetition. -/

namespace ConcreteSyntax

open Parse

theorem Parse.aside_reportInPlace {opener closer : Kind} {range : Range} {current : Kind} :
    (Grammar.reportInPlace opener closer range current).Aside true := by
  unfold Grammar.reportInPlace
  split
  · exact aside_errorAt (by decide) rfl _ _
  · exact aside_errorHere (by decide) rfl _

theorem Kind.ne_endOfFile_of_word {c : Kind} (h : (c == .identifier || c.isWord) = true) :
    c ≠ .endOfFile := by
  rintro rfl
  exact nomatch h

theorem Kind.not_isCompositeLiteral_of_word {c : Kind}
    (h : (c == .identifier || c.isWord) = true) : c.isCompositeLiteral = false := by
  unfold Kind.isCompositeLiteral
  split
  all_goals first | rfl | exact nomatch h

/-- A word is read as a leaf of the kind that is asked for. -/
theorem Parse.leaf_kind {kind : Kind} {σ : Setting} {s s' : Session} {n : Node}
    (hk : (s.kind == .identifier || s.kind.isWord) = true)
    (hrun : leaf (some kind) σ s = some (n, s')) : n.kind = kind := by
  have hrun' := leaf_run (some kind) σ (Kind.ne_endOfFile_of_word hk)
  obtain ⟨rfl, -⟩ := Prod.mk.inj (Option.some.inj (hrun'.symm.trans hrun))
  have hplain : s.scanner.token.kind.isCompositeLiteral = false :=
    Kind.not_isCompositeLiteral_of_word hk
  rw [Node.ofToken_as hplain]
  rfl

theorem Kind.isStandIn_of_closer? {c closer : Kind} (h : c.closer? = some closer) :
    closer.isStandIn = true := by
  unfold Kind.closer? at h
  split at h
  case h_4 => exact nomatch h
  all_goals exact Option.some.inj h ▸ rfl

theorem Kind.closer?_ne_none {c : Kind} (h : c.isOpen = true) : c.closer? ≠ none := by
  unfold Kind.isOpen at h
  split at h
  case h_4 => exact nomatch h
  all_goals decide

/-- A turn over the contents of a tree: one element, unless a closer or the end comes next. -/
def Grammar.treeTurn (g : Grammar) (form : TreeForm) : Parse Bool := do
  flush
  let s ← get
  if s.isAt .endOfFile || s.kind.isClose then return false
  g.treeElement form s
  return true

theorem Grammar.treeContents_eq (g : Grammar) (form : TreeForm) :
    g.treeContents form = repeatWhile (g.treeTurn form) :=
  rfl

namespace Orderly

variable {text : List Char} {g : Grammar} {k : Nat} {f : Bool} {a : Option Kind} {m o : Bool} {F : Standing}
  {form : TreeForm}

/-! ### Parts of a tree -/

theorem bindingAt :
    Orderly text g k f ⟨.empty, some .metavariable, m, o, F⟩ Grammar.binding
      fun n => ⟨.node n, none, true, o, F⟩ := by
  refine .node rfl <| .bind (.consumeFieldAt nofun) fun _ => .bind .consume fun _ =>
    .kind fun c _ => ?_
  split
  · next hc =>
    refine .bind (.beside aside_tokenText) fun word => ?_
    split
    · exact .consumeFieldAs rfl
    · have hend := Kind.ne_endOfFile_of_word hc
      exact .forgive <| .bind (.report (aside_errorHere (by decide) rfl _)) fun _ =>
        .sure (·.kind = .fragmentSpecifier)
          (fun _ hfit hrun => leaf_kind (hfit.at? _ rfl ▸ hc) hrun)
          (.leaf hend (readAs_some rfl)) fun n hn => .recast (.error n rfl hn) .pushField
  · exact .forget <| .forgive <| .bind (.report (aside_reportExpected _)) fun _ => .pushMissingField rfl

theorem treeElement {s : Session} (hs : s.kind ≠ .endOfFile) :
    Orderly text g k true ⟨.empty, some s.kind, m, o, F⟩ (g.treeElement form s)
      fun _ => ⟨.empty, none, true, o, F⟩ := by
  have hconsume : Orderly text g k true ⟨.empty, some s.kind, m, o, F⟩ Parse.consume
      fun _ => ⟨.empty, none, true, o, F⟩ := .consumeAt hs
  have htree (c : Kind) (hc : c.isOpen = true) :
      Orderly text g k true ⟨.empty, some c, m, o, F⟩
        (Parse.child (g.parse (.tokenTree form))) fun _ => ⟨.empty, none, true, o, F⟩ :=
    .child (.callAt (.inl rfl) hc)
  unfold Grammar.treeElement
  split
  · next hk => exact hk ▸ htree _ rfl
  · next hk => exact hk ▸ htree _ rfl
  · next hk => exact hk ▸ htree _ rfl
  · next hk =>
    rw [hk] at hconsume ⊢
    split
    · exact .child (.callAt (.inl rfl) rfl)
    · exact hconsume
  · next hk =>
    rw [hk] at hconsume ⊢
    split
    · exact .child .bindingAt
    · exact hconsume
  · next hk =>
    rw [hk] at hconsume ⊢
    split
    · exact .child .lifetimeAt
    · exact hconsume
  · split
    · next hl => exact .child (.literalAt hl)
    · exact hconsume

theorem treeTurn :
    Orderly text g k true ⟨.empty, none, false, o, F⟩ (g.treeTurn form)
      fun b => ⟨.empty, none, b, o, F⟩ := by
  refine .bind .flush fun _ => .look (fun _ _ => rfl) fun s _ => ?_
  split
  · exact .pure .forget
  · next hs =>
    have hk : s.kind ≠ .endOfFile := by
      intro hk
      exact hs (by simp [Session.isAt, hk])
    exact .bind (.treeElement hk) fun _ => .pure (.refl _)

theorem treeContents :
    Orderly text g k true ⟨.empty, a, m, o, F⟩ (g.treeContents form)
      fun _ => ⟨.empty, none, m, o, F⟩ :=
  .repeatWhile .treeTurn

theorem treeCloser {opener closer : Kind} {range : Range} (hc : closer.isStandIn = true) :
    Orderly text g k f ⟨.empty, a, m, o, F⟩ (Grammar.treeCloser opener closer range)
      fun _ => ⟨.empty, none, m, o, F⟩ := by
  refine .kind fun c _ => ?_
  split
  · exact .bind .consume fun _ => .pure (.refl _)
  · exact .forget <| .forgive <| .bind (.report aside_reportInPlace) fun _ =>
      .bind (.pushMissing hc) fun _ => .pure (.refl _)

/-! ### Trees -/

theorem delimitedTree :
    Orderly text g k f ⟨.empty, a, m, o, F⟩ (g.delimitedTree form)
      fun n => ⟨.node n, none, m, o, F⟩ := by
  have hkind : form.groupKind.isFree = true := by cases form <;> rfl
  refine .node hkind <| .kind fun c _ => ?_
  split
  · exact .forget <| .forgive <| .bind (.report (aside_reportExpected _)) fun _ =>
      .bind (.pushMissing rfl) fun _ => .pushMissing rfl
  · next closer hc =>
    have hopen : c ≠ .endOfFile := by
      rintro rfl
      exact nomatch hc
    exact .perhaps <| .bind (.beside aside_tokenRange) fun _ => .bind (.consumeAt hopen) fun _ =>
      .past <| .bind .treeContents fun _ =>
        .bind (.treeCloser (Kind.isStandIn_of_closer? hc)) fun _ => .pure (.refl _)

theorem delimitedTreeAt {c : Kind} (hc : c.isOpen = true) :
    Orderly text g k f ⟨.empty, some c, m, o, F⟩ (g.delimitedTree form)
      fun n => ⟨.node n, none, true, o, F⟩ := by
  have hkind : form.groupKind.isFree = true := by cases form <;> rfl
  refine .node hkind <| .kind fun c' hc' => ?_
  obtain rfl := hc' c rfl
  split
  · next hnone => exact absurd hnone (Kind.closer?_ne_none hc)
  · next closer hcloser =>
    have hopen : c' ≠ .endOfFile := by
      rintro rfl
      exact nomatch hc
    exact .bind (.beside aside_tokenRange) fun _ => .bind (.consumeAt hopen) fun _ =>
      .past <| .bind .treeContents fun _ =>
        .bind (.treeCloser (Kind.isStandIn_of_closer? hcloser)) fun _ => .pure (.refl _)

theorem tokenTree :
    Orderly text g k f ⟨.empty, a, m, o, F⟩ (g.tokenTree form)
      fun n => ⟨.node n, none, m, o, F⟩ :=
  .bind .flush fun _ => .deeper .delimitedTree

theorem tokenTreeAt {c : Kind} (hc : c.isOpen = true) :
    Orderly text g k f ⟨.empty, some c, m, o, F⟩ (g.tokenTree form)
      fun n => ⟨.node n, none, true, o, F⟩ := by
  have hskip : c.isSkipped = true := by
    revert hc
    cases c <;> decide
  exact .bind .flush fun _ => .deeperAt hskip (.delimitedTreeAt hc)

theorem repetitionMark :
    Orderly text g k f ⟨.empty, a, m, o, F⟩ Grammar.repetitionMark
      fun _ => ⟨.empty, none, m, o, F⟩ := by
  refine .kind fun c _ => .bind (.provided .consume) fun _ => .kind fun c' _ => ?_
  split
  · exact .consume
  · exact .forget <| .forgive <| .bind (.report (aside_errorHere (by decide) rfl _)) fun _ => .pushMissing rfl

/-- A repetition after its `$`. -/
theorem afterDollar :
    Orderly text g k true ⟨.empty, none, m, o, F⟩
      (do
        let openRange ← Parse.tokenRange
        Parse.consume
        g.treeContents form
        if ← Grammar.treeCloser .openParen .closeParen openRange then Grammar.repetitionMark)
      fun _ => ⟨.empty, none, m, o, F⟩ := by
  refine .bind (.beside aside_tokenRange) fun _ => .bind .consume fun _ => .bind .treeContents fun _ =>
    .bind (.treeCloser rfl) fun closed => ?_
  split
  · exact .repetitionMark
  · exact .pure (.refl _)

theorem repetition :
    Orderly text g k true ⟨.empty, a, m, o, F⟩ (g.repetition form)
      fun n => ⟨.node n, none, m, o, F⟩ := by
  have hkind : form.repetitionKind.isFree = true := by cases form <;> rfl
  exact .node hkind <| .bind .consume fun _ => .afterDollar

/-- A repetition takes its `$`. -/
theorem repetitionAt {c : Kind} (hc : c ≠ .endOfFile) :
    Orderly text g k f ⟨.empty, some c, m, o, F⟩ (g.repetition form)
      fun n => ⟨.node n, none, true, o, F⟩ := by
  have hkind : form.repetitionKind.isFree = true := by cases form <;> rfl
  exact .node hkind <| .bind (.consumeAt hc) fun _ => .past .afterDollar

/-- The call of a macro takes its `!`. -/
theorem macroCallAt {path : Node} :
    Orderly text g k f ⟨.node path, some .bang, m, o, F⟩ (g.macroCall path)
      fun n => ⟨.node n, none, true, o, F⟩ :=
  .node rfl <| .bind .pushField fun _ => .bind (.expectAt nofun) fun _ =>
    .child (.call (.inr (.inl rfl)) rfl)

end Orderly

end ConcreteSyntax
