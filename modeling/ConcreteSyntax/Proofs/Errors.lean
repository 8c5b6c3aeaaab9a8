import ConcreteSyntax.Proofs.Node.Preorder
import ConcreteSyntax.Proofs.Node.Quiet
import ConcreteSyntax.Proofs.Reading.Run

/-! # Errors in a tree and errors in a report

While no error is owed, everything that was built is quiet (`Invariant.quiet`). At the end of a text
an error that is owed was reported, so a tree holds an error or a missing token only if one of its
diagnostics is an error (`Tree.hadErrors_parse`). -/

namespace ConcreteSyntax

open Parse

/-- Whether a draft is no error, as long as none is owed. -/
def Standing.isFair : Standing → Bool
  | .failed => false
  | _ => true

/-- What is in the hands is quiet. -/
def Hand.Quiet : Hand → Prop
  | .empty | .lost => True
  | .node n => n.Quiet
  | .draft d F => d.Quiet F.isFair

/-- An error is owed, or the open draft and what is in the hands are quiet. -/
def Session.Quiet (s : Session) (h : Hand) (F : Standing) : Prop :=
  s.Owed ∨ s.draft.Quiet F.isFair ∧ h.Quiet

namespace Standing

theorem Serves.isFair {owed : Prop} {F F' : Standing} (h : F.Serves owed F') (ho : ¬ owed)
    (hF : F'.isFair = true) : F.isFair = true := by
  cases h with
  | same => exact hF
  | proper => rfl
  | owed h => exact absurd h ho
  | failed => exact nomatch hF

theorem isFair_of_ne {F : Standing} (h : F ≠ .failed) : F.isFair = true := by
  cases F with
  | failed => exact absurd rfl h
  | _ => rfl

theorem Begins.kind_ne {F : Standing} {kind : Kind} (h : F.Begins kind) (hF : F.isFair = true) :
    kind ≠ .error := by
  rintro rfl
  cases F with
  | failed => exact nomatch hF
  | _ => exact nomatch h

end Standing

/-! ### Drafts -/

namespace Draft

theorem quiet_ofKind {kind : Kind} {fair : Bool} (h : fair = true → kind ≠ .error) :
    (ofKind kind).Quiet fair :=
  ⟨h, rfl, rfl, rfl, nofun⟩

theorem Quiet.pushChild {d : Draft} {fair : Bool} (h : d.Quiet fair) {n : Node} (hn : n.Quiet)
    (label : Option Field) : (d.pushChild label n).Quiet fair :=
  ⟨h.kind, h.error, h.missing, h.hasError, forall_mem_pushChild.2 ⟨h.children, hn⟩⟩

theorem Quiet.extend {d : Draft} {fair : Bool} (h : d.Quiet fair) {more : List Child}
    (hm : ∀ c ∈ more, c.2.Quiet) : (d.extend more).Quiet fair :=
  ⟨h.kind, h.error, h.missing, h.hasError, forall_mem_extend.2 ⟨h.children, hm⟩⟩

theorem Quiet.weaken {d : Draft} {fair fair' : Bool} (h : d.Quiet fair)
    (hf : fair' = true → fair = true) : d.Quiet fair' :=
  ⟨fun hfair => h.kind (hf hfair), h.error, h.missing, h.hasError, h.children⟩

theorem Quiet.setKind {d : Draft} {fair fair' : Bool} (h : d.Quiet fair) {kind : Kind}
    (hk : fair' = true → kind ≠ .error) : (d.setKind kind).Quiet fair' :=
  ⟨hk, h.error, h.missing, h.hasError, h.children⟩

theorem Quiet.clearFields {d : Draft} {fair : Bool} (h : d.Quiet fair) :
    d.clearFields.Quiet fair :=
  ⟨h.kind, h.error, h.missing, h.hasError, forall_mem_clearFields.2 h.children⟩

/-- No mark comes from a quiet node. -/
theorem Quiet.addFlags {d : Draft} {fair : Bool} (h : d.Quiet fair) {n : Node} (hn : n.Quiet) :
    (d.addFlags { error := n.flags.error }).Quiet fair := by
  refine ⟨h.kind, ?_, ?_, ?_, h.children⟩ <;>
    simp [Draft.addFlags, NodeFlags.union, h.error, h.missing, h.hasError, hn.error]

end Draft

/-! ### The invariant -/

/-- Changes to quiet things in the hands keep them quiet, where no error is owed. -/
theorem Hand.Quiet.becomes {h h' : Hand} {o : Bool} (hq : h.Quiet) (hh : h.Becomes o h') :
    o = true ∨ h'.Quiet := by
  cases hh with
  | same => exact .inr hq
  | kind n hk =>
    exact .inr (Node.quiet_withKind hq (Kind.ne_of_isFree (Kind.isFree_of_isName hk)).1)
  | type n => exact .inr (Node.lasting_quiet.asType hq)
  | path n => exact .inr (Node.lasting_quiet.asPath hq)
  | chain n => exact .inr (Node.lasting_quiet.asLetChain hq)
  | ambiguous n => exact .inr (Node.quiet_ambiguous hq)
  | error n ho => exact .inl ho
  | retag d hk => exact .inr (Draft.Quiet.setKind hq fun _ => (Kind.ne_of_isFree hk).1)
  | explained d hF =>
    cases o with
    | true => exact .inl rfl
    | false => exact .inr (Draft.Quiet.weaken hq (hF.isFair nofun))
  | nothing d hd => exact .inr trivial
  | lost => exact .inr trivial

/-- The open draft and what is in the hands are quiet while no error is owed. -/
def Invariant.quiet (text : List Char) (options : Options) : Invariant text options Unit where
  holds _ h F s := s.Quiet h F
  stands := by
    rintro _ h F F' s hF (ho | ⟨hd, hh⟩)
    · exact .inl ho
    · by_cases ho : s.Owed
      · exact .inl ho
      · exact .inr ⟨hd.weaken (hF.isFair ho), hh⟩
  becomes := by
    rintro _ h h' o F s - ho hh (howed | ⟨hd, hq⟩)
    · exact .inl howed
    · rcases hq.becomes hh with h | h
      · exact .inl (ho h)
      · exact .inr ⟨hd, h⟩
  beside := by
    rintro _ h F severe s s' hb (ho | hq)
    · exact .inl (hb.owed_mono ho)
    · exact .inr (hb.draft ▸ hq)
  reshaped := by
    rintro _ h F s scanner hr (ho | hq)
    · exact .inl (by rwa [Session.Owed, hr.faults])
    · exact .inr hq
  flushed := by
    rintro _ F σ s - hsound (ho | ⟨hd, -⟩)
    · exact .inl ho
    · refine .inr ⟨?_, trivial⟩
      unfold Session.flushed
      dsimp only
      split
      · exact hd.extend (Session.quiet_comments hsound)
      · exact hd
  taken := by
    rintro _ F σ s as? next - hsound hk has (ho | ⟨hd, -⟩)
    · exact .inl (.inl (ho.elim (Report.grows_addAll _ _).hasErrors (Session.taken_hasErrors σ next)))
    · by_cases hf : s.scanner.token.faults = []
      · refine .inr ⟨?_, Node.quiet_ofToken hsound.scanner.laid hf fun kind hkind =>
          (has kind hkind).elim (fun h => Kind.ne_of_isFree (Kind.isFree_of_isName h))
            Kind.ne_of_wordText⟩
        show ((s.flushed σ).draft).Quiet F.isFair
        unfold Session.flushed
        dsimp only
        split
        · exact hd.extend (Session.quiet_comments hsound)
        · exact hd
      · exact .inl (.inl (Session.taken_hasErrors σ next hf))
  pushed := by
    rintro _ F s label n - (ho | ⟨hd, hn⟩)
    · exact .inl ho
    · exact .inr ⟨hd.pushChild hn label, trivial⟩
  unpacked := by
    rintro _ s token - - (ho | ⟨hd, hn⟩)
    · exact .inl ho
    · exact .inr ⟨(hd.addFlags hn).extend (Node.Quiet.children hn), trivial⟩
  spread := by
    rintro _ s d (ho | ⟨hd, hs⟩)
    · exact .inl ho
    · exact .inr ⟨hd.extend (Draft.Quiet.children hs), trivial⟩
  renamed := by
    rintro _ h F s kind - hk (ho | ⟨hd, hh⟩)
    · exact .inl ho
    · exact .inr ⟨hd.setKind fun _ => (Kind.ne_of_isFree hk).1, hh⟩
  failed := by
    rintro _ h F s - (ho | ⟨hd, hh⟩)
    · exact .inl ho
    · exact .inr ⟨(hd.setKind fun h : false = true => nomatch h).clearFields, hh⟩
  opened := by
    intro _ h F F₀ s kind hk _ hs
    refine ⟨(), ?_, fun {t F'} hon ht => ?_⟩
    · exact hs.imp_right fun ⟨_, hh⟩ => ⟨Draft.quiet_ofKind hk.kind_ne, hh⟩
    · rcases ht with ho | ⟨hd, -⟩
      · exact .inl ho
      · rcases hs with ho | ⟨houter, -⟩
        · exact .inl (hon.owed ho)
        · exact .inr ⟨houter, hd⟩
  reopened := by
    intro _ F F₀ s d hs
    refine ⟨(), ?_, fun {t F'} hon ht => ?_⟩
    · exact hs.imp_right fun ⟨_, hh⟩ => ⟨hh, trivial⟩
    · rcases ht with ho | ⟨hd, -⟩
      · exact .inl ho
      · rcases hs with ho | ⟨houter, -⟩
        · exact .inl (hon.owed ho)
        · exact .inr ⟨houter, hd⟩
  finished := by
    rintro _ F F₀ s d - hF (ho | ⟨hd, hh⟩)
    · exact .inl ho
    · have hfair : d.Quiet true := Standing.isFair_of_ne hF ▸ hh
      exact .inr ⟨hd, Node.quiet_finishOver hfair _⟩
  missing := fun _ _ ho _ => .inl ho
  limited := fun _ hb _ _ => .inl (hb.owed rfl)

/-! ### Whole texts -/

/-- At the end of a reading nothing is owed any more: without a report of an error all is quiet. -/
theorem Setting.run_quiet {σ : Setting} {s : Session} (h : σ.run? = some s)
    (hr : s.report.hasErrors = false) : s.draft.Quiet true := by
  have hstart : (Session.start σ.source).Quiet .empty .proper :=
    .inr ⟨Draft.quiet_ofKind fun _ => nofun, trivial⟩
  rcases σ.run_keeps (.quiet _ _) (b := ()) hstart h with ho | ⟨hd, -⟩
  · rcases ho with ho | ho
    · exact nomatch hr.symm.trans ho
    · -- the token at the end of a text has no fault
      have hend : s.scanner.token.kind = .endOfFile := (σ.run_atEnd h).1
      exact absurd ((σ.run_onward h).sound.scanner.laid.faultless (by rw [hend]; rfl)) ho
  · exact hd

theorem Session.diagnostics_tree (s : Session) (σ : Setting) :
    (s.tree σ).diagnostics.any Diagnostic.isError = s.report.hasErrors := by
  have hperm := List.mergeSort_perm s.report.items.toList fun d e => decide (d.sortKey ≤ e.sortKey)
  rw [Report.hasErrors_eq]
  exact Bool.eq_iff_iff.2 (by simp only [List.any_eq_true, tree, Report.sortByPosition,
    Report.toList, hperm.mem_iff])

/-- Without a report of an error the root is quiet. -/
theorem Session.quiet_root {s : Session} {σ : Setting}
    (hd : s.report.hasErrors = false → s.draft.Quiet true)
    (hr : (s.tree σ).diagnostics.any Diagnostic.isError = false) : (s.tree σ).root.Quiet :=
  Node.quiet_finishOver (hd ((s.diagnostics_tree σ).symm.trans hr)) _

/-- Without a diagnostic of an error a tree is quiet. -/
theorem Tree.quiet_parse {file source : String} {options : Options}
    (h : (parse file source options).diagnostics.any Diagnostic.isError = false) :
    (parse file source options).root.Quiet := by
  refine Session.quiet_root (fun hr => ?_) h
  cases hrun : ({ file, source, options } : Setting).run? with
  | some s =>
    rw [hrun] at hr
    exact Setting.run_quiet hrun hr
  | none => exact Draft.quiet_ofKind fun _ => nofun

/-- **No silent error**: a tree had errors just if one of its diagnostics is an error, and no node
that is an error or a missing token stands in a tree without such a diagnostic. -/
theorem Tree.hadErrors_parse (file source : String) (options : Options) :
    ((parse file source options).hadErrors = true ↔
      ∃ d ∈ (parse file source options).diagnostics, d.isError = true) ∧
    ∀ n ∈ (parse file source options).root.preorder, n.isError = true ∨ n.isMissing = true →
      ∃ d ∈ (parse file source options).diagnostics, d.isError = true := by
  rw [← List.any_eq_true]
  cases h : (parse file source options).diagnostics.any Diagnostic.isError with
  | true => exact ⟨by simp [hadErrors, h], fun _ _ _ => rfl⟩
  | false =>
    have hquiet := quiet_parse h
    refine ⟨by simp [hadErrors, h, hquiet.hasError_eq], fun n hn he => ?_⟩
    have hn := Node.forall_mem_preorder (fun _ hq => hq.children) hquiet n hn
    have herror := hn.hasError_eq
    simp only [Node.hasError, Bool.or_eq_false_iff] at herror
    rcases he with he | he
    · exact herror.1.1.symm.trans he
    · exact herror.1.2.symm.trans he

end ConcreteSyntax
