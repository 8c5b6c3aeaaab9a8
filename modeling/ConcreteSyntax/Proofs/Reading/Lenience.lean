import ConcreteSyntax.Proofs.Reading.Take

/-! # More lenient options

Options may let constructs nest deeper, let anonymous parameters pass with a warning, or let
`static ref` pass (`Lenience`). Under more lenient options a report drops what is let pass, and warns
of anonymous parameters instead of forbidding them (`Report.relaxed`). Some remarks tell that the
lenience may have mattered otherwise, too (`Lenience.touches`): the limit of nesting was met, or a
reading was given up, which may have been for a `static ref` in it. -/

namespace ConcreteSyntax

/-- How options are more lenient than others. -/
structure Lenience where
  /-- How much deeper constructs may nest. -/
  depth : Nat := 0
  /-- Whether anonymous parameters pass with a warning. -/
  anonymous : Bool := false
  /-- Whether `static ref` passes. -/
  staticRef : Bool := false

namespace Lenience

/-- Whether a diagnostic is still reported. -/
def keeps (l : Lenience) (d : Diagnostic) : Bool :=
  !(l.staticRef && d.code == Message.staticRef.code)

/-- Whether a remark tells that the reading may have been another one under the lenience. -/
def touches (l : Lenience) : Remark → Bool
  | .nestingLimit _ => 0 < l.depth
  | .fellBack _ _ => l.staticRef
  | _ => false

end Lenience

/-- More lenient options. -/
def Options.relaxed (l : Lenience) (o : Options) : Options :=
  { o with
    maxDepth := o.maxDepth + l.depth
    allowAnonymousParameters := o.allowAnonymousParameters || l.anonymous
    allowStaticRef := o.allowStaticRef || l.staticRef }

/-- A setting with more lenient options. -/
def Setting.relaxed (l : Lenience) (σ : Setting) : Setting := { σ with options := σ.options.relaxed l }

/-! ### Reports -/

/-- A message about the grammar, and about no option. -/
abbrev Message.IsPlain (m : Message) : Prop :=
  2000 ≤ m.code ∧ m.code < Message.anonymousDeprecated.code

/-- A diagnostic under more lenient options: what was forbidden is only deprecated. -/
def Diagnostic.relaxed (l : Lenience) (d : Diagnostic) : Diagnostic :=
  if l.anonymous && d.code == Message.anonymousForbidden.code then
    .ofMessage d.file d.range .anonymousDeprecated []
  else d

theorem Diagnostic.sortKey_relaxed (l : Lenience) (d : Diagnostic) :
    (d.relaxed l).sortKey = d.sortKey := by
  unfold relaxed
  split <;> rfl

namespace Report

/-- A report under more lenient options. -/
def relaxed (l : Lenience) (r : Report) : Report := ⟨(r.items.filter l.keeps).map (·.relaxed l)⟩

variable {l : Lenience} {r : Report}

theorem toList_relaxed : (r.relaxed l).toList = (r.toList.filter l.keeps).map (·.relaxed l) := by
  simp [relaxed, toList]

/-- A diagnostic that no option is about. -/
theorem relaxed_plain {d : Diagnostic} (h : d.code < Message.anonymousDeprecated.code) :
    l.keeps d = true ∧ d.relaxed l = d := by
  have hstatic : (d.code == Message.staticRef.code) = false :=
    beq_eq_false_iff_ne.2 (Nat.ne_of_lt (Nat.lt_trans h (by decide)))
  have hforbidden : (d.code == Message.anonymousForbidden.code) = false :=
    beq_eq_false_iff_ne.2 (Nat.ne_of_lt (Nat.lt_trans h (by decide)))
  simp [Lenience.keeps, Diagnostic.relaxed, hstatic, hforbidden]

/-- One diagnostic more. -/
theorem relaxed_add (d : Diagnostic) :
    (r.add d).relaxed l = if l.keeps d then (r.relaxed l).add (d.relaxed l) else r.relaxed l := by
  by_cases hd : l.keeps d = true <;> simp [relaxed, add, hd]

/-- What is reported of a parameter without a pattern. -/
def addAnonymous (r : Report) (file : String) (range : Range) (o : Options) : Report :=
  r.add (.located file range
    (if o.allowAnonymousParameters then .anonymousDeprecated else .anonymousForbidden) [])

theorem relaxed_addAnonymous (file : String) (range : Range) (o : Options) :
    (r.addAnonymous file range o).relaxed l = (r.relaxed l).addAnonymous file range (o.relaxed l) := by
  obtain ⟨depth, anonymous, staticRef⟩ := l
  rw [addAnonymous, relaxed_add]
  cases ho : o.allowAnonymousParameters <;> cases anonymous <;>
    simp [addAnonymous, Options.relaxed, ho, Lenience.keeps, Diagnostic.relaxed, Diagnostic.located,
      Diagnostic.ofMessage, Message.anonymousDeprecated, Message.anonymousForbidden, Message.staticRef]

/-- What is reported of a `static ref`. -/
def addStaticRef (r : Report) (file : String) (range : Range) (o : Options) : Report :=
  if o.allowStaticRef then r else r.add (.located file range .staticRef [])

theorem relaxed_addStaticRef (file : String) (range : Range) (o : Options) :
    (r.addStaticRef file range o).relaxed l = (r.relaxed l).addStaticRef file range (o.relaxed l) := by
  obtain ⟨depth, anonymous, staticRef⟩ := l
  cases ho : o.allowStaticRef <;> cases staticRef <;>
    simp [addStaticRef, relaxed_add, Options.relaxed, ho, Lenience.keeps, Diagnostic.relaxed,
      Diagnostic.located, Diagnostic.ofMessage, Message.anonymousForbidden, Message.staticRef]

/-- More diagnostics that no option is about. -/
theorem relaxed_addAll {ds : List Diagnostic}
    (h : ∀ d ∈ ds, d.code < Message.anonymousDeprecated.code) :
    (r.addAll ds).relaxed l = (r.relaxed l).addAll ds := by
  have hkeeps : ds.filter l.keeps = ds := List.filter_eq_self.2 fun d hd => (relaxed_plain (h d hd)).1
  have hsame : ds.map (·.relaxed l) = ds := by
    rw [List.map_congr_left fun d hd => (relaxed_plain (h d hd)).2, List.map_id']
  simp [relaxed, addAll, hkeeps, hsame]

/-- Where `static ref` does not matter, a report stays as long as it is. -/
theorem size_relaxed (h : l.staticRef = false) : (r.relaxed l).size = r.size := by
  have hkeeps : r.items.filter l.keeps = r.items :=
    Array.filter_eq_self.2 fun d _ => by simp [Lenience.keeps, h]
  simp [relaxed, size, hkeeps]

/-- A sorted report. -/
theorem sortByPosition_relaxed :
    (r.relaxed l).sortByPosition.toList =
      (r.sortByPosition.toList.filter l.keeps).map (·.relaxed l) := by
  show (r.relaxed l).toList.mergeSort (fun d e => d.sortKey ≤ e.sortKey) =
    ((r.toList.mergeSort fun d e => d.sortKey ≤ e.sortKey).filter l.keeps).map (·.relaxed l)
  rw [toList_relaxed, ← Diagnostic.mergeSort_filter]
  refine (List.map_mergeSort fun d _ e _ => ?_).symm
  rw [Diagnostic.sortKey_relaxed, Diagnostic.sortKey_relaxed]

end Report

/-- No fault of a token is about an option. -/
theorem Fault.code_diagnostic_lt (f : Fault) (file source : String) :
    (f.diagnostic file source).code < Message.anonymousDeprecated.code := by
  obtain ⟨kind, range⟩ := f
  cases kind <;> exact Nat.le_of_ble_eq_true rfl

/-! ### Sessions -/

namespace Session

/-- The session with the report under more lenient options. -/
def relaxed (l : Lenience) (s : Session) : Session := { s with report := s.report.relaxed l }

/-- No remark tells that the lenience matters. -/
def Untouched (l : Lenience) (s : Session) : Prop := ∀ remark ∈ s.remarks.toList, l.touches remark = false

variable {l : Lenience} {s t : Session}

theorem Untouched.of_push {remark : Remark} (h : t.Untouched l)
    (ht : t.remarks = s.remarks.push remark) : s.Untouched l ∧ l.touches remark = false := by
  unfold Untouched at h
  rw [ht, Array.toList_push] at h
  exact ⟨fun r hr => h r (List.mem_append_left _ hr), h remark (List.mem_append_right _ List.mem_cons_self)⟩

theorem relaxed_start (source : String) : (start source).relaxed l = start source := by
  have hempty : Report.empty.relaxed l = .empty := by simp [Report.relaxed, Report.empty]
  exact congrArg (fun report => { start source with report }) hempty

theorem relaxed_taken (σ : Setting) (next : Admitted) :
    (s.relaxed l).taken (σ.relaxed l) next = (s.taken σ next).relaxed l := by
  have hfaults : ∀ d ∈ s.scanner.token.faults.map (·.diagnostic σ.file σ.source),
      d.code < Message.anonymousDeprecated.code :=
    List.forall_mem_map.2 fun f _ => f.code_diagnostic_lt _ _
  unfold relaxed taken
  rw [Report.relaxed_addAll hfaults]
  rfl

end Session

end ConcreteSyntax
