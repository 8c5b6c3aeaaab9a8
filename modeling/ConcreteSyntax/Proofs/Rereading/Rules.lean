import ConcreteSyntax.Grammar.Reading
import ConcreteSyntax.Proofs.Rereading.Legible
import ConcreteSyntax.Proofs.Shelters.Rules

/-! # Programs that compose nodes that may be read again

A program *composes* what it reads (`Parse.Composes`) if it goes on to a legible token, fills the
open draft so that it stays in its mould (`Mould.Fills`), and returns what it should. A node is made
in the mould of its kind: most kinds are plain (`Parse.Composes.node`), a path is finished with its
last name (`Parse.Composes.finishPath`), and a path with arguments or an operation begins with a part
of it (`Parse.Composes.nodeOver`). There is one rule for each way in which a program is put
together. -/

namespace ConcreteSyntax

open Parse

/-! ### Drafts -/

/-- All children may be read again. -/
def Draft.Rereadable (d : Draft) : Prop := ∀ c ∈ d.children.toList, c.2.Rereadable

/-- A draft in a mould over children that may be read again. -/
structure Draft.Fits (T : Mould) (d : Draft) : Prop where
  mould : T.Holds d
  rereadable : d.Rereadable

namespace Mould

/-- Whether any node may be added under a label. -/
def admits (T : Mould) (label : Option Field) : Bool := T != .operation || Node.isOperand label

/-- What a program does to the open draft: children are added that may be read again, and it stays
in its mould. -/
structure Fills (T : Mould) (d d' : Draft) : Prop where
  rereadable : d.Rereadable → d'.Rereadable
  mould : T.Holds d → T.Holds d'
  parts : d.children.toList ≠ [] → d'.children.toList ≠ []

variable {T : Mould} {d d' d'' : Draft}

theorem takes_of_admits {label : Option Field} (h : T.admits label = true) (n : Node) :
    T.Takes label n := by
  rintro rfl hoperand
  exact absurd (hoperand.symm.trans h) Bool.false_ne_true

namespace Fills

theorem refl (d : Draft) : T.Fills d d := ⟨id, id, id⟩

theorem trans (h : T.Fills d d') (h' : T.Fills d' d'') : T.Fills d d'' :=
  ⟨h'.rereadable ∘ h.rereadable, h'.mould ∘ h.mould, h'.parts ∘ h.parts⟩

theorem fits (h : T.Fills d d') (hd : d.Fits T) : d'.Fits T :=
  ⟨h.mould hd.mould, h.rereadable hd.rereadable⟩

theorem extend {more : List Child} (hm : ∀ c ∈ more, c.2.Rereadable ∧ T.Takes c.1 c.2) :
    T.Fills d (d.extend more) where
  rereadable h := Draft.forall_mem_extend.2 ⟨h, fun c hc => (hm c hc).1⟩
  mould h := h.extend fun c hc => (hm c hc).2
  parts h := by simpa [Draft.extend] using fun he => absurd he (by simpa using h)

theorem extendPlain {more : List Child} (hm : ∀ c ∈ more, c.2.Plain) : T.Fills d (d.extend more) :=
  .extend fun c hc => ⟨(hm c hc).rereadable, .of_plain (hm c hc) c.1⟩

theorem pushChild {label : Option Field} {n : Node} (hn : n.Rereadable) (ht : T.Takes label n) :
    T.Fills d (d.pushChild label n) := by
  rw [Draft.pushChild_eq_extend]
  exact .extend (List.forall_mem_singleton.2 ⟨hn, ht⟩)

theorem setKind {kind : Kind} (hk : kind.isRejoined = false) :
    Mould.plain.Fills d (d.setKind kind) :=
  ⟨id, fun _ => hk, id⟩

theorem addFlags (flags : NodeFlags) : Mould.plain.Fills d (d.addFlags flags) := ⟨id, id, id⟩

theorem fail (d : Draft) : Mould.plain.Fills d (d.setKind .error).clearFields :=
  ⟨fun h => Draft.forall_mem_clearFields.2 h, fun _ => rfl,
    fun h => by simpa [Draft.clearFields, Draft.setKind] using h⟩

end Fills

end Mould

theorem Draft.fits_ofKind {T : Mould} {kind : Kind} (h : T.Holds (.ofKind kind)) :
    (Draft.ofKind kind).Fits T :=
  ⟨h, List.forall_mem_nil _⟩

theorem Draft.fits_plain {kind : Kind} (hk : kind.isRejoined = false) :
    (Draft.ofKind kind).Fits .plain :=
  Draft.fits_ofKind hk

/-- A draft that becomes a path may become one of a type. -/
theorem Draft.Fits.asType {d : Draft} (h : d.Fits .path) :
    (d.setKind .scopedTypeIdentifier).Fits .path :=
  ⟨⟨nofun, nofun, nofun, h.mould.2.2.2⟩, h.rereadable⟩

namespace Parse

variable {α β ρ : Type} {T : Mould}

/-! ### Programs -/

/-- Where a program went, and what holds of its result. -/
structure Composed (T : Mould) (Q : α → Prop) (r : α) (s s' : Session) : Prop where
  legible : s'.Legible
  fills : T.Fills s.draft s'.draft
  result : Q r

/-- A program that composes nodes that may be read again, in a draft in this mould. -/
structure Composes (T : Mould) (Q : α → Prop) (m : Parse α) : Prop where
  follow {σ : Setting} {s s' : Session} {r : α} (hs : s.Legible) (h : m σ s = some (r, s')) :
    Composed T Q r s s'

namespace Composes

variable {P Q : α → Prop} {R : β → Prop} {m : Parse α}

/-! ### Composition -/

theorem mono {Q' : α → Prop} (h : Composes T Q m) (hQ : ∀ r, Q r → Q' r) : Composes T Q' m := by
  refine ⟨fun hs hrun => ?_⟩
  obtain ⟨hlegible, hfills, hr⟩ := h.follow hs hrun
  exact ⟨hlegible, hfills, hQ _ hr⟩

theorem give {r : α} (h : Q r) : Composes T Q (pure r) := by
  refine ⟨fun hs hrun => ?_⟩
  obtain ⟨rfl, rfl⟩ := pure_eq_some.1 hrun
  exact ⟨hs, .refl _, h⟩

theorem pure (r : α) : Composes T Anything (pure r) := give trivial

/-- A program goes on with what holds of the result. -/
theorem draw {K : α → Parse β} (hm : Composes T P m) (hK : ∀ r, P r → Composes T R (K r)) :
    Composes T R (m >>= K) := by
  refine ⟨fun hs hrun => ?_⟩
  obtain ⟨r, t, hrun, hrest⟩ := bind_eq_some.1 hrun
  obtain ⟨hlegible, hfills, hr⟩ := hm.follow hs hrun
  obtain ⟨hlegible', hfills', hr'⟩ := (hK r hr).follow hlegible hrest
  exact ⟨hlegible', hfills.trans hfills', hr'⟩

theorem bind {K : α → Parse β} (hm : Composes T Anything m) (hK : ∀ r, Composes T R (K r)) :
    Composes T R (m >>= K) :=
  hm.draw fun r _ => hK r

theorem choose {c : Prop} [Decidable c] {m m' : Parse α} (yes : Composes T Q m)
    (no : Composes T Q m') : Composes T Q (if c then m else m') := by
  split
  · exact yes
  · exact no

/-- A program that asks first, and goes on by what it is told. -/
theorem test {m : Parse Bool} {K : Bool → Parse β} (hm : Composes T Anything m)
    (yes : Composes T R (K true)) (no : Composes T R (K false)) : Composes T R (m >>= K) :=
  .bind hm fun b => by cases b <;> assumption

/-! ### Looking around -/

/-- What the setting and the session say. -/
theorem ask {f : Setting → Session → α} : Composes T Anything (fun σ s => some (f σ s, s)) := by
  refine ⟨fun hs hrun => ?_⟩
  obtain ⟨rfl, rfl⟩ := Prod.mk.inj (Option.some.inj hrun)
  exact ⟨hs, .refl _, trivial⟩

theorem look {K : Session → Parse α} (h : ∀ s, Composes T Q (K s)) : Composes T Q (get >>= K) :=
  .bind (ask (f := fun _ s => s)) h

theorem setting {K : Setting → Parse α} (h : ∀ σ, Composes T Q (K σ)) : Composes T Q (read >>= K) :=
  .bind (ask (f := fun σ _ => σ)) h

theorem kind {K : Kind → Parse α} (h : ∀ c, Composes T Q (K c)) :
    Composes T Q (Parse.kind >>= K) :=
  .bind (ask (f := fun _ s => s.kind)) h

theorem isAt {c : Kind} {K : Bool → Parse α} (yes : Composes T Q (K true))
    (no : Composes T Q (K false)) : Composes T Q (Parse.isAt c >>= K) :=
  .test (ask (f := fun _ s => s.isAt c)) yes no

theorem ahead {n : Nat} {K : Kind → Parse β} (hK : ∀ c, Composes T R (K c)) :
    Composes T R (Parse.ahead n >>= K) :=
  .bind (ask (f := fun _ s => s.ahead n)) hK

theorem tokenRange {K : Range → Parse β} (hK : ∀ r, Composes T R (K r)) :
    Composes T R (Parse.tokenRange >>= K) :=
  .bind (ask (f := fun _ s => s.scanner.token.range)) hK

theorem restriction {K : Restriction → Parse β} (hK : ∀ r, Composes T R (K r)) :
    Composes T R (Parse.restriction >>= K) :=
  .bind (ask (f := fun σ _ => σ.restriction)) hK

theorem offset : Composes T Anything Parse.offset := ask (f := fun _ s => s.offset)

theorem textAhead {n : Nat} : Composes T Anything (Parse.textAhead n) :=
  ask (f := fun σ s => (s.scannerAhead n).tokenText σ.source)

theorem tokenText : Composes T Anything Parse.tokenText := textAhead

theorem isAtAny {cs : List Kind} : Composes T Anything (Parse.isAtAny cs) :=
  ask (f := fun _ s => s.isAtAny cs)

theorem isFaulty : Composes T Anything Parse.isFaulty :=
  ask (f := fun _ s => !s.scanner.token.faults.isEmpty)

theorem isAtMacro : Composes T Anything Parse.isAtMacro :=
  ask (f := fun σ s => s.kind.startsPath && s.scanner.isAtMacro σ.turns)

theorem isAtExpression : Composes T Anything Parse.isAtExpression :=
  ask (f := fun σ s => s.kind.startsExpression σ.restriction)

theorem options : Composes T Anything Parse.options := ask (f := fun σ _ => σ.options)

theorem isAtWord {word : String} : Composes T Anything (Parse.isAtWord word) :=
  .isAt (.bind .tokenText fun _ => .pure _) (.pure _)

theorem foundText : Composes T Anything Parse.foundText := .isAt (.pure _) .tokenText

theorem isAtItem : Composes T Anything Parse.isAtItem := by
  refine .look fun s => ?_
  split
  all_goals first | exact .pure _ | exact .bind .tokenText fun _ => .pure _

/-- The place does not matter. -/
theorem restricted {restriction : Restriction} (h : Composes T Q m) :
    Composes T Q (Parse.restricted restriction m) :=
  ⟨fun {σ _ _ _} hs hrun => h.follow (σ := { σ with restriction }) hs hrun⟩

theorem unrestricted (h : Composes T Q m) : Composes T Q (Parse.unrestricted m) := .restricted h

/-! ### Remarks and reports -/

/-- A step that leaves the scanner and the draft alone. -/
theorem tell {f : Setting → Session → Session} (hscanner : ∀ σ s, (f σ s).scanner = s.scanner)
    (hdraft : ∀ σ s, (f σ s).draft = s.draft) :
    Composes T Anything (fun σ s => some ((), f σ s)) := by
  refine ⟨fun {σ s _ _} hs hrun => ?_⟩
  obtain ⟨rfl, rfl⟩ := Prod.mk.inj (Option.some.inj hrun)
  refine ⟨?_, hdraft σ s ▸ .refl _, trivial⟩
  rw [Session.Legible, hscanner]
  exact hs

theorem note {remark : Remark} : Composes T Anything (Parse.note remark) :=
  tell (f := fun _ s => { s with remarks := s.remarks.push remark }) (fun _ _ => rfl) fun _ _ => rfl

theorem settle {ambiguity : Ambiguity} {chosen : Kind} :
    Composes T Anything (Parse.settle ambiguity chosen) :=
  .bind .offset fun _ => .note

theorem openBraces (change : Nat → Nat) : Composes T Anything
    (modify fun s => { s with openBraces := change s.openBraces } : Parse Unit) :=
  tell (f := fun _ s => { s with openBraces := change s.openBraces }) (fun _ _ => rfl)
    fun _ _ => rfl

theorem reportAt {range : Range} {message : Message} {arguments : List String} :
    Composes T Anything (Parse.reportAt range message arguments) :=
  tell (f := fun σ s =>
      { s with report := s.report.add (.located σ.file range message arguments) })
    (fun _ _ => rfl) fun _ _ => rfl

theorem reportHere {message : Message} {arguments : List String} :
    Composes T Anything (Parse.reportHere message arguments) :=
  .tokenRange fun _ => .reportAt

theorem reportExpected {what : String} : Composes T Anything (Parse.reportExpected what) :=
  .test .isFaulty (.pure _) (.bind .foundText fun _ => .reportHere)

theorem reportUnexpected : Composes T Anything Parse.reportUnexpected :=
  .test .isFaulty (.pure _) (.bind .tokenText fun _ => .reportHere)

theorem reportLimit : Composes T Anything Parse.reportLimit :=
  .bind .options fun _ => .bind .reportHere fun _ => .bind .offset fun _ => .note

/-! ### The open draft -/

/-- A change of the draft. -/
theorem change {f : Draft → Draft} (h : ∀ d, T.Fills d (f d)) :
    Composes T Anything (modifyDraft f) := by
  refine ⟨fun {_ s _ _} hs hrun => ?_⟩
  obtain ⟨rfl, rfl⟩ := Prod.mk.inj (Option.some.inj hrun)
  exact ⟨hs, h s.draft, trivial⟩

/-- A node under a label under which the mould admits any. -/
theorem pushChild {label : Option Field} {n : Node} (h : n.Rereadable)
    (hl : T.admits label = true) : Composes T Anything (modifyDraft (·.pushChild label n)) :=
  change fun _ => .pushChild h (Mould.takes_of_admits hl n)

theorem push {n : Node} (h : n.Rereadable) : Composes .plain Anything (Parse.push n) :=
  .pushChild h rfl

theorem pushField {label : Field} {n : Node} (h : n.Rereadable) :
    Composes .plain Anything (Parse.pushField label n) :=
  .pushChild h rfl

/-- A plain node may be added to any draft. -/
theorem pushPlain {label : Option Field} {n : Node} (h : n.Plain) :
    Composes T Anything (modifyDraft (·.pushChild label n)) :=
  change fun _ => .pushChild h.rereadable (.of_plain h label)

theorem setKind {kind : Kind} (hk : kind.isRejoined = false) :
    Composes .plain Anything (Parse.setKind kind) :=
  change fun _ => .setKind hk

theorem failDraft : Composes .plain Anything Parse.failDraft := change .fail

/-! ### Nodes -/

variable {T' : Mould} {d : Draft} {body : Parse Unit}

/-- A draft that is filled beside the open one. -/
theorem collectIn {S : Draft → Prop} (h : Composes T' Anything body)
    (hS : ∀ d', T'.Fills d d' → S d') : Composes T S (Parse.collect d body) := by
  refine ⟨fun {_ s _ _} hs hrun => ?_⟩
  obtain ⟨t, hbody, rfl, rfl⟩ := collect_eq_some.1 hrun
  obtain ⟨hlegible, hfills, -⟩ := h.follow (s := s.withDraft d) hs hbody
  exact ⟨hlegible, .refl _, hS _ hfills⟩

theorem collect (hd : d.Fits T') (h : Composes T' Anything body) :
    Composes T (Draft.Fits T') (Parse.collect d body) :=
  collectIn h fun _ hf => hf.fits hd

theorem finish (hd : d.Fits T') (hparts : T' ≠ .plain → d.children.toList ≠ []) :
    Composes T Node.Rereadable (Parse.finish d) := by
  refine ⟨fun hs hrun => ?_⟩
  obtain ⟨rfl, rfl⟩ := Prod.mk.inj (Option.some.inj hrun)
  exact ⟨hs, .refl _, hd.mould.rereadable hd.rereadable hparts _⟩

theorem resume (hd : d.Fits .plain) (h : Composes .plain Anything body) :
    Composes T Node.Rereadable (Parse.resume d body) :=
  .draw (.collect hd h) fun _ hd => .finish hd fun hT => absurd rfl hT

/-- A node of a kind that is not rebuilt. -/
theorem node {kind : Kind} (hk : kind.isRejoined = false) (h : Composes .plain Anything body) :
    Composes T Node.Rereadable (Parse.node kind body) :=
  .resume (Draft.fits_plain hk) h

/-- A path is finished with its last name. -/
theorem finishPath {label : Field} {body : Parse Node} (hd : d.Fits .path)
    (h : Composes .path Node.Rereadable body) :
    Composes T Node.Rereadable (Parse.resume d (Parse.field label body)) := by
  have hcollect : Composes T (fun d' => d'.Fits .path ∧ d'.children.toList ≠ [])
      (Parse.collect d (Parse.field label body)) := by
    refine ⟨fun {σ s _ _} hs hrun => ?_⟩
    obtain ⟨t, hbody, rfl, rfl⟩ := collect_eq_some.1 hrun
    obtain ⟨n, t', hname, hpush⟩ := bind_eq_some.1 hbody
    obtain ⟨-, rfl⟩ := Prod.mk.inj (Option.some.inj hpush)
    obtain ⟨hlegible, hfills, hn⟩ := h.follow (s := s.withDraft d) hs hname
    have hpushed : Mould.path.Fills t'.draft (t'.draft.pushChild (some label) n) :=
      .pushChild hn (Mould.takes_path _ _)
    refine ⟨hlegible, .refl _, (hfills.trans hpushed).fits hd, ?_⟩
    simp [Draft.pushField, Draft.pushChild]
  exact .draw hcollect fun _ hd => .finish hd.1 fun _ => hd.2

/-- A node that begins with a part of it. -/
theorem nodeOver {kind : Kind} {label : Field} {n : Node} {K : Unit → Parse Unit}
    (hT : T'.Holds (.ofKind kind)) (hn : n.Rereadable) (hl : T'.admits (some label) = true)
    (h : Composes T' Anything (K ())) :
    Composes T Node.Rereadable (Parse.node kind (Parse.pushField label n >>= K)) := by
  have hcollect : Composes T (fun d => d.Fits T' ∧ d.children.toList ≠ [])
      (Parse.collect (.ofKind kind) (Parse.pushField label n >>= K)) := by
    refine ⟨fun {σ s _ _} hs hrun => ?_⟩
    obtain ⟨t, hbody, rfl, rfl⟩ := collect_eq_some.1 hrun
    obtain ⟨_, t', hpush, hrest⟩ := bind_eq_some.1 hbody
    obtain ⟨-, rfl⟩ := Prod.mk.inj (Option.some.inj hpush)
    obtain ⟨hlegible, hfills, -⟩ :=
      h.follow (s := s.withDraft ((Draft.ofKind kind).pushChild (some label) n)) hs hrest
    have hpushed : T'.Fills (.ofKind kind) ((Draft.ofKind kind).pushChild (some label) n) :=
      .pushChild hn (Mould.takes_of_admits hl n)
    refine ⟨hlegible, .refl _, (hpushed.trans hfills).fits (Draft.fits_ofKind hT),
      hfills.parts ?_⟩
    show ((Draft.ofKind kind).pushChild (some label) n).children.toList ≠ []
    simp [Draft.pushChild]
  exact .draw hcollect fun _ hd => .finish hd.1 fun _ => hd.2

/-- A part under a label under which the mould admits any. -/
theorem part {label : Field} {body : Parse Node} (hl : T.admits (some label) = true)
    (h : Composes T Node.Rereadable body) : Composes T Anything (Parse.field label body) :=
  .draw h fun _ hn => .pushChild hn hl

theorem field {label : Field} {body : Parse Node} (h : Composes .plain Node.Rereadable body) :
    Composes .plain Anything (Parse.field label body) :=
  .part rfl h

theorem child {body : Parse Node} (h : Composes .plain Node.Rereadable body) :
    Composes .plain Anything (Parse.child body) :=
  .draw h fun _ hn => .push hn

/-! ### Loops -/

theorem outOfTurns : Composes T Q (outOfTurns : Parse α) := by
  refine ⟨fun _ h => ?_⟩
  cases h

section Loops

variable {S : ρ → Prop} {turn : α → Parse (Step α ρ)}

theorem iterate (h : ∀ x, P x → Composes T (Step.Ends P S) (turn x)) (n : Nat) :
    ∀ x, P x → Composes T S (Parse.iterate turn n x) := by
  induction n with
  | zero => exact fun _ _ => .outOfTurns
  | succ n ih =>
    intro x hx
    refine ⟨fun hs hrun => ?_⟩
    rcases iterate_succ hrun with hturn | ⟨y, t, hturn, hrest⟩
    · obtain ⟨hlegible, hfills, hr⟩ := (h x hx).follow hs hturn
      exact ⟨hlegible, hfills, hr⟩
    · obtain ⟨hlegible, hfills, hy⟩ := (h x hx).follow hs hturn
      obtain ⟨hlegible', hfills', hr⟩ := (ih y hy).follow hlegible hrest
      exact ⟨hlegible', hfills.trans hfills', hr⟩

theorem loop (h : ∀ x, P x → Composes T (Step.Ends P S) (turn x)) {x : α} (hx : P x) :
    Composes T S (Parse.loop turn x) :=
  .setting fun σ => iterate h σ.turns x hx

end Loops

theorem repeatWhile {turn : Parse Bool} (h : Composes T Anything turn) :
    Composes T Anything (Parse.repeatWhile turn) :=
  .loop (P := Anything) (fun _ _ => .test h (.give trivial) (.give trivial)) trivial

/-! ### Speculation -/

theorem speculate {ambiguity : Ambiguity} {preferred : Parse (Option α)}
    (h : Composes T (IfAny Q) preferred) :
    Composes T (IfAny Q) (Parse.speculate ambiguity preferred) := by
  refine ⟨fun hs hrun => ?_⟩
  rcases speculate_outcome hrun with ⟨rfl, rfl⟩ | ⟨o, t, htried, hend⟩
  · exact ⟨hs, .refl _, ifAny_none⟩
  · obtain ⟨hlegible, hfills, ho⟩ := h.follow hs htried
    rcases hend with ⟨v, rfl, rfl, -, he⟩ | ⟨rfl, he⟩
    · rw [he]
      exact ⟨hlegible, hfills, ho⟩
    · rw [he]
      exact ⟨hs, .refl _, ifAny_none⟩

end Composes

end Parse

end ConcreteSyntax
