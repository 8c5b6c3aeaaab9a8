import ConcreteSyntax.Grammar.Expression.Infix
import ConcreteSyntax.Grammar.Recovery
import ConcreteSyntax.Grammar.Speculation
import ConcreteSyntax.Proofs.Excerpt.Complaint
import ConcreteSyntax.Proofs.Reading.Arrival

/-! # Programs that keep step

A program tracks another one (`Parse.Tracks`) if it reads the whole as the other one reads the text:
whenever that one has an outcome, and a fair session at its end, the session was fair before, and the
program leads a session that kept step to one that still does, with the same outcome some bytes later.
The rules follow the combinators of the grammar, one for each. -/

namespace ConcreteSyntax

open Text (Place byteLength)
open Lexeme (contextual?)

namespace Parse

variable {α α' β β' : Type}

/-- The last turn of a loop. -/
theorem iterate_of_done {turn : β → Parse (Step β α)} {n : Nat} {x : β} {r : α} {σ : Setting}
    {s t : Session} (h : turn x σ s = some (.done r, t)) :
    iterate turn (n + 1) x σ s = some (r, t) :=
  bind_eq_some.2 ⟨s, s, rfl, bind_eq_some.2 ⟨_, t, h, rfl⟩⟩

/-- A turn of a loop that is not the last. -/
theorem iterate_of_again {turn : β → Parse (Step β α)} {n : Nat} {x y : β} {σ : Setting}
    {s t : Session} (hσ : σ.watches = false) (h : turn x σ s = some (.again y, t)) :
    iterate turn (n + 1) x σ s = iterate turn n y σ t := by
  have hrun : iterate turn (n + 1) x σ s =
      (if (σ.watches && decide (t.offset ≤ s.offset)) = true then outOfTurns
        else iterate turn n y) σ t := by
    show Option.bind (turn x σ s) _ = _
    rw [h]
    rfl
  rw [hrun, hσ]
  rfl

/-- The program `m'` reads the whole as `m` reads the text, from a token of the kind `a`, if one is
given, and with the outcomes of `m` changed by `φ`: where a reading of `m` ends as `Ends` says, the
session was fair before, and one that kept step with it is led to one that `Meets` the last, however
far before the reading began. -/
structure Follows (E : Excerpt) (pre : List Child) (a : Option Kind) (φ : α → α')
    (Ends : α → Session → Prop) (Meets : Nat → Session → Session → Prop) (m : Parse α)
    (m' : Parse α') : Prop where
  follow {σ σ' : Setting} {s t : Session} {r : α} : σ.Within E σ' → (∀ c, a = some c → s.kind = c) →
    m σ s = some (r, t) → Ends r t → s.Fair E ∧ ∀ {s'}, s.Alike E pre s' →
      ∃ t', m' σ' s' = some (φ r, t') ∧ ∀ before ≤ s.offset, Meets before t t'

/-- The program keeps step as long as the sessions are fair, and does not go back. -/
abbrev Tracks (E : Excerpt) (pre : List Child) (a : Option Kind) (φ : α → α') (m : Parse α)
    (m' : Parse α') : Prop :=
  Follows E pre a φ (fun _ t => t.Fair E) (fun before t t' => before ≤ t.offset ∧ t.Alike E pre t') m m'

namespace Follows

variable {E : Excerpt} {pre : List Child} {a : Option Kind} {φ : α → α'} {ψ : β → β'}
  {Ends : α → Session → Prop} {Meets : Nat → Session → Session → Prop} {m : Parse α} {m' : Parse α'}

/-- One part after another, for one outcome of the first. -/
theorem before {b : Option Kind} {Ends : β → Session → Prop} {n : Parse β} {K' : α' → Parse β'}
    (first : Tracks E pre a φ m m') {σ σ' : Setting} {s t u : Session} {x : α} {r : β}
    (rest : Follows E pre b ψ Ends Meets n (K' (φ x))) (hσ : σ.Within E σ')
    (ha : ∀ c, a = some c → s.kind = c) (hm : m σ s = some (x, u)) (hb : ∀ c, b = some c → u.kind = c)
    (hn : n σ u = some (r, t)) (he : Ends r t) :
    s.Fair E ∧ ∀ {s'}, s.Alike E pre s' → ∃ t', (m' >>= K') σ' s' = some (ψ r, t') ∧
      ∀ before ≤ s.offset, Meets before t t' := by
  obtain ⟨hu, hgo⟩ := rest.follow hσ hb hn he
  obtain ⟨hs, hstep⟩ := first.follow hσ ha hm hu
  refine ⟨hs, fun halike => ?_⟩
  obtain ⟨u', hm', hu⟩ := hstep halike
  obtain ⟨t', hK', ht⟩ := hgo (hu _ le_rfl).2
  exact ⟨t', bind_eq_some.2 ⟨_, u', hm', hK'⟩, fun before hbefore => ht _ (hu _ hbefore).1⟩

/-- One part after another, where the first may tell at which token it ends. -/
theorem bindAt {b : Option Kind} {Ends : β → Session → Prop} {K : α → Parse β} {K' : α' → Parse β'}
    (first : Tracks E pre a φ m m')
    (hb : ∀ {σ s t r}, (∀ c, a = some c → s.kind = c) → m σ s = some (r, t) →
      ∀ c, b = some c → t.kind = c)
    (rest : ∀ r, Follows E pre b ψ Ends Meets (K r) (K' (φ r))) :
    Follows E pre a ψ Ends Meets (m >>= K) (m' >>= K') := by
  refine ⟨fun {σ σ' s t r} hσ ha h he => ?_⟩
  obtain ⟨x, u, hm, hK⟩ := bind_eq_some.1 h
  exact first.before (rest x) hσ ha hm (hb ha hm) hK he

theorem bind {Ends : β → Session → Prop} {K : α → Parse β} {K' : α' → Parse β'}
    (first : Tracks E pre a φ m m')
    (rest : ∀ r, Follows E pre none ψ Ends Meets (K r) (K' (φ r))) :
    Follows E pre a ψ Ends Meets (m >>= K) (m' >>= K') :=
  bindAt (b := none) first (fun _ _ => nofun) rest

/-- A look at the session. -/
theorem look {K : Session → Parse α} {K' : Session → Parse α'} (L : Session → Parse α')
    (branch : ∀ s, (∀ c, a = some c → s.kind = c) →
      Follows E pre (some s.kind) φ Ends Meets (K s) (L s))
    (agree : ∀ {s s'}, (∀ c, a = some c → s.kind = c) → s.Fair E → s.Alike E pre s' →
      K' s' = L s) : Follows E pre a φ Ends Meets (get >>= K) (get >>= K') := by
  refine ⟨fun {σ σ' s t r} hσ ha h he => ?_⟩
  obtain ⟨hs, hgo⟩ := (branch s ha).follow hσ (fun c hc => Option.some.inj hc) h he
  refine ⟨hs, fun {s'} halike => ?_⟩
  obtain ⟨t', hL, ht⟩ := hgo halike
  exact ⟨t', (congrFun (congrFun (agree ha hs halike) σ') s').trans hL, ht⟩

theorem lookAt {K : Session → Parse α} {K' : Session → Parse α'}
    (branch : ∀ s, (∀ c, a = some c → s.kind = c) →
      Follows E pre (some s.kind) φ Ends Meets (K s) (K' s))
    (agree : ∀ {s s'}, (∀ c, a = some c → s.kind = c) → s.Fair E → s.Alike E pre s' →
      K' s' = K' s) : Follows E pre a φ Ends Meets (get >>= K) (get >>= K') :=
  look K' branch agree

/-- A look at the setting. -/
theorem ask {K : Setting → Parse α} {K' : Setting → Parse α'}
    (rest : ∀ {σ σ'}, σ.Within E σ' → Follows E pre a φ Ends Meets (K σ) (K' σ')) :
    Follows E pre a φ Ends Meets (read >>= K) (read >>= K') :=
  ⟨fun hσ => (rest hσ).follow hσ⟩

/-- The current token need not be known. -/
theorem anywhere (h : Follows E pre none φ Ends Meets m m') : Follows E pre a φ Ends Meets m m' :=
  ⟨fun hσ _ => h.follow hσ nofun⟩

/-- More may be known of the current token. -/
theorem known {c : Kind} (ha : ∀ c', a = some c' → c = c') (h : Follows E pre a φ Ends Meets m m') :
    Follows E pre (some c) φ Ends Meets m m' :=
  ⟨fun hσ hc => h.follow hσ fun c' hc' => (hc c rfl).trans (ha c' hc')⟩

/-- A part that is read in another setting. -/
theorem within {f : Setting → Setting}
    (hf : ∀ {σ σ' : Setting}, σ.Within E σ' → (f σ).Within E (f σ'))
    (inside : Follows E pre a φ Ends Meets m m') :
    Follows E pre a φ Ends Meets (withReader f m) (withReader f m') :=
  ⟨fun hσ => inside.follow (hf hσ)⟩

theorem restricted {restriction : Restriction} (inside : Follows E pre a φ Ends Meets m m') :
    Follows E pre a φ Ends Meets (Parse.restricted restriction m)
      (Parse.restricted restriction m') :=
  within (fun ⟨h₁, h₂, h₃, _, h₅, h₆, h₇, h₈⟩ => ⟨h₁, h₂, h₃, rfl, h₅, h₆, h₇, h₈⟩) inside

theorem unrestricted (inside : Follows E pre a φ Ends Meets m m') :
    Follows E pre a φ Ends Meets (Parse.unrestricted m) (Parse.unrestricted m') :=
  restricted inside

theorem kind {K : Kind → Parse α} {K' : Kind → Parse α'}
    (rest : ∀ c, (∀ c', a = some c' → c = c') →
      Follows E pre (some c) φ Ends Meets (K c) (K' c)) :
    Follows E pre a φ Ends Meets (Parse.kind >>= K) (Parse.kind >>= K') :=
  look (fun s => K' s.kind) (fun s ha => rest s.kind ha) fun _ _ halike =>
    congrArg K' halike.kind

/-- A choice that was made before. -/
theorem choose {c : Bool} {A B : Parse α} {A' B' : Parse α'}
    (yes : Follows E pre a φ Ends Meets A A') (no : Follows E pre a φ Ends Meets B B') :
    Follows E pre a φ Ends Meets (if c = true then A else B) (if c = true then A' else B') := by
  cases c
  exacts [no, yes]

/-- A look that answers yes or no. -/
theorem test {p p' : Parse Bool} {A B : Parse α} {A' B' : Parse α'} (hp : Tracks E pre a id p p')
    (yes : Follows E pre none φ Ends Meets A A') (no : Follows E pre none φ Ends Meets B B') :
    Follows E pre a φ Ends Meets (p >>= fun b => if b = true then A else B)
      (p' >>= fun b => if b = true then A' else B') :=
  bind hp fun _ => choose yes no

theorem isAt {c : Kind} {A B : Parse α} {A' B' : Parse α'}
    (yes : Follows E pre (some c) φ Ends Meets A A') (no : Follows E pre a φ Ends Meets B B') :
    Follows E pre a φ Ends Meets (Parse.isAt c >>= fun b => if b = true then A else B)
      (Parse.isAt c >>= fun b => if b = true then A' else B') := by
  show Follows E pre a φ Ends Meets (get >>= fun s => if s.isAt c = true then A else B)
    (get >>= fun s => if s.isAt c = true then A' else B')
  refine look (fun s => if s.isAt c = true then A' else B') (fun s ha => ?_) fun _ _ halike => ?_
  · by_cases hc : s.kind = c
    · rw [if_pos (show s.isAt c = true from beq_iff_eq.2 hc),
        if_pos (show s.isAt c = true from beq_iff_eq.2 hc), hc]
      exact yes
    · rw [if_neg (show ¬ s.isAt c = true from fun h => hc (beq_iff_eq.1 h)),
        if_neg (show ¬ s.isAt c = true from fun h => hc (beq_iff_eq.1 h))]
      exact no.known ha
  · simp only [halike.isAt]

/-! ### Steps -/

theorem pure (r : α) : Tracks E pre a φ (pure r) (pure (φ r)) := by
  refine ⟨fun _ _ h hf => ?_⟩
  obtain ⟨rfl, rfl⟩ := pure_eq_some.1 h
  exact ⟨hf, fun hs => ⟨_, rfl, fun _ hbefore => ⟨hbefore, hs⟩⟩⟩

theorem give {r : α} {r' : α'} (h : r' = φ r) :
    Tracks E pre a φ (Pure.pure r) (Pure.pure r') :=
  h ▸ pure r

/-- A step that changes the session and always has an outcome. It does not go back. -/
theorem step {out : Setting → Session → α × Session} {out' : Setting → Session → α' × Session}
    (hm : ∀ σ s, m σ s = some (out σ s)) (hm' : ∀ σ s, m' σ s = some (out' σ s))
    (fair : ∀ {σ s}, (∀ c, a = some c → s.kind = c) → (out σ s).2.Fair E → s.Fair E)
    (onward : ∀ {σ s}, (∀ c, a = some c → s.kind = c) → s.Sound E.text → s.offset ≤ (out σ s).2.offset)
    (alike : ∀ {σ σ' s s'}, σ.Within E σ' → (∀ c, a = some c → s.kind = c) →
      (out σ s).2.Fair E → s.Alike E pre s' →
        (out' σ' s').1 = φ (out σ s).1 ∧ (out σ s).2.Alike E pre (out' σ' s').2) :
    Tracks E pre a φ m m' := by
  refine ⟨fun {σ σ' s t r} hσ ha h hf => ?_⟩
  obtain ⟨rfl, rfl⟩ := Prod.mk.inj (Option.some.inj ((hm σ s).symm.trans h))
  refine ⟨fair ha hf, fun halike => ?_⟩
  obtain ⟨hr, ht⟩ := alike hσ ha hf halike
  exact ⟨_, (hm' σ' _).trans (congrArg some (Prod.ext hr rfl)), fun before hbefore =>
    ⟨Nat.le_trans hbefore (onward ha halike.sound), ht⟩⟩

/-! ### Looks -/

/-- Something that is read off the session. -/
theorem find {f : Setting → Session → α} {f' : Setting → Session → α'}
    (hm : ∀ σ s, m σ s = some (f σ s, s)) (hm' : ∀ σ s, m' σ s = some (f' σ s, s))
    (agree : ∀ {σ σ' s s'}, σ.Within E σ' → (∀ c, a = some c → s.kind = c) → s.Fair E →
      s.Alike E pre s' → f' σ' s' = φ (f σ s)) : Tracks E pre a φ m m' :=
  step hm hm' (fun _ => id) (fun _ _ => le_rfl) fun hσ ha hf halike => ⟨agree hσ ha hf halike, halike⟩

theorem isAtKind {c : Kind} : Tracks E pre a id (Parse.isAt c) (Parse.isAt c) :=
  find (fun _ _ => rfl) (fun _ _ => rfl) fun _ _ _ halike => halike.isAt c

theorem isAtAny {cs : List Kind} : Tracks E pre a id (Parse.isAtAny cs) (Parse.isAtAny cs) :=
  find (fun _ _ => rfl) (fun _ _ => rfl) fun _ _ _ halike => halike.isAtAny cs

theorem offset : Tracks E pre a (· + E.shift) Parse.offset Parse.offset :=
  find (fun _ _ => rfl) (fun _ _ => rfl) fun _ _ _ halike => halike.offset

theorem tokenRange : Tracks E pre a (Range.shift E.shift) Parse.tokenRange Parse.tokenRange :=
  find (fun _ _ => rfl) (fun _ _ => rfl) fun _ _ _ halike => halike.placed.token.range

theorem options : Tracks E pre a id Parse.options Parse.options :=
  find (fun _ _ => rfl) (fun _ _ => rfl) fun hσ _ _ _ => hσ.options

theorem restriction : Tracks E pre a id Parse.restriction Parse.restriction :=
  find (fun _ _ => rfl) (fun _ _ => rfl) fun hσ _ _ _ => hσ.restriction

theorem isFaulty : Tracks E pre a id Parse.isFaulty Parse.isFaulty :=
  find (f := fun _ s => !s.scanner.token.faults.isEmpty) (fun _ _ => rfl) (fun _ _ => rfl)
    fun _ _ _ halike => by simp [halike.placed.token.faults]

theorem tokenText : Tracks E pre a id Parse.tokenText Parse.tokenText :=
  find (fun _ _ => rfl) (fun _ _ => rfl) fun hσ _ _ halike => halike.tokenText hσ

theorem foundText : Tracks E pre a id Parse.foundText Parse.foundText :=
  .isAt (.pure _) .tokenText

theorem isAtWord {word : String} :
    Tracks E pre a id (Parse.isAtWord word) (Parse.isAtWord word) :=
  .isAt (.bind .tokenText fun _ => .pure _) (.pure _)

/-! ### Remarks and reports -/

theorem note {remark remark' : Remark} :
    Tracks E pre a id (Parse.note remark) (Parse.note remark') :=
  step (fun _ _ => rfl) (fun _ _ => rfl) (fun _ => id) (fun _ _ => le_rfl) fun _ _ _ halike =>
    ⟨rfl, halike.beside rfl rfl rfl rfl rfl rfl halike.report halike.located halike.openBraces
      halike.mended halike.declined halike.bound⟩

theorem settle {ambiguity : Ambiguity} {chosen : Kind} :
    Tracks E pre a id (Parse.settle ambiguity chosen) (Parse.settle ambiguity chosen) :=
  .bind .offset fun _ => .note

theorem add {d : Diagnostic} (hd : d.range.isSome = true) :
    Tracks E pre a id (Parse.add d) (Parse.add (d.shift E.shift)) := by
  refine step (fun _ _ => rfl) (fun _ _ => rfl) (fun _ hf => ?_) (fun _ _ => le_rfl)
    fun _ _ _ halike => ⟨rfl, ?_⟩
  · refine .inl (hf.resolve_right fun ⟨hempty, _⟩ => ?_)
    simp [Report.add, Report.toList] at hempty
  · refine halike.beside rfl rfl rfl rfl rfl rfl ?_ ?_ halike.openBraces halike.mended halike.declined
      halike.bound
    · have hreport := halike.report
      simp only [Report.add, Report.toList, Array.toList_push] at hreport ⊢
      rw [hreport, List.map_append, List.append_assoc]
      rfl
    · simp only [Report.add, Report.toList, Array.toList_push, List.mem_append, List.mem_singleton]
      rintro d' (hd' | rfl)
      exacts [halike.located d' hd', hd]

theorem reportAt {range : Range} {message : Message} {arguments : List String} :
    Tracks E pre a id (Parse.reportAt range message arguments)
      (Parse.reportAt (range.shift E.shift) message arguments) :=
  .ask fun hσ => by
    rw [hσ.file]
    exact .add rfl

theorem reportHere {message : Message} {arguments : List String} :
    Tracks E pre a id (Parse.reportHere message arguments) (Parse.reportHere message arguments) :=
  .bind .tokenRange fun _ => .reportAt

theorem reportExpected {what : String} :
    Tracks E pre a id (Parse.reportExpected what) (Parse.reportExpected what) :=
  .test .isFaulty (.pure _) (.bind .foundText fun _ => .reportHere)

theorem reportUnexpected : Tracks E pre a id Parse.reportUnexpected Parse.reportUnexpected :=
  .test .isFaulty (.pure _) (.bind .tokenText fun _ => .reportHere)

/-! ### Drafts -/

theorem modifyDraft {f f' : Draft → Draft}
    (hf : ∀ {d d'}, d.After E.shift pre d' → (f d).After E.shift pre (f' d')) :
    Tracks E pre a id (Parse.modifyDraft f) (Parse.modifyDraft f') :=
  step (fun _ _ => rfl) (fun _ _ => rfl) (fun _ => id) (fun _ _ => le_rfl) fun _ _ _ halike =>
    ⟨rfl, halike.withDraft (hf halike.draft)⟩

theorem pushChild {label : Option Field} {n : Node} : Tracks E pre a id
    (Parse.modifyDraft (·.pushChild label n)) (Parse.modifyDraft (·.pushChild label (n.shift E.shift))) :=
  modifyDraft fun hd => hd.pushChild label n

theorem push {n : Node} : Tracks E pre a id (Parse.push n) (Parse.push (n.shift E.shift)) :=
  pushChild

theorem pushField {label : Field} {n : Node} :
    Tracks E pre a id (Parse.pushField label n) (Parse.pushField label (n.shift E.shift)) :=
  pushChild

theorem pushAll {children : List Child} : Tracks E pre a id (Parse.pushAll children)
    (Parse.pushAll (children.map (Child.shift E.shift))) :=
  modifyDraft fun hd => hd.extend children

theorem setKind {kind : Kind} : Tracks E pre a id (Parse.setKind kind) (Parse.setKind kind) :=
  modifyDraft fun hd => hd.setKind kind

theorem inheritError {n : Node} :
    Tracks E pre a id (Parse.inheritError n) (Parse.inheritError (n.shift E.shift)) := by
  unfold Parse.inheritError
  rw [Node.shift_flags]
  exact modifyDraft fun hd => hd.addFlags _

/-- Only a draft with nothing in front becomes an error. -/
theorem failDraft : Tracks E [] a id Parse.failDraft Parse.failDraft :=
  modifyDraft fun hd => by
    rw [hd.eq_shift, ← Draft.shift_setKind, Draft.clearFields_shift]
    exact .of_shift _

/-- A draft of its own is filled with nothing in front. -/
theorem collect {d : Draft} {body body' : Parse Unit} (inside : Tracks E [] a id body body') :
    Tracks E pre a (Draft.shift E.shift) (Parse.collect d body)
      (Parse.collect (d.shift E.shift) body') := by
  refine ⟨fun {σ σ' s t r} hσ ha h hf => ?_⟩
  obtain ⟨_, _, h₁, h⟩ := bind_eq_some.1 h
  obtain ⟨rfl, rfl⟩ := Prod.mk.inj (Option.some.inj h₁)
  obtain ⟨_, _, h₁, h⟩ := bind_eq_some.1 h
  obtain ⟨rfl, rfl⟩ := Prod.mk.inj (Option.some.inj h₁)
  obtain ⟨_, u, hbody, h⟩ := bind_eq_some.1 h
  obtain ⟨rfl, rfl⟩ := Prod.mk.inj (Option.some.inj h)
  obtain ⟨hs, hgo⟩ := inside.follow (s := s.withDraft d) hσ ha hbody hf
  refine ⟨hs, fun {s'} halike => ?_⟩
  obtain ⟨u', hbody', hu⟩ := hgo (halike.withDraft (.of_shift d))
  refine ⟨u'.withDraft s'.draft, ?_, fun before hbefore =>
    ⟨(hu before hbefore).1, (hu before hbefore).2.withDraft halike.draft⟩⟩
  refine bind_eq_some.2 ⟨_, s', rfl, bind_eq_some.2 ⟨(), _, rfl, bind_eq_some.2 ⟨(), u', hbody', ?_⟩⟩⟩
  exact congrArg (fun d => some (d, u'.withDraft s'.draft)) (hu _ le_rfl).2.draft.eq_shift

theorem finish {d : Draft} : Tracks E pre a (Node.shift E.shift) (Parse.finish d)
    (Parse.finish (d.shift E.shift)) :=
  find (fun _ _ => rfl) (fun _ _ => rfl) fun _ _ _ halike => by
    rw [halike.consumedEnd, Draft.finish_shift]

theorem resume {d : Draft} {body body' : Parse Unit} (inside : Tracks E [] a id body body') :
    Tracks E pre a (Node.shift E.shift) (Parse.resume d body)
      (Parse.resume (d.shift E.shift) body') :=
  .bind (.collect inside) fun _ => .finish

theorem collectNew {kind : Kind} {body body' : Parse Unit} (inside : Tracks E [] a id body body') :
    Tracks E pre a (Draft.shift E.shift) (Parse.collect (.ofKind kind) body)
      (Parse.collect (.ofKind kind) body') := by
  have h : Tracks E pre a (Draft.shift E.shift) (Parse.collect (.ofKind kind) body)
      (Parse.collect ((Draft.ofKind kind).shift E.shift) body') := .collect inside
  rwa [Draft.shift_ofKind] at h

theorem node {kind : Kind} {body body' : Parse Unit} (inside : Tracks E [] a id body body') :
    Tracks E pre a (Node.shift E.shift) (Parse.node kind body) (Parse.node kind body') :=
  .bind (.collectNew inside) fun _ => .finish

theorem field {label : Field} {body body' : Parse Node}
    (inside : Tracks E pre a (Node.shift E.shift) body body') :
    Tracks E pre a id (Parse.field label body) (Parse.field label body') :=
  .bind inside fun _ => .pushField

theorem child {body body' : Parse Node} (inside : Tracks E pre a (Node.shift E.shift) body body') :
    Tracks E pre a id (Parse.child body) (Parse.child body') :=
  .bind inside fun _ => .push

/-! ### Tokens -/

theorem flush : Tracks E pre a id Parse.flush Parse.flush :=
  step flush_run flush_run (fun _ => Session.Fair.of_flushed) (fun _ _ => le_rfl) fun hσ _ _ halike =>
    ⟨rfl, halike.flushed hσ⟩

theorem take {as? : Option Kind} {next : Admitted}
    (hask : ∀ c, (∀ c', a = some c' → c = c') → c.Asks next) :
    Tracks E pre a (Option.map (Node.shift E.shift)) (Parse.take as? next) (Parse.take as? next) := by
  refine ⟨fun {σ σ' s t r} hσ ha h hf => ?_⟩
  rw [take_run] at h
  split at h
  · next hend =>
    obtain ⟨rfl, rfl⟩ := Prod.mk.inj (Option.some.inj h)
    refine ⟨hf, fun {s'} halike => ⟨s', ?_, fun _ hbefore => ⟨hbefore, halike⟩⟩⟩
    rw [take_run, if_pos (halike.kind.trans hend)]
    rfl
  · next hend =>
    obtain ⟨rfl, rfl⟩ := Prod.mk.inj (Option.some.inj h)
    have hask' := hask s.kind ha
    refine ⟨hf.of_taken hask' hend, fun {s'} halike => ⟨s'.taken σ' next, ?_, fun before hbefore => ?_⟩⟩
    · rw [take_run, if_neg (by rwa [halike.kind]), halike.placed.token.ofToken]
      rfl
    · have hlt := halike.sound.taken_lt σ hask'.reads.1 hend
      exact ⟨Nat.le_trans hbefore (Nat.le_of_lt hlt), halike.taken hσ hask' hf⟩

theorem takeUsual {as? : Option Kind} :
    Tracks E pre a (Option.map (Node.shift E.shift)) (Parse.take as?) (Parse.take as?) :=
  take fun _ _ => .inl rfl

theorem consumeWith {label : Option Field} {as? : Option Kind} {next : Admitted}
    (hask : ∀ c, (∀ c', a = some c' → c = c') → c.Asks next) :
    Tracks E pre a id (Parse.consumeWith label as? next) (Parse.consumeWith label as? next) :=
  .bind (.take hask) fun r => by
    cases r with
    | some n => exact .pushChild
    | none => exact .pure _

theorem consume : Tracks E pre a id Parse.consume Parse.consume := consumeWith fun _ _ => .inl rfl

theorem consumeField {label : Field} :
    Tracks E pre a id (Parse.consumeField label) (Parse.consumeField label) :=
  consumeWith fun _ _ => .inl rfl

theorem consumeAs {kind : Kind} : Tracks E pre a id (Parse.consumeAs kind) (Parse.consumeAs kind) :=
  consumeWith fun _ _ => .inl rfl

theorem consumeFieldAs {label : Field} {kind : Kind} :
    Tracks E pre a id (Parse.consumeFieldAs label kind) (Parse.consumeFieldAs label kind) :=
  consumeWith fun _ _ => .inl rfl

theorem missing {kind : Kind} :
    Tracks E pre a (Node.shift E.shift) (Parse.missing kind) (Parse.missing kind) :=
  find (fun _ _ => rfl) (fun _ _ => rfl) fun _ _ _ halike => by
    rw [halike.consumedEnd]
    rfl

theorem pushMissing {kind : Kind} :
    Tracks E pre a id (Parse.pushMissing kind) (Parse.pushMissing kind) :=
  .bind .missing fun _ => .push

theorem pushMissingField {label : Field} {kind : Kind} :
    Tracks E pre a id (Parse.pushMissingField label kind) (Parse.pushMissingField label kind) :=
  .bind .missing fun _ => .pushField

theorem leaf {as? : Option Kind} :
    Tracks E pre a (Node.shift E.shift) (Parse.leaf as?) (Parse.leaf as?) :=
  .bind .takeUsual fun r => by
    cases r with
    | some n => exact .pure _
    | none => exact .missing

theorem split {c first : Kind} (hsplit : Scanner.SplitsInto c first) :
    Tracks E pre (some c) id (Parse.split first) (Parse.split first) := by
  refine step (fun _ _ => rfl) (fun _ _ => rfl) (fun {σ s} ha hf => ?_) (fun ha hs => ?_)
    fun {σ σ' s s'} _ ha _ halike => ⟨rfl, ?_⟩
  · obtain rfl := ha c rfl
    exact hf.of_reaches id (.split hsplit)
  · obtain rfl := ha c rfl
    exact (Session.Onward.of_reshaped hs (Scanner.split_reshaped hs.scanner hsplit).1).le
  · obtain rfl := ha c rfl
    have hs := halike.sound.scanner
    refine halike.reshaped (Scanner.split_reshaped hs hsplit).1 (halike.placed.split hs hsplit)
      fun hquote => ?_
    rw [hquote] at hsplit
    exact absurd hsplit (by simp [Scanner.SplitsInto])

theorem operatorKind : Tracks E pre a id Parse.operatorKind Parse.operatorKind := by
  refine step (fun _ _ => rfl) (fun _ _ => rfl) (fun {σ s} ha hf => ?_) (fun ha hs => ?_)
    fun {σ σ' s s'} _ ha _ halike => ?_
  · exact hf.of_reaches id .join
  · exact (Session.Onward.of_reshaped hs (Scanner.joinGreater_reshaped hs.scanner)).le
  · have hs := halike.sound.scanner
    have hplaced := halike.placed.joinGreater hs
    refine ⟨hplaced.kind, halike.reshaped (Scanner.joinGreater_reshaped hs) hplaced fun hquote => ?_⟩
    refine Scanner.joinGreater_eq_self ?_
    rw [show s.scanner.kind = .quote from hquote]
    nofun

/-! ### Parts that may be left out -/

theorem provided {c : Bool} {body body' : Parse Unit} (yes : Tracks E pre a id body body') :
    Tracks E pre a id (Parse.provided c body) (Parse.provided c body') := by
  cases c with
  | true => exact yes
  | false => exact .pure _

theorem providedThat {p p' : Parse Bool} {body body' : Parse Unit} (hp : Tracks E pre a id p p')
    (yes : Tracks E pre none id body body') :
    Tracks E pre a id (p >>= fun b => Parse.provided b body)
      (p' >>= fun b => Parse.provided b body') :=
  .bind hp fun _ => .provided yes

theorem ifAt {c : Kind} {body body' : Parse Unit} (yes : Tracks E pre (some c) id body body') :
    Tracks E pre a id (Parse.ifAt c body) (Parse.ifAt c body') :=
  .isAt yes (.pure _)

theorem consumeIf {c : Kind} : Tracks E pre a id (Parse.consumeIf c) (Parse.consumeIf c) :=
  .ifAt .consume

theorem accept {c : Kind} : Tracks E pre a id (Parse.accept c) (Parse.accept c) :=
  .isAt (.bind .consume fun _ => .pure _) (.pure _)

theorem expect {c : Kind} : Tracks E pre a id (Parse.expect c) (Parse.expect c) :=
  .isAt .consume (.bind .reportHere fun _ => .pushMissing)

theorem expectName {label : Field} {kind : Kind} :
    Tracks E pre a id (Parse.expectName label kind) (Parse.expectName label kind) := by
  refine .kind fun c _ => ?_
  split
  · exact .consumeFieldAs
  · exact .consumeField
  · exact .bind .reportExpected fun _ => .pushMissingField

theorem markOrName {mark : Kind} {label : Field} :
    Tracks E pre a id (Parse.markOrName mark label) (Parse.markOrName mark label) :=
  .isAt .consumeField .expectName

/-! ### Loops -/

/-- What a turn ends with, its parts changed. -/
def mapStep (χ : β → β') (φ : α → α') : Step β α → Step β' α'
  | .again state => .again (χ state)
  | .done result => .done (φ result)

theorem mapStep_id (r : Step β α) : mapStep id id r = r := by cases r <;> rfl

/-- A loop whose last turn ends in a way of its own. -/
theorem iterateTo {turn : β → Parse (Step β α)} {turn' : β' → Parse (Step β' α')} {χ : β → β'}
    (hturn : ∀ {a} x, Tracks E pre a (mapStep χ φ) (turn x) (turn' (χ x)))
    (hlast : ∀ {a} x, Follows E pre a (mapStep χ φ) (fun step t => ∃ r, step = .done r ∧ Ends r t) Meets
      (turn x) (turn' (χ x))) (n : Nat) :
    ∀ {n' a} (_ : n ≤ n') (x : β), Follows E pre a φ Ends Meets (Parse.iterate turn n x)
      (Parse.iterate turn' n' (χ x)) := by
  induction n with
  | zero => exact fun _ _ => ⟨fun _ _ h => nomatch h⟩
  | succ n ih =>
    intro n' a hn x
    obtain ⟨n', rfl⟩ : ∃ m, n' = m + 1 := ⟨n' - 1, by omega⟩
    refine ⟨fun {σ σ' s t r} hσ ha h he => ?_⟩
    rcases iterate_succ h with hdone | ⟨y, u, hagain, hrest⟩
    · obtain ⟨hs, hgo⟩ := (hlast x).follow hσ ha hdone ⟨r, rfl, he⟩
      refine ⟨hs, fun halike => ?_⟩
      obtain ⟨t', hdone', ht⟩ := hgo halike
      exact ⟨t', iterate_of_done hdone', ht⟩
    · obtain ⟨hu, hrest⟩ := (ih (Nat.le_of_succ_le_succ hn) y).follow (a := none) hσ nofun hrest he
      obtain ⟨hs, hgo⟩ := (hturn x).follow hσ ha hagain hu
      refine ⟨hs, fun halike => ?_⟩
      obtain ⟨u', hagain', hu⟩ := hgo halike
      obtain ⟨t', hrest', ht⟩ := hrest (hu _ le_rfl).2
      exact ⟨t', (iterate_of_again hσ.unwatched.2 hagain').trans hrest', fun before hbefore =>
        ht _ (hu _ hbefore).1⟩

/-- Another end of the same reading. -/
theorem ending {Ends' : α → Session → Prop} (h : Follows E pre a φ Ends Meets m m')
    (hends : ∀ {r t}, Ends' r t → Ends r t) : Follows E pre a φ Ends' Meets m m' :=
  ⟨fun hσ ha hm he => h.follow hσ ha hm (hends he)⟩

/-- A program that never ends like this. -/
theorem never (h : ∀ {σ s r t}, m σ s = some (r, t) → ¬ Ends r t) :
    Follows E pre a φ Ends Meets m m' :=
  ⟨fun _ _ hm he => absurd he (h hm)⟩

theorem loopTo {turn : β → Parse (Step β α)} {turn' : β' → Parse (Step β' α')} (χ : β → β') {x : β}
    (hturn : ∀ {a} x, Tracks E pre a (mapStep χ φ) (turn x) (turn' (χ x)))
    (hlast : ∀ {a} x, Follows E pre a (mapStep χ φ) (fun step t => ∃ r, step = .done r ∧ Ends r t) Meets
      (turn x) (turn' (χ x))) :
    Follows E pre a φ Ends Meets (Parse.loop turn x) (Parse.loop turn' (χ x)) :=
  .ask fun hσ => iterateTo hturn hlast _ hσ.turns_le x

theorem loop {turn : β → Parse (Step β α)} {turn' : β' → Parse (Step β' α')} (χ : β → β') {x : β}
    (hturn : ∀ {a} x, Tracks E pre a (mapStep χ φ) (turn x) (turn' (χ x))) :
    Tracks E pre a φ (Parse.loop turn x) (Parse.loop turn' (χ x)) :=
  loopTo χ hturn fun x => (hturn x).ending fun ⟨_, _, hf⟩ => hf

theorem repeatWhile {turn turn' : Parse Bool} (hturn : ∀ {a}, Tracks E pre a id turn turn') :
    Tracks E pre a id (Parse.repeatWhile turn) (Parse.repeatWhile turn') :=
  loop id fun _ => .bind hturn fun b => by cases b <;> exact .pure _

/-! ### Nesting -/

theorem skipNext {nesting : Nat} : Tracks E pre a (mapStep id id) (Parse.skipNext nesting)
    (Parse.skipNext nesting) := by
  refine .kind fun c _ => ?_
  split
  · exact .pure _
  · exact .bind .consume fun _ => .give (mapStep_id _).symm

theorem skipGroup :
    Tracks E pre a (Node.shift E.shift) Parse.skipGroup Parse.skipGroup := by
  refine .node <| .kind fun c _ => ?_
  split
  · exact .pure _
  · exact .loop id fun _ => .skipNext

theorem skipNested :
    Tracks E pre a (Node.shift E.shift) Parse.skipNested Parse.skipNested :=
  .bind (.bind .options fun _ => .bind .reportHere fun _ => .bind .offset fun _ => .note)
    fun _ => .skipGroup

theorem guarded {body body' : Parse Node} (inside : Tracks E pre a (Node.shift E.shift) body body') :
    Tracks E pre a (Node.shift E.shift) (Parse.guarded body) (Parse.guarded body') := by
  refine .ask fun hσ => ?_
  rw [hσ.depth, hσ.options]
  split
  · refine within (fun h => ?_) inside
    exact ⟨h.file, h.options, by rw [h.depth], h.restriction, h.remembers, h.unwatched, h.source,
      h.source'⟩
  · exact .skipNested

/-! ### Speculation -/

theorem speculate_run {ambiguity : Ambiguity} {p : Parse (Option α)} (σ : Setting) (s : Session) :
    Parse.speculate ambiguity p σ s =
      if (σ.remembers && s.declined.contains (s.offset, ambiguity)) = true then some (none, s)
      else (p σ s).bind fun (v, t) =>
        if v.isSome = true ∧ t.report.size = s.report.size then
          some (v, { t with remarks := t.remarks.push (.preferred ambiguity s.offset) })
        else some (none, s.rewound t ambiguity) := by
  unfold Parse.speculate
  show (if (σ.remembers && s.declined.contains (s.offset, ambiguity)) = true then Pure.pure none
    else _ : Parse (Option α)) σ s = _
  split
  · rfl
  · show Option.bind (p σ s) _ = _
    refine Option.bind_congr fun r _ => ?_
    obtain ⟨v, t⟩ := r
    cases v with
    | none => rfl
    | some value =>
      show (if (t.report.size == s.report.size) = true then _ else _ : Parse (Option α)) σ t = _
      by_cases hsize : t.report.size = s.report.size
      · rw [if_pos (beq_iff_eq.2 hsize)]
        exact (if_pos ⟨rfl, hsize⟩).symm
      · rw [if_neg (mt beq_iff_eq.1 hsize)]
        exact (if_neg fun h => hsize h.2).symm

/-- A speculative reading, where the other reading always reports something. -/
theorem speculate {ambiguity : Ambiguity} {p : Parse (Option α)} {p' : Parse (Option α')}
    {K : Option α → Parse β} {K' : Option α' → Parse β'}
    (preferred : Tracks E pre a (Option.map φ) p p')
    (yes : ∀ v, Tracks E pre none ψ (K (some v)) (K' (some (φ v))))
    (no : Tracks E pre none ψ (K none) (K' none))
    (reports : ∀ {σ s r t}, K none σ s = some (r, t) → t.report.toList ≠ []) :
    Tracks E pre a ψ (Parse.speculate ambiguity p >>= K) (Parse.speculate ambiguity p' >>= K') := by
  refine ⟨fun {σ σ' s t r} hσ ha h hf => ?_⟩
  obtain ⟨x, u, hspeculate, hK⟩ := bind_eq_some.1 h
  have hknown {s'} (halike : s.Alike E pre s') :
      (σ'.remembers && s'.declined.contains (s'.offset, ambiguity)) =
        (σ.remembers && s.declined.contains (s.offset, ambiguity)) := by
    rw [hσ.remembers, Bool.eq_iff_iff]
    simp only [Bool.and_eq_true, List.contains_iff_mem, halike.offset, halike.declined]
  rw [speculate_run] at hspeculate
  split at hspeculate
  · next hdeclined =>
    obtain ⟨rfl, rfl⟩ := Prod.mk.inj (Option.some.inj hspeculate)
    obtain ⟨hs, hgo⟩ := no.follow hσ nofun hK hf
    refine ⟨hs, fun halike => ?_⟩
    obtain ⟨t', hK', ht⟩ := hgo halike
    exact ⟨t', bind_eq_some.2 ⟨none, _, by rw [speculate_run, if_pos (by rwa [hknown halike])], hK'⟩, ht⟩
  · next hdeclined =>
    obtain ⟨⟨v, w⟩, hp, hspeculate⟩ := Option.bind_eq_some_iff.1 hspeculate
    dsimp only at hspeculate
    split at hspeculate
    · next hpreferred =>
      obtain ⟨rfl, rfl⟩ := Prod.mk.inj (Option.some.inj hspeculate)
      obtain ⟨value, rfl⟩ := Option.isSome_iff_exists.1 hpreferred.1
      obtain ⟨hu, hrest⟩ := (yes value).follow hσ nofun hK hf
      obtain ⟨hs, hgo⟩ := preferred.follow hσ ha hp hu
      refine ⟨hs, fun {s'} halike => ?_⟩
      obtain ⟨w', hp', hmeets⟩ := hgo halike
      have hw := (hmeets _ le_rfl).2
      let u' : Session := { w' with remarks := w'.remarks.push (.preferred ambiguity s'.offset) }
      have hu' : Session.Alike E pre
          { w with remarks := w.remarks.push (.preferred ambiguity s.offset) } u' :=
        hw.beside rfl rfl rfl rfl rfl rfl hw.report hw.located hw.openBraces hw.mended hw.declined
          hw.bound
      obtain ⟨t', hK', ht⟩ := hrest hu'
      refine ⟨t', bind_eq_some.2 ⟨_, _, ?_, hK'⟩, fun before hbefore => ht _ (hmeets _ hbefore).1⟩
      rw [speculate_run, if_neg (by rwa [hknown halike]), hp']
      exact if_pos ⟨rfl, by rw [hw.size, halike.size, hpreferred.2]⟩
    · next hpreferred =>
      obtain ⟨rfl, rfl⟩ := Prod.mk.inj (Option.some.inj hspeculate)
      -- the other reading reports something, so nothing stands behind the text
      have htail : E.tail = [] := hf.resolve_right fun h => reports hK h.1
      obtain ⟨-, hgo⟩ := preferred.follow hσ ha hp (.inl htail)
      obtain ⟨-, hrest⟩ := no.follow hσ nofun hK hf
      refine ⟨.inl htail, fun {s'} halike => ?_⟩
      obtain ⟨w', hp', hmeets⟩ := hgo halike
      have hw := (hmeets _ le_rfl).2
      obtain ⟨t', hK', ht⟩ := hrest (halike.rewound hw)
      refine ⟨t', bind_eq_some.2 ⟨none, _, ?_, hK'⟩, ht⟩
      rw [speculate_run, if_neg (by rwa [hknown halike]), hp']
      refine if_neg fun h => hpreferred ⟨?_, ?_⟩
      · rw [← h.1, Option.isSome_map]
      · have hsize := h.2
        rw [hw.size, halike.size] at hsize
        omega

/-! ### Recovery -/

theorem countBrace (htail : E.tail = []) {c : Kind} :
    Tracks E pre a id (Parse.countBrace c) (Parse.countBrace c) := by
  unfold Parse.countBrace
  split
  · exact step (fun _ _ => rfl) (fun _ _ => rfl) (fun _ => id) (fun _ _ => le_rfl) fun _ _ _ halike =>
      ⟨rfl, halike.beside rfl rfl rfl rfl rfl rfl halike.report halike.located
        (congrArg (· + 1) halike.openBraces) (.inl htail) halike.declined halike.bound⟩
  · exact .pure _

theorem closeBrace : Tracks E pre a id
    (modify fun s => { s with openBraces := s.openBraces - 1 } : Parse Unit)
    (modify fun s => { s with openBraces := s.openBraces - 1 } : Parse Unit) :=
  step (fun _ _ => rfl) (fun _ _ => rfl) (fun _ => id) (fun _ _ => le_rfl) fun _ _ _ halike =>
    ⟨rfl, halike.beside rfl rfl rfl rfl rfl rfl halike.report halike.located
      (congrArg (· - 1) halike.openBraces) (halike.mended.imp_right (congrArg (· - 1)))
      halike.declined halike.bound⟩

theorem absorbBrace : Tracks E pre a id Parse.absorbBrace Parse.absorbBrace := by
  refine look (fun s => if (s.openBraces > 0 && s.isAt .closeBrace) = true then do
      modify fun s => { s with openBraces := s.openBraces - 1 }
      Parse.note (.absorbedBrace (s.offset + E.shift))
      Parse.consume
      return true
    else return false) (fun s _ => ?_) fun _ _ halike => ?_
  · split
    · exact .bind .closeBrace fun _ => .bind .note fun _ => .bind .consume fun _ => .pure _
    · exact .pure _
  · simp only [halike.openBraces, halike.isAt, halike.offset]

theorem skipUntil (htail : E.tail = []) {c : Kind} :
    Tracks E pre a id (Parse.skipUntil c) (Parse.skipUntil c) := by
  refine .kind fun c _ => ?_
  split
  · exact .pure _
  · exact .bind (.countBrace htail) fun _ => .bind .consume fun _ => .pure _

/-- What follows a complaint. Where something stands behind the text and nothing is reported in the
end, nothing was skipped: the program did as `L`, which skips nothing. -/
theorem afterComplaint {K : Unit → Parse α} {K' : Unit → Parse α'} {L : Parse α} {L' : Parse α'}
    (stops : Kind → Bool) (free : E.tail = [] → Tracks E pre none φ (K ()) (K' ()))
    (still : Tracks E pre none φ L L')
    (hstop : ∀ {σ s}, stops s.kind = true → K () σ s = L σ s)
    (hstop' : ∀ {σ s}, stops s.kind = true → K' () σ s = L' σ s)
    (hreports : ∀ {σ s t r}, stops s.kind = false →
      (s.report.toList ≠ [] ∨ s.scanner.token.faults ≠ []) → K () σ s = some (r, t) →
      t.report.toList ≠ []) :
    Tracks E pre a φ (Parse.reportUnexpected >>= K) (Parse.reportUnexpected >>= K') := by
  by_cases htail : E.tail = []
  · exact .bind .reportUnexpected fun _ => free htail
  have hscanner {σ s u r} (h : Parse.reportUnexpected σ s = some (r, u)) : u.kind = s.kind := by
    obtain ⟨_, w, hw, hrun, -⟩ := Idles.reportUnexpected σ s
    obtain ⟨-, rfl⟩ := Prod.mk.inj (Option.some.inj (hrun.symm.trans h))
    exact congrArg Scanner.kind hw
  refine ⟨fun {σ σ' s t r} hσ ha h he => ?_⟩
  obtain ⟨_, u, hreport, hK⟩ := bind_eq_some.1 h
  cases hk : stops u.kind with
  | true =>
    have hL : (Parse.reportUnexpected >>= fun _ => L) σ s = some (r, t) :=
      bind_eq_some.2 ⟨_, u, hreport, by rw [← hstop hk]; exact hK⟩
    have hstill : Tracks E pre a φ (Parse.reportUnexpected >>= fun _ => L)
        (Parse.reportUnexpected >>= fun _ => L') := .bind .reportUnexpected fun _ => still
    obtain ⟨hs, hgo⟩ := hstill.follow hσ ha hL he
    refine ⟨hs, fun {s'} halike => ?_⟩
    obtain ⟨t', hrun', ht⟩ := hgo halike
    obtain ⟨_, u', hreport', hL'⟩ := bind_eq_some.1 hrun'
    have hkind : u'.kind = u.kind := by rw [hscanner hreport', halike.kind, hscanner hreport]
    exact ⟨t', bind_eq_some.2 ⟨_, u', hreport', by rw [hstop' (hkind ▸ hk)]; exact hL'⟩, ht⟩
  | false =>
    have hblamed := Complains.reportUnexpected σ s u () hreport
    exact absurd (he.resolve_left htail).1 (hreports hk hblamed hK)

theorem bind_congr_run {m₁ m₂ : Parse α} {K : α → Parse β} {σ : Setting} {s : Session}
    (h : m₁ σ s = m₂ σ s) : (m₁ >>= K) σ s = (m₂ >>= K) σ s := congrArg (Option.bind · _) h

theorem collect_congr {d : Draft} {body body' : Parse Unit} {σ : Setting} {s : Session}
    (h : body σ (s.withDraft d) = body' σ (s.withDraft d)) :
    Parse.collect d body σ s = Parse.collect d body' σ s := by
  have hrun (b : Parse Unit) : Parse.collect d b σ s =
      (b σ (s.withDraft d)).bind fun r => some (r.2.draft, r.2.withDraft s.draft) := rfl
  rw [hrun, hrun, h]

theorem repeatWhile_stops {turn : Parse Bool} {σ : Setting} {s : Session}
    (h : turn σ s = some (false, s)) : Parse.repeatWhile turn σ s = some ((), s) := by
  let step : Parse (Step Unit Unit) := do return if ← turn then .again () else .done ()
  have hrun : Parse.iterate (fun () => step) (σ.turns - 1 + 1) () σ s = some ((), s) :=
    iterate_of_done (bind_eq_some.2 ⟨false, s, h, rfl⟩)
  exact hrun

/-- Recovery up to a terminator stops at once at a `}` and at the end of the text. -/
theorem recoverUntil {c : Kind} :
    Tracks E pre a id (Parse.recoverUntil c) (Parse.recoverUntil c) := by
  refine .bind .offset fun _ => .bind .note fun _ => ?_
  have hstop {σ : Setting} {s : Session} (h : (s.kind == .endOfFile || s.kind == .closeBrace) = true) :
      (Parse.flush >>= fun _ => Parse.child (Parse.node .error (Parse.repeatWhile (Parse.skipUntil c)))) σ s =
        (Parse.flush >>= fun _ => Parse.child (Parse.node .error (Pure.pure ()))) σ s := by
    have hturn : Parse.skipUntil c σ ((s.flushed σ).withDraft (.ofKind .error)) =
        some (false, (s.flushed σ).withDraft (.ofKind .error)) := by
      show (if (s.kind == .endOfFile || s.kind == .closeBrace) = true then _ else _ : Parse Bool) σ _ = _
      rw [if_pos h]
      rfl
    have hcollect : Parse.collect (.ofKind .error) (Parse.repeatWhile (Parse.skipUntil c)) σ (s.flushed σ) =
        Parse.collect (.ofKind .error) (Pure.pure ()) σ (s.flushed σ) :=
      collect_congr (repeatWhile_stops hturn)
    have hnode : Parse.child (Parse.node .error (Parse.repeatWhile (Parse.skipUntil c))) σ (s.flushed σ) =
        Parse.child (Parse.node .error (Pure.pure ())) σ (s.flushed σ) :=
      bind_congr_run (bind_congr_run hcollect)
    show Option.bind (Parse.flush σ s) _ = Option.bind (Parse.flush σ s) _
    rw [flush_run]
    exact hnode
  refine .afterComplaint (fun k => k == .endOfFile || k == .closeBrace) (fun htail => ?_) ?_ hstop hstop
    fun {σ s t r} hk hs h => ?_
  · exact .bind .flush fun _ => .child (.node (.repeatWhile (.skipUntil htail)))
  · exact .bind .flush fun _ => .child (.node (.pure _))
  · obtain ⟨_, u, hflush, h⟩ := bind_eq_some.1 h
    obtain ⟨-, rfl⟩ := Prod.mk.inj (Option.some.inj ((flush_run σ s).symm.trans hflush))
    obtain ⟨n, v, hnode, h⟩ := bind_eq_some.1 h
    obtain ⟨-, rfl⟩ := Prod.mk.inj (Option.some.inj h)
    obtain ⟨d, w, hcollect, hnode⟩ := bind_eq_some.1 hnode
    obtain ⟨-, rfl⟩ := Prod.mk.inj (Option.some.inj hnode)
    obtain ⟨x, hbody, -, rfl⟩ := collect_eq_some.1 hcollect
    show x.report.toList ≠ []
    refine repeatWhile_reports (s := (s.flushed σ).withDraft (.ofKind .error)) .skipUntil
      (fun {b u} hfaults hturn => ?_) hs hbody
    change (if (s.kind == .endOfFile || s.kind == .closeBrace) = true then _ else _ :
      Parse Bool) σ _ = _ at hturn
    rw [if_neg (Bool.eq_false_iff.1 hk)] at hturn
    obtain ⟨_, y, hcount, hturn⟩ := bind_eq_some.1 hturn
    obtain ⟨_, z, hconsume, hturn⟩ := bind_eq_some.1 hturn
    obtain ⟨-, rfl⟩ := pure_eq_some.1 hturn
    have hend : s.kind ≠ .endOfFile := fun he => by simp [he] at hk
    exact reports_of_skip (s := (s.flushed σ).withDraft (.ofKind .error)) (b := true) hend hfaults
      (bind_eq_some.2 ⟨_, y, hcount, bind_eq_some.2 ⟨_, _, hconsume, rfl⟩⟩)

theorem reportUnclosed {opener closer : Kind} {range : Range} :
    Tracks E pre a id (Parse.reportUnclosed opener closer range)
      (Parse.reportUnclosed opener closer (range.shift E.shift)) :=
  .isAt .reportAt .reportHere

theorem close {opener : Kind} {range : Range} :
    Tracks E pre a id (Parse.close opener range) (Parse.close opener (range.shift E.shift)) :=
  .isAt .consume (.bind .reportUnclosed fun _ => .pushMissing)

theorem missingGroup {opener closer : Kind} :
    Tracks E pre a id (Parse.missingGroup opener closer) (Parse.missingGroup opener closer) :=
  .bind .reportHere fun _ => .bind .pushMissing fun _ => .pushMissing

/-! ### Lists -/

section Lists

variable {form : ListForm} {element element' : Parse Unit}

theorem skipInList (htail : E.tail = []) :
    Tracks E [] a id (Parse.skipInList form) (Parse.skipInList form) := by
  refine look (fun s => if (s.isAt form.closer || form.breaksAt s.kind) = true then return false
    else if (!s.draft.isEmpty && form.starts s.kind) = true then return false
    else do
      Parse.countBrace s.kind
      Parse.consume
      return true) (fun s _ => ?_) fun _ _ halike => ?_
  · split
    · exact .pure _
    · split
      · exact .pure _
      · exact .bind (.countBrace htail) fun _ => .bind .consume fun _ => .pure _
  · simp only [halike.isAt, halike.kind, halike.draft.eq_shift, Draft.isEmpty_shift]

theorem placeSkipped {skipped : Draft} : Tracks E pre a id (Parse.placeSkipped form skipped)
    (Parse.placeSkipped form (skipped.shift E.shift)) := by
  unfold Parse.placeSkipped
  rw [Draft.isEmpty_shift, Draft.toList_shift]
  split
  · exact .pure _
  · refine .kind fun c _ => ?_
    split
    · exact .bind .finish fun _ => .bind .push fun _ => .pure _
    · exact .bind .pushAll fun _ => .pure _

/-- Recovery in a list stops at once at the closer and where the list breaks. -/
theorem recoverInList : Tracks E pre a id (Parse.recoverInList form) (Parse.recoverInList form) := by
  refine .bind .offset fun _ => .bind .note fun _ => ?_
  have hstop {σ : Setting} {s : Session} (h : (s.kind == form.closer || form.breaksAt s.kind) = true) :
      (Parse.collect (.ofKind .error) (Parse.repeatWhile (Parse.skipInList form)) >>=
        Parse.placeSkipped form) σ s =
        (Parse.collect (.ofKind .error) (Pure.pure ()) >>= Parse.placeSkipped form) σ s := by
    have hturn : Parse.skipInList form σ (s.withDraft (.ofKind .error)) =
        some (false, s.withDraft (.ofKind .error)) := by
      show (if (s.kind == form.closer || form.breaksAt s.kind) = true then _ else _ : Parse Bool) σ _ = _
      rw [if_pos h]
      rfl
    have hcollect : Parse.collect (.ofKind .error) (Parse.repeatWhile (Parse.skipInList form)) σ s =
        Parse.collect (.ofKind .error) (Pure.pure ()) σ s :=
      collect_congr (repeatWhile_stops hturn)
    exact bind_congr_run hcollect
  refine .afterComplaint (fun k => k == form.closer || form.breaksAt k) (fun htail => ?_) ?_ hstop hstop
    fun {σ s t r} hk hs h => ?_
  · exact .bind (.collectNew (.repeatWhile (.skipInList htail))) fun _ => .placeSkipped
  · exact .bind (.collectNew (.pure _)) fun _ => .placeSkipped
  · obtain ⟨d, w, hcollect, h⟩ := bind_eq_some.1 h
    obtain ⟨x, hbody, -, rfl⟩ := collect_eq_some.1 hcollect
    refine Insists.placeSkipped σ _ t r h ?_
    show x.report.toList ≠ []
    refine repeatWhile_reports (s := s.withDraft (.ofKind .error)) .skipInList
      (fun {b u} hfaults hturn => ?_) hs hbody
    change (if (s.kind == form.closer || form.breaksAt s.kind) = true then _ else _ :
      Parse Bool) σ _ = _ at hturn
    rw [if_neg (Bool.eq_false_iff.1 hk)] at hturn
    obtain ⟨_, y, hcount, hturn⟩ := bind_eq_some.1 hturn
    obtain ⟨_, z, hconsume, hturn⟩ := bind_eq_some.1 hturn
    obtain ⟨-, rfl⟩ := pure_eq_some.1 hturn
    have hend : s.kind ≠ .endOfFile := fun he => by simp [ListForm.breaksAt, he] at hk
    exact reports_of_skip (s := s.withDraft (.ofKind .error)) (b := true) hend hfaults
      (bind_eq_some.2 ⟨_, y, hcount, bind_eq_some.2 ⟨_, _, hconsume, rfl⟩⟩)

theorem missingComma : Tracks E pre a id Parse.missingComma Parse.missingComma :=
  .bind .reportHere fun _ => .pushMissing

theorem afterElement {before : Nat} : Tracks E pre a id (Parse.afterElement form before)
    (Parse.afterElement form (before + E.shift)) := by
  refine look (fun s => if s.isAt .comma = true then do
      Parse.consume
      return true
    else if s.isAt form.closer = true then return true
    else if (s.offset == before) = true then return false
    else do
      Parse.provided (form.starts s.kind) Parse.missingComma
      return true) (fun s _ => ?_) fun _ _ halike => ?_
  · split
    · exact .bind .consume fun _ => .pure _
    · split
      · exact .pure _
      · split
        · exact .pure _
        · exact .bind (.provided .missingComma) fun _ => .pure _
  · have hbefore {n : Nat} : (n + E.shift == before + E.shift) = (n == before) := by
      simp
    simp only [halike.isAt, halike.kind, halike.offset, hbefore]

theorem listElement (helement : ∀ {a}, Tracks E pre a id element element') :
    Tracks E pre a id (Parse.listElement form element) (Parse.listElement form element') :=
  .bind .offset fun _ => .bind helement fun _ => .afterElement

theorem listEntry (helement : ∀ {a}, Tracks E pre a id element element') {c : Kind} :
    Tracks E pre a id (Parse.listEntry form element c) (Parse.listEntry form element' c) := by
  unfold Parse.listEntry
  split
  · exact .test (.listElement helement) (.pure _) .recoverInList
  · exact .recoverInList

theorem listTurn (helement : ∀ {a}, Tracks E pre a id element element') :
    Tracks E pre a (mapStep id id) (Parse.listTurn form element) (Parse.listTurn form element') := by
  refine .bind .flush fun _ => .kind fun c _ => ?_
  split
  · exact .bind .consume fun _ => .pure _
  · split
    · exact .pure _
    · exact .test (.listEntry helement) (.pure _) (.pure _)

theorem listRest (helement : ∀ {a}, Tracks E pre a id element element') :
    Tracks E pre a id (Parse.listRest form element) (Parse.listRest form element') :=
  .loop id fun _ => .listTurn helement

/-- A list that never closes becomes an error, so it is read with nothing in front. -/
theorem list (helement : ∀ {a}, Tracks E [] a id element element') :
    Tracks E [] a id (Parse.list form element) (Parse.list form element') := by
  refine .isAt (.bind .tokenRange fun _ => .bind .consume fun _ => .bind (.listRest helement) fun b => ?_)
    .missingGroup
  cases b with
  | true => exact .pure _
  | false => exact .bind .note fun _ => .bind .reportAt fun _ => .failDraft

end Lists

/-! ### Literals -/

theorem consumeNumber {next : Admitted}
    (hask : ∀ c, (∀ c', a = some c' → c = c') → c.Asks next) :
    Tracks E pre a id (Parse.consumeNumber next) (Parse.consumeNumber next) := by
  refine .bind (.take hask) fun r => ?_
  cases r with
  | none => exact .pure _
  | some n =>
    show Tracks E pre none id _ (if (n.shift E.shift).isLeaf = true then _ else _)
    rw [Node.isLeaf_shift]
    show Tracks E pre none id (if n.isLeaf = true then _ else _) _
    split
    · exact .push
    · rw [Node.shift_children]
      exact .bind .inheritError fun _ => .pushAll

theorem number {c kind : Kind} (hc : c.takesSuffix = true) :
    Tracks E pre (some c) (Node.shift E.shift) (Parse.number kind) (Parse.number kind) :=
  .node <| .bind (.consumeNumber fun c' hc' => by
    rw [hc' c rfl]
    exact .inr (.inr ⟨rfl, hc⟩)) fun _ => .consumeIf

theorem quotedLiteral {c : Kind} (hc : c.takesSuffix = true) : Tracks E pre (some c)
    (Node.shift E.shift) Parse.quotedLiteral Parse.quotedLiteral := by
  refine .bind (.take fun c' hc' => ?_) fun r => ?_
  · rw [hc' c rfl]
    exact .inr (.inr ⟨rfl, hc⟩)
  · cases r with
    | none => exact .missing
    | some n =>
      refine .isAt ?_ (.pure _)
      rw [Node.shift_kind, Node.shift_children]
      exact .node <| .bind .inheritError fun _ => .bind .pushAll fun _ => .consume

theorem literal : Tracks E pre a (Node.shift E.shift) Parse.literal Parse.literal := by
  refine .bind .flush fun _ => .kind fun c _ => ?_
  split
  · exact .number rfl
  · exact .number rfl
  · exact .node .consume
  · exact .node .consume
  · exact .quotedLiteral rfl
  · exact .quotedLiteral rfl
  · exact .quotedLiteral rfl
  · exact .bind .reportExpected fun _ => .missing

theorem negativeLiteral :
    Tracks E pre a (Node.shift E.shift) Parse.negativeLiteral Parse.negativeLiteral :=
  .node <| .bind .consume fun _ => .child .literal

theorem memberName {label : Field} :
    Tracks E pre a id (Parse.memberName label) (Parse.memberName label) :=
  .isAt (.field .literal) .consumeFieldAs

theorem quotedName {kind : Kind} :
    Tracks E pre a (Node.shift E.shift) (Parse.quotedName kind) (Parse.quotedName kind) := by
  refine .node <| .bind .expect fun _ => .kind fun c _ => ?_
  split
  · exact .consumeAs
  · split
    · exact .consume
    · exact .bind .reportExpected fun _ => .pushMissing

theorem lifetime : Tracks E pre a (Node.shift E.shift) Parse.lifetime Parse.lifetime :=
  .bind .flush fun _ => .quotedName

end Follows

end Parse

end ConcreteSyntax
