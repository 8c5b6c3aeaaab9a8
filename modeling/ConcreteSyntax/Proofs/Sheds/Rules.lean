import ConcreteSyntax.Grammar.Reading
import ConcreteSyntax.Proofs.Reading.Arrival
import ConcreteSyntax.Proofs.Sheds.Session

/-! # Programs without comments

A program that keeps the comments sheds to one that drops them (`Parse.Sheds`): from two sessions that
differ only by comments, the second runs as the first does, to two sessions that differ only by
comments. There is one rule for each way in which a program is put together, and one for each step
that all productions share. -/

namespace ConcreteSyntax

open Parse

/-- Turns of two loops that end alike. -/
inductive Parse.Step.Rel {α α' ρ ρ' : Type} (R : α → α' → Prop) (S : ρ → ρ' → Prop) :
    Step α ρ → Step α' ρ' → Prop
  | again {x : α} {y : α'} (h : R x y) : Rel R S (.again x) (.again y)
  | done {r : ρ} {r' : ρ'} (h : S r r') : Rel R S (.done r) (.done r')

/-- A draft that can be finished as a node, and the one that it sheds to. -/
structure Draft.Bares (d e : Draft) : Prop where
  sheds : d.Sheds e
  usual : d.kind ≠ .macroInvocation

theorem Draft.bares_ofKind {kind : Kind} (hk : (kind == .macroInvocation) = false) :
    (ofKind kind).Bares (ofKind kind) :=
  ⟨.ofKind kind, ne_of_beq_false hk⟩

theorem Draft.Bares.setKind {d e : Draft} (h : d.Bares e) {kind : Kind}
    (hk : (kind == .macroInvocation) = false) : (d.setKind kind).Bares (e.setKind kind) :=
  ⟨h.sheds.setKind kind, ne_of_beq_false hk⟩

namespace Parse

variable {α α' β β' : Type}

/-! ### The relation -/

/-- From a session that keeps the comments, a run of the second program follows a run of the first
one: their results are related, and so are the drafts. Nothing else differs. -/
structure ShedsAt (T : Draft.Trait) (R : α → α' → Prop) (σ : Setting) (s : Session) (w : Twin)
    (m : Parse α) (m' : Parse α') : Prop where
  run {r : α} {t : Session} (h : m σ s = some (r, t)) :
    ∃ r' w', m' σ.bare (s.twin w) = some (r', t.twin w') ∧ R r r' ∧ t.Sheds T w'

/-- A program that keeps the comments sheds to one that drops them, from wherever the scanner is as
`P` says and with a draft of the trait `T`. -/
structure Sheds (P : Scanner → Prop) (T : Draft.Trait) (R : α → α' → Prop) (m : Parse α)
    (m' : Parse α') : Prop where
  follow {σ : Setting} {s : Session} {w : Twin} (keeps : σ.options.keepComments = true)
    (drafts : s.Sheds T w) (here : P s.scanner) : ShedsAt T R σ s w m m'

/-- Wherever the scanner is. -/
def Anywhere (_ : Scanner) : Prop := True

variable {P Q : Scanner → Prop} {T : Draft.Trait} {R : α → α' → Prop} {S : β → β' → Prop}
  {σ : Setting} {s t : Session} {w w' : Twin}

namespace ShedsAt

/-- A first step whose runs are known. -/
theorem step {a : α} {a' : α'} {m : Parse α} {m' : Parse α'} {K : α → Parse β} {K' : α' → Parse β'}
    (hm : m σ s = some (a, t)) (hm' : m' σ.bare (s.twin w) = some (a', t.twin w'))
    (hK : ShedsAt T S σ t w' (K a) (K' a')) : ShedsAt T S σ s w (m >>= K) (m' >>= K') := by
  refine ⟨fun {r u} hrun => ?_⟩
  obtain ⟨b, v, hb, hrest⟩ := bind_eq_some.1 hrun
  obtain ⟨rfl, rfl⟩ := Prod.mk.inj (Option.some.inj (hm.symm.trans hb))
  obtain ⟨r', w'', hrun', hr⟩ := hK.run hrest
  exact ⟨r', w'', bind_eq_some.2 ⟨a', _, hm', hrun'⟩, hr⟩

/-- A first step, from wherever the sessions are then. -/
theorem bind {m : Parse α} {m' : Parse α'} {K : α → Parse β} {K' : α' → Parse β'}
    (hσ : σ.options.keepComments = true) (hm : ShedsAt T R σ s w m m')
    (hK : ∀ a b, R a b → Sheds Anywhere T S (K a) (K' b)) :
    ShedsAt T S σ s w (m >>= K) (m' >>= K') := by
  refine ⟨fun {r u} hrun => ?_⟩
  obtain ⟨a, v, ha, hrest⟩ := bind_eq_some.1 hrun
  obtain ⟨a', w', ha', hR, hv⟩ := hm.run ha
  obtain ⟨r', w'', hrun', hr⟩ := ((hK a a' hR).follow hσ hv trivial).run hrest
  exact ⟨r', w'', bind_eq_some.2 ⟨a', _, ha', hrun'⟩, hr⟩

end ShedsAt

namespace Sheds

/-! ### Composition -/

theorem mono {m : Parse α} {m' : Parse α'} {R' : α → α' → Prop} (h : Sheds Q T R m m')
    (hPQ : ∀ s, P s → Q s) (hR : ∀ a b, R a b → R' a b) : Sheds P T R' m m' := by
  refine ⟨fun hσ hs hP => ⟨fun hrun => ?_⟩⟩
  obtain ⟨r', w', hrun', hr, ht⟩ := (h.follow hσ hs (hPQ _ hP)).run hrun
  exact ⟨r', w', hrun', hR _ _ hr, ht⟩

theorem anywhere {m : Parse α} {m' : Parse α'} (h : Sheds Anywhere T R m m') : Sheds P T R m m' :=
  h.mono (fun _ _ => trivial) fun _ _ => id

theorem give {r : α} {r' : α'} (h : R r r') : Sheds P T R (pure r) (pure r') := by
  refine ⟨fun {_ _ w} _ hs _ => ⟨fun hrun => ?_⟩⟩
  obtain ⟨rfl, rfl⟩ := pure_eq_some.1 hrun
  exact ⟨r', w, rfl, h, hs⟩

theorem pure (r : α) : Sheds P T Eq (pure r) (pure r) := give rfl

/-- A program goes on with related results. -/
theorem draw {m : Parse α} {m' : Parse α'} {K : α → Parse β} {K' : α' → Parse β'}
    (hm : Sheds P T R m m') (hK : ∀ a b, R a b → Sheds Anywhere T S (K a) (K' b)) :
    Sheds P T S (m >>= K) (m' >>= K') :=
  ⟨fun hσ hs hP => .bind hσ (hm.follow hσ hs hP) hK⟩

/-- A program goes on with equal results. -/
theorem bind {m m' : Parse α} {K : α → Parse β} {K' : α → Parse β'} (hm : Sheds P T Eq m m')
    (hK : ∀ a, Sheds Anywhere T S (K a) (K' a)) : Sheds P T S (m >>= K) (m' >>= K') :=
  hm.draw fun a _ h => h ▸ hK a

/-- A program that looks at the session, but not at the draft. -/
theorem look {f : Session → Parse α} {f' : Session → Parse α'}
    (blind : ∀ s w, f' (s.twin w) = f' s) (h : ∀ s, P s.scanner → Sheds P T R (f s) (f' s)) :
    Sheds P T R (get >>= f) (get >>= f') := by
  refine ⟨fun {σ s w} hσ hs hP => .step rfl rfl ?_⟩
  rw [blind]
  exact (h s hP).follow hσ hs hP

/-- A program that looks at the setting, but not at whether comments are kept. -/
theorem setting {f : Setting → Parse α} {f' : Setting → Parse α'} (blind : ∀ σ, f' σ.bare = f' σ)
    (h : ∀ σ, Sheds P T R (f σ) (f' σ)) :
    Sheds P T R (read >>= f) (read >>= f') := by
  refine ⟨fun {σ s w} hσ hs hP => .step rfl rfl ?_⟩
  rw [blind]
  exact (h σ).follow hσ hs hP

theorem options {K : Options → Parse α} {K' : Options → Parse α'}
    (blind : ∀ options, K' { options with keepComments := false } = K' options)
    (h : ∀ options, Sheds P T R (K options) (K' options)) :
    Sheds P T R (Parse.options >>= K) (Parse.options >>= K') := by
  refine ⟨fun {σ s w} hσ hs hP => .step rfl rfl ?_⟩
  show ShedsAt T R σ s w (K σ.options) (K' { σ.options with keepComments := false })
  rw [blind]
  exact (h σ.options).follow hσ hs hP

/-- What the setting and the session say apart from the draft. -/
theorem ask {f : Setting → Session → α} (h : ∀ σ s w, f σ.bare (s.twin w) = f σ s) :
    Sheds P T Eq (fun σ s => some (f σ s, s)) (fun σ s => some (f σ s, s)) := by
  refine ⟨fun {σ s w} _ hs _ => ⟨fun hrun => ?_⟩⟩
  obtain ⟨rfl, rfl⟩ := Prod.mk.inj (Option.some.inj hrun)
  exact ⟨_, w, congrArg (fun r => some (r, s.twin w)) (h σ s w), rfl, hs⟩

/-- A step that leaves the draft, the reports and the comments alone. -/
theorem tell {f : Setting → Session → Session}
    (h : ∀ σ s w, f σ.bare (s.twin w) = (f σ s).twin w)
    (hreport : ∀ σ s, (f σ s).report = s.report) (hdraft : ∀ σ s, (f σ s).draft = s.draft)
    (hleading : ∀ σ s, (f σ s).scanner.leading = s.scanner.leading) :
    Sheds P T Eq (fun σ s => some ((), f σ s)) (fun σ s => some ((), f σ s)) := by
  refine ⟨fun {σ s w} _ hs _ => ⟨fun hrun => ?_⟩⟩
  obtain ⟨rfl, rfl⟩ := Prod.mk.inj (Option.some.inj hrun)
  refine ⟨(), w, congrArg (fun t => some ((), t)) (h σ s w), rfl, ?_, ?_, ?_, ?_⟩
  · rw [hreport]
    exact hs.report
  · rw [hdraft]
    exact hs.draft
  · rw [hdraft]
    exact hs.trait
  · rw [Session.comments, hleading]
    exact hs.comments

/-- A change of the draft. -/
theorem change {f f' : Draft → Draft} (h : ∀ d e, d.Sheds e → T.holds d → (f d).Sheds (f' e))
    (ht : ∀ d, T.holds d → T.holds (f d)) :
    Sheds P T Eq (modifyDraft f) (modifyDraft f') := by
  refine ⟨fun {σ s w} _ hs _ => ⟨fun hrun => ?_⟩⟩
  obtain ⟨rfl, rfl⟩ := Prod.mk.inj (Option.some.inj hrun)
  exact ⟨(), w.withDraft (f' w.draft), rfl, rfl,
    hs.withDraft (h _ _ hs.draft hs.trait) (ht _ hs.trait)⟩

theorem choose {c : Prop} [Decidable c] {a b : Parse α} {a' b' : Parse α'} (yes : Sheds P T R a a')
    (no : Sheds P T R b b') : Sheds P T R (if c then a else b) (if c then a' else b') := by
  split
  · exact yes
  · exact no

/-- A program that asks first, and goes on by what it is told. -/
theorem test {m m' : Parse Bool} {K : Bool → Parse α} {K' : Bool → Parse α'} (hm : Sheds P T Eq m m')
    (yes : Sheds Anywhere T R (K true) (K' true)) (no : Sheds Anywhere T R (K false) (K' false)) :
    Sheds P T R (m >>= K) (m' >>= K') :=
  .bind hm fun b => by cases b <;> assumption

/-! ### Looking around -/

theorem kind {K : Kind → Parse α} {K' : Kind → Parse α'}
    (h : ∀ c, Sheds (fun s => P s ∧ s.kind = c) T R (K c) (K' c)) :
    Sheds P T R (Parse.kind >>= K) (Parse.kind >>= K') :=
  ⟨fun {_ s _} hσ hs hP => .step rfl rfl ((h s.kind).follow hσ hs ⟨hP, rfl⟩)⟩

theorem isAt {c : Kind} {K : Bool → Parse α} {K' : Bool → Parse α'}
    (yes : Sheds (fun s => P s ∧ s.kind = c) T R (K true) (K' true))
    (no : Sheds P T R (K false) (K' false)) :
    Sheds P T R (Parse.isAt c >>= K) (Parse.isAt c >>= K') := by
  refine ⟨fun {σ s w} hσ hs hP => ?_⟩
  have hgo : ShedsAt T R σ s w (K (s.isAt c)) (K' (s.isAt c)) := by
    cases hk : s.isAt c with
    | true => exact yes.follow hσ hs ⟨hP, eq_of_beq hk⟩
    | false => exact no.follow hσ hs hP
  exact .step rfl rfl hgo

theorem offset : Sheds P T Eq Parse.offset Parse.offset :=
  ask (f := fun _ s => s.offset) fun _ _ _ => rfl

theorem tokenRange : Sheds P T Eq Parse.tokenRange Parse.tokenRange :=
  ask (f := fun _ s => s.scanner.token.range) fun _ _ _ => rfl

theorem ahead {n : Nat} : Sheds P T Eq (Parse.ahead n) (Parse.ahead n) :=
  ask (f := fun _ s => s.ahead n) fun _ _ _ => rfl

theorem textAhead {n : Nat} : Sheds P T Eq (Parse.textAhead n) (Parse.textAhead n) :=
  ask (f := fun σ s => (s.scannerAhead n).tokenText σ.source) fun _ _ _ => rfl

theorem tokenText : Sheds P T Eq Parse.tokenText Parse.tokenText := textAhead

theorem isAtAny {cs : List Kind} : Sheds P T Eq (Parse.isAtAny cs) (Parse.isAtAny cs) :=
  ask (f := fun _ s => s.isAtAny cs) fun _ _ _ => rfl

theorem restriction : Sheds P T Eq Parse.restriction Parse.restriction :=
  ask (f := fun σ _ => σ.restriction) fun _ _ _ => rfl

theorem isFaulty : Sheds P T Eq Parse.isFaulty Parse.isFaulty :=
  ask (f := fun _ s => !s.scanner.token.faults.isEmpty) fun _ _ _ => rfl

theorem isAtMacro : Sheds P T Eq Parse.isAtMacro Parse.isAtMacro :=
  ask (f := fun σ s => s.kind.startsPath && s.scanner.isAtMacro σ.turns) fun _ _ _ => rfl

theorem isAtExpression : Sheds P T Eq Parse.isAtExpression Parse.isAtExpression :=
  ask (f := fun σ s => s.kind.startsExpression σ.restriction) fun _ _ _ => rfl

theorem isAtWord {word : String} : Sheds P T Eq (Parse.isAtWord word) (Parse.isAtWord word) :=
  .isAt (.bind .tokenText fun _ => .pure _) (.pure _)

theorem foundText : Sheds P T Eq Parse.foundText Parse.foundText :=
  .isAt (.pure _) .tokenText

theorem isAtItem : Sheds P T Eq Parse.isAtItem Parse.isAtItem := by
  refine .look (fun _ _ => rfl) fun s _ => ?_
  split
  all_goals first | exact .pure _ | exact .bind .tokenText fun _ => .pure _

/-! ### Settings of a part -/

theorem restricted {body : Parse α} {body' : Parse α'} {restriction : Restriction}
    (h : Sheds P T R body body') :
    Sheds P T R (Parse.restricted restriction body) (Parse.restricted restriction body') :=
  ⟨fun {σ _ _} hσ hs hP => ⟨fun hrun =>
    (h.follow (σ := { σ with restriction }) hσ hs hP).run hrun⟩⟩

theorem unrestricted {body : Parse α} {body' : Parse α'} (h : Sheds P T R body body') :
    Sheds P T R (Parse.unrestricted body) (Parse.unrestricted body') :=
  .restricted h

/-! ### Remarks and reports -/

theorem note {remark : Remark} : Sheds P T Eq (Parse.note remark) (Parse.note remark) :=
  tell (f := fun _ s => { s with remarks := s.remarks.push remark }) (fun _ _ _ => rfl)
    (fun _ _ => rfl) (fun _ _ => rfl) fun _ _ => rfl

theorem settle {ambiguity : Ambiguity} {chosen : Kind} :
    Sheds P T Eq (Parse.settle ambiguity chosen) (Parse.settle ambiguity chosen) :=
  .bind .offset fun _ => .note

/-- A report may point elsewhere, if it is about a whole node. -/
theorem reportAlike {range range' : Range} {message : Message} {arguments : List String}
    (h : ∀ file, (Diagnostic.located file range' message arguments).unplaced =
      (Diagnostic.located file range message arguments).unplaced) :
    Sheds P T Eq (Parse.reportAt range message arguments)
      (Parse.reportAt range' message arguments) := by
  refine ⟨fun {σ s w} _ hs _ => ⟨fun hrun => ?_⟩⟩
  obtain ⟨rfl, rfl⟩ := Prod.mk.inj (Option.some.inj hrun)
  refine ⟨(), { w with report := w.report.add (.located σ.file range' message arguments) }, rfl, rfl,
    hs.withReport ?_⟩
  rw [Report.unplaced_add, Report.unplaced_add, hs.report, h]

theorem reportAt {range : Range} {message : Message} {arguments : List String} :
    Sheds P T Eq (Parse.reportAt range message arguments) (Parse.reportAt range message arguments) :=
  .reportAlike fun _ => rfl

theorem reportHere {message : Message} {arguments : List String} :
    Sheds P T Eq (Parse.reportHere message arguments) (Parse.reportHere message arguments) :=
  .bind .tokenRange fun _ => .reportAt

theorem reportExpected {what : String} :
    Sheds P T Eq (Parse.reportExpected what) (Parse.reportExpected what) :=
  .test .isFaulty (.pure _) (.bind .foundText fun _ => .reportHere)

theorem reportUnexpected : Sheds P T Eq Parse.reportUnexpected Parse.reportUnexpected :=
  .test .isFaulty (.pure _) (.bind .tokenText fun _ => .reportHere)

theorem reportLimit : Sheds P T Eq Parse.reportLimit Parse.reportLimit :=
  .options (fun _ => rfl) fun _ => .bind .reportHere fun _ => .bind .offset fun _ => .note

/-! ### The open draft -/

theorem push {n m : Node} (h : n.Bares m) : Sheds P T Eq (Parse.push n) (Parse.push m) :=
  change (fun _ _ hd _ => hd.pushChild h.sheds h.plain none) fun _ ht => by
    rw [Draft.push, Draft.pushChild_eq_extend]
    exact T.extend _ ht

theorem pushField {label : Field} {n m : Node} (h : n.Bares m) :
    Sheds P T Eq (Parse.pushField label n) (Parse.pushField label m) :=
  change (fun _ _ hd _ => hd.pushChild h.sheds h.plain (some label)) fun _ ht => by
    rw [Draft.pushField, Draft.pushChild_eq_extend]
    exact T.extend _ ht

/-- The children of a node. -/
theorem unpack {n m : Node} (h : n.Sheds m) :
    Sheds P T Eq (Parse.pushAll n.children) (Parse.pushAll m.children) :=
  change (fun _ _ hd _ => hd.unpack h) fun _ ht => T.extend _ ht

theorem setKind {kind : Kind} (hk : (kind == .macroInvocation) = false) :
    Sheds P T Eq (Parse.setKind kind) (Parse.setKind kind) :=
  change (fun _ _ hd _ => hd.setKind kind) fun _ ht => T.setKind (ne_of_beq_false hk) ht

theorem inheritError {n m : Node} (h : n.Sheds m) :
    Sheds P T Eq (Parse.inheritError n) (Parse.inheritError m) :=
  change (fun _ _ hd _ => by rw [h.flags]; exact hd.addError _) fun _ ht => T.addFlags _ ht

theorem failDraft : Sheds P T Eq Parse.failDraft Parse.failDraft :=
  change (fun _ _ hd _ => (hd.setKind .error).clearFields) fun _ ht =>
    T.clearFields (T.setKind (by decide) ht)

/-! ### Nodes -/

/-- A draft that is filled beside the open one. -/
theorem collect {d d' : Draft} {body body' : Parse Unit} {T' : Draft.Trait} (hd : d.Sheds d')
    (ht : T'.holds d) (h : Sheds P T' Eq body body') :
    Sheds P T (fun d d' => d.Sheds d' ∧ T'.holds d) (Parse.collect d body)
      (Parse.collect d' body') := by
  refine ⟨fun {σ s w} hσ hs hP => ⟨fun hrun => ?_⟩⟩
  obtain ⟨t, hbody, rfl, rfl⟩ := collect_eq_some.1 hrun
  obtain ⟨_, w', hbody', -, ht⟩ := (h.follow hσ (hs.withDraft hd ht) hP).run hbody
  exact ⟨w'.draft, w'.withDraft w.draft, collect_eq_some.2 ⟨_, hbody', rfl, rfl⟩,
    ⟨ht.draft, ht.trait⟩, ht.withDraft hs.draft hs.trait⟩

theorem collectBare {d d' : Draft} {body body' : Parse Unit} (hd : d.Bares d')
    (h : Sheds P .usual Eq body body') :
    Sheds P T Draft.Bares (Parse.collect d body) (Parse.collect d' body') :=
  (collect hd.sheds hd.usual h).mono (fun _ => id) fun _ _ h => ⟨h.1, h.2⟩

theorem finish {d d' : Draft} (h : d.Bares d') :
    Sheds P T Node.Bares (Parse.finish d) (Parse.finish d') := by
  refine ⟨fun {σ s w} _ hs _ => ⟨fun hrun => ?_⟩⟩
  obtain ⟨rfl, rfl⟩ := Prod.mk.inj (Option.some.inj hrun)
  exact ⟨_, w, rfl, h.sheds.bares h.usual _, hs⟩

theorem resume {d d' : Draft} {body body' : Parse Unit} (hd : d.Bares d')
    (h : Sheds P .usual Eq body body') :
    Sheds P T Node.Bares (Parse.resume d body) (Parse.resume d' body') :=
  .draw (.collectBare hd h) fun _ _ h => .finish h

/-- A node that is not the call of a macro. -/
theorem node {kind : Kind} {body body' : Parse Unit} (hk : (kind == .macroInvocation) = false)
    (h : Sheds P .usual Eq body body') :
    Sheds P T Node.Bares (Parse.node kind body) (Parse.node kind body') :=
  .resume (Draft.bares_ofKind hk) h

theorem field {label : Field} {body body' : Parse Node} (h : Sheds P T Node.Bares body body') :
    Sheds P T Eq (Parse.field label body) (Parse.field label body') :=
  .draw h fun _ _ h => .pushField h

theorem child {body body' : Parse Node} (h : Sheds P T Node.Bares body body') :
    Sheds P T Eq (Parse.child body) (Parse.child body') :=
  .draw h fun _ _ h => .push h

/-! ### Loops -/

theorem outOfTurns : Sheds P T R (outOfTurns : Parse α) (outOfTurns : Parse α') :=
  ⟨fun _ _ _ => ⟨nofun⟩⟩

section Loops

variable {ρ ρ' : Type} {S : ρ → ρ' → Prop} {turn : α → Parse (Step α ρ)}
  {turn' : α' → Parse (Step α' ρ')}

/-- A loop, by its first turn. -/
theorem iterate_first {x : α} {y : α'} {n : Nat} (hσ : σ.options.keepComments = true)
    (hturn : ShedsAt T (Step.Rel R S) σ s w (turn x) (turn' y))
    (h : ∀ x y, R x y → Sheds Anywhere T S (Parse.iterate turn n x) (Parse.iterate turn' n y)) :
    ShedsAt T S σ s w (Parse.iterate turn (n + 1) x) (Parse.iterate turn' (n + 1) y) := by
  refine .step rfl rfl (.bind hσ hturn fun step step' hstep => ?_)
  cases hstep with
  | again hxy =>
    exact .setting (fun _ => rfl) fun _ => .look (fun _ _ => rfl) fun _ _ =>
      .choose .outOfTurns (h _ _ hxy)
  | done hr => exact .give hr

theorem iterate (h : ∀ x y, R x y → Sheds Anywhere T (Step.Rel R S) (turn x) (turn' y)) (n : Nat) :
    ∀ x y, R x y → Sheds Anywhere T S (Parse.iterate turn n x) (Parse.iterate turn' n y) := by
  induction n with
  | zero => exact fun _ _ _ => .outOfTurns
  | succ n ih =>
    exact fun x y hxy => ⟨fun hσ hs hP => iterate_first hσ ((h x y hxy).follow hσ hs hP) ih⟩

theorem loop (h : ∀ x y, R x y → Sheds Anywhere T (Step.Rel R S) (turn x) (turn' y)) {x : α} {y : α'}
    (hxy : R x y) : Sheds P T S (Parse.loop turn x) (Parse.loop turn' y) :=
  .setting (fun _ => rfl) fun σ => (iterate h σ.turns x y hxy).anywhere

end Loops

theorem repeatWhile {turn turn' : Parse Bool} (h : Sheds Anywhere T Eq turn turn') :
    Sheds P T Eq (Parse.repeatWhile turn) (Parse.repeatWhile turn') :=
  .loop (R := Eq) (fun _ _ _ => .test h (.give (.again rfl)) (.give (.done rfl))) rfl

/-- A loop whose first turn differs from the others. -/
theorem repeatWhile_first {turn turn' : Parse Bool} (hσ : σ.options.keepComments = true)
    (hturn : ShedsAt T Eq σ s w turn turn') (h : Sheds Anywhere T Eq turn turn') :
    ShedsAt T Eq σ s w (Parse.repeatWhile turn) (Parse.repeatWhile turn') := by
  have hstep (more : Bool) : Sheds Anywhere T (Step.Rel Eq Eq)
      (Pure.pure (if more then .again () else .done ()) : Parse (Step Unit Unit))
      (Pure.pure (if more then .again () else .done ())) := by
    cases more with
    | true => exact .give (.again rfl)
    | false => exact .give (.done rfl)
  exact .step rfl rfl (iterate_first (R := Eq) hσ (.bind hσ hturn fun a _ h => h ▸ hstep a)
    (iterate (fun _ _ _ => .bind h hstep) _))

end Sheds

end Parse

end ConcreteSyntax
