import ConcreteSyntax.Grammar.Reading
import ConcreteSyntax.Proofs.Node.Exposed
import ConcreteSyntax.Proofs.Reading.Arrival
import ConcreteSyntax.Proofs.Token.Repertoire

/-! # Programs that shelter their literals

A program *shelters* its literals (`Parse.Shelters`) if no head that it builds exposes one, and if what
it adds to the open draft or returns exposes one only where it may. Where it may is its `Pledge`:
anywhere, nowhere, or only where the place does not forbid bare literals. Behind a delimiter that was
taken anything goes (`Parse.Shelters.enclosed`). Besides, whatever a program does, what was reported
before stays reported and the failures that were remembered stay so (`Session.Adds`). There is one rule
for each way in which a program is put together, and one for each step that all productions share. -/

namespace ConcreteSyntax

open Parse

/-! ### Pledges -/

/-- Where a program may leave a literal exposed. -/
inductive Pledge where
  /-- Anywhere. -/
  | anywhere
  /-- Where the place does not forbid bare literals. -/
  | unlessForbidden
  /-- Nowhere. -/
  | nowhere
  deriving DecidableEq

namespace Pledge

/-- A place where no literal may be left exposed, or a pledge that says nothing of places. -/
def Admits (p : Pledge) (σ : Setting) : Prop :=
  p = .unlessForbidden → σ.restriction.noStructLiteral = true

/-- Whether a literal may be left exposed. -/
def Binds (p : Pledge) : Prop := p ≠ .anywhere

end Pledge

/-! ### Drafts -/

/-- What is known of the open draft: its kind has no head, or nothing that may be a head in it exposes
a literal. -/
inductive Frame where
  | headless
  | sheltered
  deriving DecidableEq

namespace Frame

/-- What a frame says of a draft. -/
def Holds : Frame → Draft → Prop
  | .headless, d => d.kind.headLabel? = none
  | .sheltered, d =>
    ∀ c ∈ d.children.toList, ∀ label, c.1 = some label → label.mayBeHead = true → ¬ c.2.Exposes

/-- Whether a draft in this frame may be given this kind. -/
def opens (T : Frame) (kind : Kind) : Bool :=
  kind != .structExpression && (kind.headLabel?.isNone || T == .sheltered)

/-- Whether a child with this label may be added, whatever it exposes. -/
def takes (T : Frame) (label : Field) : Bool := !label.mayBeHead || T == .headless

variable {T : Frame} {d : Draft} {kind : Kind}

theorem ne_of_opens (h : T.opens kind = true) : kind ≠ .structExpression := by
  simpa using (Bool.and_eq_true_iff.1 h).1

theorem headLabel?_of_opens (h : headless.opens kind = true) : kind.headLabel? = none := by
  simpa using (Bool.and_eq_true_iff.1 h).2

theorem Holds.sheltered (h : T.Holds d) (hd : ∀ c ∈ d.children.toList, c.2.Sheltered)
    (range : Range) : (d.finishOver range).Sheltered := by
  refine .mk (fun label hl c hc hlabel => ?_) hd
  cases T with
  | headless => exact nomatch h.symm.trans hl
  | sheltered => exact h c hc label hlabel (Kind.mayBeHead_of_headLabel? hl)

end Frame

namespace Draft

/-- All children are sheltered. -/
def Sheltered (d : Draft) : Prop := ∀ c ∈ d.children.toList, c.2.Sheltered

end Draft

/-! ### What a program returns -/

/-- A sheltered node, which exposes a literal only where it may. -/
structure Node.Fine (p : Pledge) (n : Node) : Prop where
  sheltered : n.Sheltered
  exposes : p.Binds → ¬ n.Exposes

/-- A draft that may become any node. -/
structure Draft.Fine (p : Pledge) (d : Draft) : Prop where
  sheltered : d.Sheltered
  heads : Frame.sheltered.Holds d
  exposes : p.Binds → ¬ d.Exposes

theorem Node.Atomic.fine {n : Node} (h : n.Atomic) (p : Pledge) : n.Fine p :=
  ⟨h.sheltered, fun _ => h.not_exposes⟩

/-- What holds of anything. -/
def Anything {α : Type} (_ : α) : Prop := True

/-- What holds of the result if there is one. -/
def IfAny {α : Type} (P : α → Prop) (o : Option α) : Prop := ∀ r ∈ o, P r

theorem ifAny_none {α : Type} {P : α → Prop} : IfAny P none := by
  intro r h
  cases h

theorem ifAny_some {α : Type} {P : α → Prop} {r : α} (h : P r) : IfAny P (some r) := by
  rintro _ ⟨⟩
  exact h

/-- What holds after a turn of a loop. -/
def Parse.Step.Ends {α ρ : Type} (P : α → Prop) (Q : ρ → Prop) : Step α ρ → Prop
  | .again x => P x
  | .done r => Q r

/-! ### Sessions -/

namespace Session

/-- What was reported stays so, and what failed is remembered. -/
structure Adds (s s' : Session) : Prop where
  report : s.report.Grows s'.report
  declined : s.declined <:+ s'.declined

theorem Adds.refl (s : Session) : s.Adds s := ⟨.refl _, List.suffix_rfl⟩

theorem Adds.trans {s s' s'' : Session} (h : s.Adds s') (h' : s'.Adds s'') : s.Adds s'' :=
  ⟨h.report.trans h'.report, h.declined.trans h'.declined⟩

/-- A sound session at a lexeme, the kind of which may be known. -/
structure Stands (text : List Char) (a : Option Kind) (s : Session) : Prop where
  sound : s.Sound text
  lexeme : s.kind ∈ Scanner.kinds
  at? : ∀ c, a = some c → s.kind = c

variable {text : List Char} {a : Option Kind} {s : Session}

theorem Stands.anywhere (h : s.Stands text a) : s.Stands text none := ⟨h.sound, h.lexeme, nofun⟩

theorem Stands.here (h : s.Stands text a) : s.Stands text (some s.kind) :=
  ⟨h.sound, h.lexeme, fun _ => Option.some.inj⟩

theorem Stands.withDraft (h : s.Stands text a) (d : Draft) : (s.withDraft d).Stands text a :=
  ⟨h.sound.withDraft d, h.lexeme, h.at?⟩

/-- What a program does to the open draft: children are added, all of them sheltered, and a literal is
left exposed only where it may. -/
structure Fills (p : Pledge) (T : Frame) (d d' : Draft) : Prop where
  row : d.row <+: d'.row
  sheltered : d.Sheltered → d'.Sheltered
  frame : T.Holds d → T.Holds d'
  kind : d'.kind = .structExpression → d.kind = .structExpression
  exposing : p.Binds → Node.Exposing d'.row → Node.Exposing d.row

namespace Fills

variable {p : Pledge} {T : Frame} {d d' d'' : Draft}

theorem refl (d : Draft) : Fills p T d d := ⟨List.prefix_rfl, id, id, id, fun _ => id⟩

theorem trans (h : Fills p T d d') (h' : Fills p T d' d'') : Fills p T d d'' :=
  ⟨h.row.trans h'.row, h'.sheltered ∘ h.sheltered, h'.frame ∘ h.frame, h.kind ∘ h'.kind,
    fun hp => h.exposing hp ∘ h'.exposing hp⟩

theorem exposes (h : Fills p T d d') (hp : p.Binds) : d'.Exposes → d.Exposes :=
  Or.imp h.kind (h.exposing hp)

/-- More may be left exposed by another pledge. -/
theorem pledge {p' : Pledge} (h : Fills p' T d d') (hb : p.Binds → p'.Binds) : Fills p T d d' :=
  ⟨h.row, h.sheltered, h.frame, h.kind, fun hp => h.exposing (hb hp)⟩

/-- More children, which may be added under their labels. -/
theorem extend {more : List Child} (hs : ∀ c ∈ more, c.2.Sheltered)
    (he : p.Binds → ¬ Node.Exposing (more.map (·.2)))
    (hl : T = .sheltered → ∀ c ∈ more, ∀ label, c.1 = some label → label.mayBeHead = true →
      ¬ c.2.Exposes) : Fills p T d (d.extend more) where
  row := ⟨more.map (·.2), (d.row_extend more).symm⟩
  sheltered := fun h => Draft.forall_mem_extend.2 ⟨h, hs⟩
  frame := fun h => by
    cases T with
    | headless => exact h
    | sheltered => exact Draft.forall_mem_extend.2 ⟨h, hl rfl⟩
  kind := id
  exposing := fun hp h => by
    rw [Draft.row_extend, Node.exposing_append] at h
    exact h.resolve_right fun h => he hp h.2

/-- One more child. -/
theorem pushChild {label : Option Field} {n : Node} (hn : n.Fine p)
    (hl : T = .sheltered → ∀ l, label = some l → l.mayBeHead = true → ¬ n.Exposes) :
    Fills p T d (d.pushChild label n) := by
  rw [Draft.pushChild_eq_extend]
  refine .extend (List.forall_mem_singleton.2 hn.sheltered) (fun hp => ?_)
    fun hT => List.forall_mem_singleton.2 (hl hT)
  exact fun h => hn.exposes hp (Node.exposing_singleton.1 h)

/-- More children without labels that expose no literal. -/
theorem extendPlain {more : List Child}
    (hm : ∀ c ∈ more, c.1 = none ∧ ¬ c.2.Exposes ∧ c.2.Sheltered) : Fills p T d (d.extend more) := by
  refine .extend (fun c hc => (hm c hc).2.2) (fun _ => Node.not_exposing fun n hn => ?_)
    fun _ c hc _ _ _ => (hm c hc).2.1
  obtain ⟨c, hc, rfl⟩ := List.mem_map.1 hn
  exact (hm c hc).2.1

/-- Another kind, which may have a head only if none of the children spoils it. -/
theorem setKind {kind : Kind} (hk : T.opens kind = true) : Fills p T d (d.setKind kind) := by
  refine ⟨List.prefix_rfl, id, fun h => ?_, fun h => absurd h (Frame.ne_of_opens hk), fun _ => id⟩
  cases T with
  | headless => exact Frame.headLabel?_of_opens hk
  | sheltered => exact h

/-- An error has no labels. -/
theorem fail (d : Draft) : Fills p T d (d.setKind .error).clearFields := by
  have hrow : (d.setKind .error).clearFields.row = d.row := Draft.row_clearFields _
  refine ⟨hrow ▸ List.prefix_rfl, fun h => Draft.forall_mem_clearFields.2 h, fun _ => ?_, nofun,
    fun _ h => hrow ▸ h⟩
  cases T with
  | headless => rfl
  | sheltered => exact Draft.forall_mem_clearFields.2 fun _ _ _ => nofun

/-- Behind a delimiter that opens a group nothing is exposed. -/
theorem behind {n : Node} (h : Fills .anywhere T d d') (hn : n ∈ d.row)
    (ho : n.isOpener = true) : Fills p T d d' := by
  refine ⟨h.row, h.sheltered, h.frame, h.kind, fun _ he => ?_⟩
  obtain ⟨more, hmore⟩ := h.row
  rw [← hmore, Node.exposing_append] at he
  refine he.resolve_right fun he => ?_
  exact Bool.false_ne_true ((he.1 n hn).symm.trans ho)

end Fills

end Session

namespace Parse

variable {α β ρ : Type} {text : List Char} {a : Option Kind} {p : Pledge} {T : Frame}

/-! ### Programs -/

/-- Where a program went that began at a lexeme, and what holds of its result. -/
structure Sheltered (text : List Char) (p : Pledge) (T : Frame) (Q : α → Prop) (r : α)
    (s s' : Session) : Prop where
  stands : s'.Stands text none
  adds : s.Adds s'
  fills : Session.Fills p T s.draft s'.draft
  result : Q r

/-- A program that shelters its literals, from the current token on, in a draft of this frame. -/
structure Shelters (text : List Char) (a : Option Kind) (p : Pledge) (T : Frame) (Q : α → Prop)
    (m : Parse α) : Prop where
  follow {σ : Setting} {s s' : Session} {r : α} (hp : p.Admits σ) (hs : s.Stands text a)
    (h : m σ s = some (r, s')) : Sheltered text p T Q r s s'

namespace Shelters

variable {P Q : α → Prop} {R : β → Prop} {m : Parse α}

/-! ### Composition -/

theorem mono {Q' : α → Prop} (h : Shelters text a p T Q m) (hQ : ∀ r, Q r → Q' r) :
    Shelters text a p T Q' m := by
  refine ⟨fun hp hs hrun => ?_⟩
  obtain ⟨hstands, hadds, hfills, hr⟩ := h.follow hp hs hrun
  exact ⟨hstands, hadds, hfills, hQ _ hr⟩

theorem here (h : Shelters text none p T Q m) : Shelters text a p T Q m :=
  ⟨fun hp hs => h.follow hp hs.anywhere⟩

theorem give {r : α} (h : Q r) : Shelters text a p T Q (pure r) := by
  refine ⟨fun _ hs hrun => ?_⟩
  obtain ⟨rfl, rfl⟩ := pure_eq_some.1 hrun
  exact ⟨hs.anywhere, .refl _, .refl _, h⟩

theorem pure (r : α) : Shelters text a p T Anything (pure r) := give trivial

/-- A program goes on with what holds of the result. -/
theorem draw {K : α → Parse β} (hm : Shelters text a p T P m)
    (hK : ∀ r, P r → Shelters text none p T R (K r)) : Shelters text a p T R (m >>= K) := by
  refine ⟨fun hp hs hrun => ?_⟩
  obtain ⟨r, t, hrun, hrest⟩ := bind_eq_some.1 hrun
  obtain ⟨hstands, hadds, hfills, hr⟩ := hm.follow hp hs hrun
  obtain ⟨hstands', hadds', hfills', hr'⟩ := (hK r hr).follow hp hstands hrest
  exact ⟨hstands', hadds.trans hadds', hfills.trans hfills', hr'⟩

theorem bind {K : α → Parse β} (hm : Shelters text a p T Anything m)
    (hK : ∀ r, Shelters text none p T R (K r)) : Shelters text a p T R (m >>= K) :=
  hm.draw fun r _ => hK r

/-- A first step that only asks: the current token stays. -/
theorem asking {m : Parse α} {K : α → Parse β} (hm : ∀ σ s, ∃ r, m σ s = some (r, s))
    (hK : ∀ r, Shelters text a p T R (K r)) : Shelters text a p T R (m >>= K) := by
  refine ⟨fun {σ s _ _} hp hs hrun => ?_⟩
  obtain ⟨r, t, hrun, hrest⟩ := bind_eq_some.1 hrun
  obtain ⟨r', hm⟩ := hm σ s
  obtain ⟨rfl, rfl⟩ := Prod.mk.inj (Option.some.inj (hm.symm.trans hrun))
  exact (hK _).follow hp hs hrest

theorem look {K : Session → Parse α} (h : ∀ s, Shelters text (some s.kind) p T Q (K s)) :
    Shelters text a p T Q (get >>= K) := by
  refine ⟨fun hp hs hrun => ?_⟩
  obtain ⟨_, _, h₁, hrun⟩ := bind_eq_some.1 hrun
  obtain ⟨rfl, rfl⟩ := Prod.mk.inj (Option.some.inj h₁)
  exact (h _).follow hp hs.here hrun

theorem setting {K : Setting → Parse α} (h : ∀ σ, Shelters text a p T Q (K σ)) :
    Shelters text a p T Q (read >>= K) :=
  asking (fun σ _ => ⟨σ, rfl⟩) h

theorem choose {c : Prop} [Decidable c] {m m' : Parse α} (yes : Shelters text a p T Q m)
    (no : Shelters text a p T Q m') : Shelters text a p T Q (if c then m else m') := by
  split
  · exact yes
  · exact no

/-- A program that asks first, and goes on by what it is told. -/
theorem test {m : Parse Bool} {K : Bool → Parse β} (hm : Shelters text a p T Anything m)
    (yes : Shelters text none p T R (K true)) (no : Shelters text none p T R (K false)) :
    Shelters text a p T R (m >>= K) :=
  .bind hm fun b => by cases b <;> assumption

/-! ### Looking around -/

theorem kind {K : Kind → Parse α} (h : ∀ c, Shelters text (some c) p T Q (K c)) :
    Shelters text a p T Q (Parse.kind >>= K) := by
  refine ⟨fun {_ s _ _} hp hs hrun => ?_⟩
  obtain ⟨_, _, h₁, hrun⟩ := bind_eq_some.1 hrun
  obtain ⟨rfl, rfl⟩ := Prod.mk.inj (Option.some.inj h₁)
  exact (h s.kind).follow hp hs.here hrun

theorem isAt {c : Kind} {K : Bool → Parse α} (yes : Shelters text (some c) p T Q (K true))
    (no : Shelters text a p T Q (K false)) :
    Shelters text a p T Q (Parse.isAt c >>= K) := by
  refine ⟨fun {_ s _ _} hp hs hrun => ?_⟩
  obtain ⟨_, _, h₁, hrun⟩ := bind_eq_some.1 hrun
  obtain ⟨rfl, rfl⟩ := Prod.mk.inj (Option.some.inj h₁)
  cases hc : s.isAt c with
  | true =>
    rw [hc] at hrun
    exact yes.follow hp ⟨hs.sound, hs.lexeme, fun _ h => Option.some.inj h ▸ eq_of_beq hc⟩ hrun
  | false =>
    rw [hc] at hrun
    exact no.follow hp hs hrun

/-- What the setting and the session say. -/
theorem ask {f : Setting → Session → α} :
    Shelters text a p T Anything (fun σ s => some (f σ s, s)) := by
  refine ⟨fun _ hs hrun => ?_⟩
  obtain ⟨rfl, rfl⟩ := Prod.mk.inj (Option.some.inj hrun)
  exact ⟨hs.anywhere, .refl _, .refl _, trivial⟩

theorem offset : Shelters text a p T Anything Parse.offset := ask (f := fun _ s => s.offset)

theorem textAhead {n : Nat} : Shelters text a p T Anything (Parse.textAhead n) :=
  ask (f := fun σ s => (s.scannerAhead n).tokenText σ.source)

theorem tokenText : Shelters text a p T Anything Parse.tokenText := textAhead

theorem isAtAny {cs : List Kind} : Shelters text a p T Anything (Parse.isAtAny cs) :=
  ask (f := fun _ s => s.isAtAny cs)

theorem isFaulty : Shelters text a p T Anything Parse.isFaulty :=
  ask (f := fun _ s => !s.scanner.token.faults.isEmpty)

theorem isAtMacro : Shelters text a p T Anything Parse.isAtMacro :=
  ask (f := fun σ s => s.kind.startsPath && s.scanner.isAtMacro σ.turns)

theorem isAtExpression : Shelters text a p T Anything Parse.isAtExpression :=
  ask (f := fun σ s => s.kind.startsExpression σ.restriction)

theorem options : Shelters text a p T Anything Parse.options := ask (f := fun σ _ => σ.options)

theorem isAtWord {word : String} : Shelters text a p T Anything (Parse.isAtWord word) :=
  .isAt (.bind .tokenText fun _ => .pure _) (.pure _)

theorem foundText : Shelters text a p T Anything Parse.foundText := .isAt (.pure _) .tokenText

theorem isAtItem : Shelters text a p T Anything Parse.isAtItem := by
  refine .look fun s => ?_
  split
  all_goals first | exact .pure _ | exact .bind .tokenText fun _ => .pure _

theorem tokenRange {K : Range → Parse β} (hK : ∀ r, Shelters text a p T R (K r)) :
    Shelters text a p T R (Parse.tokenRange >>= K) :=
  asking (fun _ s => ⟨s.scanner.token.range, rfl⟩) hK

theorem ahead {n : Nat} {K : Kind → Parse β} (hK : ∀ c, Shelters text a p T R (K c)) :
    Shelters text a p T R (Parse.ahead n >>= K) :=
  asking (fun _ s => ⟨s.ahead n, rfl⟩) hK

/-! ### Settings of a part -/

/-- A part of an expression, in a place that forbids bare literals if the part asks for it. -/
theorem restricted {p' : Pledge} {restriction : Restriction}
    (h : Shelters text a p' T Q m) (hb : p.Binds → p'.Binds)
    (hr : p' = .unlessForbidden → restriction.noStructLiteral = true) :
    Shelters text a p T Q (Parse.restricted restriction m) := by
  refine ⟨fun {σ _ _ _} _ hs hrun => ?_⟩
  obtain ⟨hstands, hadds, hfills, hresult⟩ :=
    h.follow (σ := { σ with restriction }) hr hs hrun
  exact ⟨hstands, hadds, hfills.pledge hb, hresult⟩

theorem unrestricted (h : Shelters text a .nowhere T Q m) :
    Shelters text a p T Q (Parse.unrestricted m) :=
  .restricted h (fun _ => nofun) nofun

/-- In a head a `{` opens no literal. -/
theorem forbidden {restriction : Restriction} (hr : restriction.noStructLiteral = true)
    (h : Shelters text a .unlessForbidden T Q m) :
    Shelters text a p T Q (Parse.restricted restriction m) :=
  .restricted h (fun _ => nofun) fun _ => hr

/-- Where anything goes, the place does not matter. -/
theorem released {restriction : Restriction} (h : Shelters text a .anywhere T Q m) :
    Shelters text a .anywhere T Q (Parse.restricted restriction m) :=
  .restricted h id nofun

/-- The restrictions of the place, which forbid bare literals if the pledge depends on them. -/
theorem restriction {K : Restriction → Parse β}
    (h : ∀ r, (p = .unlessForbidden → r.noStructLiteral = true) → Shelters text a p T R (K r)) :
    Shelters text a p T R (Parse.restriction >>= K) := by
  refine ⟨fun {σ _ _ _} hp hs hrun => ?_⟩
  obtain ⟨_, _, h₁, hrun⟩ := bind_eq_some.1 hrun
  obtain ⟨rfl, rfl⟩ := Prod.mk.inj (Option.some.inj h₁)
  exact (h σ.restriction hp).follow hp hs hrun

/-! ### Remarks and reports -/

/-- A step that leaves the scanner and the draft alone. -/
theorem tell {f : Setting → Session → Session} (hscanner : ∀ σ s, (f σ s).scanner = s.scanner)
    (hend : ∀ σ s, (f σ s).consumedEnd = s.consumedEnd) (hdraft : ∀ σ s, (f σ s).draft = s.draft)
    (hadds : ∀ σ s, Session.Adds s (f σ s)) :
    Shelters text a p T Anything (fun σ s => some ((), f σ s)) := by
  refine ⟨fun {σ s _ _} _ hs hrun => ?_⟩
  obtain ⟨rfl, rfl⟩ := Prod.mk.inj (Option.some.inj hrun)
  have hsound : (f σ s).Sound text :=
    ⟨hscanner σ s ▸ hs.sound.scanner, by rw [hscanner, hend]; exact hs.sound.leading⟩
  have hlexeme : (f σ s).kind ∈ Scanner.kinds := by
    rw [Session.kind, hscanner]
    exact hs.lexeme
  have hplace : ∀ c ∈ (none : Option Kind), (f σ s).kind = c := fun c h => absurd h (Option.not_mem_none c)
  exact ⟨⟨hsound, hlexeme, hplace⟩, hadds σ s, hdraft σ s ▸ .refl _, trivial⟩

theorem note {remark : Remark} : Shelters text a p T Anything (Parse.note remark) :=
  tell (f := fun _ s => { s with remarks := s.remarks.push remark }) (fun _ _ => rfl)
    (fun _ _ => rfl) (fun _ _ => rfl) fun _ _ => ⟨.refl _, List.suffix_rfl⟩

theorem settle {ambiguity : Ambiguity} {chosen : Kind} :
    Shelters text a p T Anything (Parse.settle ambiguity chosen) :=
  .bind .offset fun _ => .note

theorem openBraces (change : Nat → Nat) : Shelters text a p T Anything
    (modify fun s => { s with openBraces := change s.openBraces } : Parse Unit) :=
  tell (f := fun _ s => { s with openBraces := change s.openBraces }) (fun _ _ => rfl)
    (fun _ _ => rfl) (fun _ _ => rfl) fun _ _ => ⟨.refl _, List.suffix_rfl⟩

theorem reportAt {range : Range} {message : Message} {arguments : List String} :
    Shelters text a p T Anything (Parse.reportAt range message arguments) :=
  tell (f := fun σ s =>
      { s with report := s.report.add (.located σ.file range message arguments) })
    (fun _ _ => rfl) (fun _ _ => rfl) (fun _ _ => rfl)
    fun _ _ => ⟨Report.grows_add _ rfl, List.suffix_rfl⟩

theorem reportHere {message : Message} {arguments : List String} :
    Shelters text a p T Anything (Parse.reportHere message arguments) :=
  .tokenRange fun _ => .reportAt

theorem reportExpected {what : String} :
    Shelters text a p T Anything (Parse.reportExpected what) :=
  .test .isFaulty (.pure _) (.bind .foundText fun _ => .reportHere)

theorem reportUnexpected : Shelters text a p T Anything Parse.reportUnexpected :=
  .test .isFaulty (.pure _) (.bind .tokenText fun _ => .reportHere)

theorem reportLimit : Shelters text a p T Anything Parse.reportLimit :=
  .bind .options fun _ => .bind .reportHere fun _ => .bind .offset fun _ => .note

/-! ### The open draft -/

/-- A change of the draft. -/
theorem change {f : Draft → Draft} (h : ∀ d, Session.Fills p T d (f d)) :
    Shelters text a p T Anything (modifyDraft f) := by
  refine ⟨fun {_ s _ _} _ hs hrun => ?_⟩
  obtain ⟨rfl, rfl⟩ := Prod.mk.inj (Option.some.inj hrun)
  exact ⟨(hs.withDraft _).anywhere, ⟨.refl _, List.suffix_rfl⟩, h s.draft, trivial⟩

theorem push {n : Node} (h : n.Fine p) : Shelters text a p T Anything (Parse.push n) :=
  change fun _ => .pushChild h fun _ _ => nofun

/-- A node may be added at a token that the program depends on. -/
theorem pushing {n : Node} (h : n.Fine p) {K : Unit → Parse β}
    (hK : Shelters text a p T R (K ())) : Shelters text a p T R (Parse.push n >>= K) := by
  refine ⟨fun {_ s _ _} hp hs hrun => ?_⟩
  obtain ⟨_, _, h₁, hrun⟩ := bind_eq_some.1 hrun
  obtain ⟨rfl, rfl⟩ := Prod.mk.inj (Option.some.inj h₁)
  obtain ⟨hstands, hadds, hfills, hr⟩ := hK.follow hp (hs.withDraft (s.draft.pushChild none n)) hrun
  have hpush : Session.Fills p T s.draft (s.draft.pushChild none n) :=
    .pushChild h fun _ _ => nofun
  exact ⟨hstands, ⟨hadds.report, hadds.declined⟩, hpush.trans hfills, hr⟩

theorem pushField {label : Field} {n : Node} (h : n.Fine p) (hl : T.takes label = true) :
    Shelters text a p T Anything (Parse.pushField label n) := by
  refine change fun _ => .pushChild h fun hT l he hhead => ?_
  obtain rfl := Option.some.inj he
  rw [hT] at hl
  simp [Frame.takes, hhead] at hl

/-- A head, which exposes no literal. -/
theorem pushHead {label : Field} {n : Node} (h : n.Fine .nowhere) :
    Shelters text a p T Anything (Parse.pushField label n) :=
  change fun _ => .pushChild ⟨h.sheltered, fun _ => h.exposes nofun⟩
    fun _ _ _ _ => h.exposes nofun

theorem setKind {kind : Kind} (hk : T.opens kind = true) :
    Shelters text a p T Anything (Parse.setKind kind) :=
  change fun _ => .setKind hk

theorem failDraft : Shelters text a p T Anything Parse.failDraft := change .fail

/-! ### Nodes -/

/-- A draft that is filled beside the open one. -/
theorem collectIn {d : Draft} {body : Parse Unit} {T' : Frame} {S : Draft → Prop}
    (h : Shelters text a p T' Anything body)
    (hS : ∀ d', Session.Fills p T' d d' → S d') :
    Shelters text a p T S (Parse.collect d body) := by
  refine ⟨fun hp hs hrun => ?_⟩
  obtain ⟨t, hbody, rfl, rfl⟩ := collect_eq_some.1 hrun
  obtain ⟨hstands, hadds, hfills, -⟩ := h.follow hp (hs.withDraft d) hbody
  exact ⟨hstands.withDraft _, ⟨hadds.report, hadds.declined⟩, .refl _, hS _ hfills⟩

theorem collect {d : Draft} {body : Parse Unit} (hd : d.Fine p)
    (h : Shelters text a p .sheltered Anything body) :
    Shelters text a p T (Draft.Fine p) (Parse.collect d body) :=
  collectIn h fun _ hf =>
    ⟨hf.sheltered hd.sheltered, hf.frame hd.heads, fun hp => hd.exposes hp ∘ hf.exposes hp⟩

theorem finish {d : Draft} {T' : Frame} (hs : d.Sheltered) (hT : T'.Holds d)
    (he : p.Binds → ¬ d.Exposes) :
    Shelters text a p T (Node.Fine p) (Parse.finish d) := by
  refine ⟨fun _ hstands hrun => ?_⟩
  obtain ⟨rfl, rfl⟩ := Prod.mk.inj (Option.some.inj hrun)
  exact ⟨hstands.anywhere, .refl _, .refl _,
    hT.sheltered hs _, fun hp h => he hp (Draft.exposes_finishOver.1 h)⟩

theorem resume {d : Draft} {body : Parse Unit} (hd : d.Fine p)
    (h : Shelters text a p .sheltered Anything body) :
    Shelters text a p T (Node.Fine p) (Parse.resume d body) :=
  .draw (.collect hd h) fun _ hd => .finish hd.sheltered hd.heads hd.exposes

/-- A node of a kind that suits the frame of its body. -/
theorem nodeIn (T' : Frame) {kind : Kind} {body : Parse Unit} (hT : T'.Holds (.ofKind kind))
    (hk : p.Binds → kind ≠ .structExpression) (h : Shelters text a p T' Anything body) :
    Shelters text a p T (Node.Fine p) (Parse.node kind body) := by
  refine .draw (collectIn (S := fun d => d.Sheltered ∧ T'.Holds d ∧ (p.Binds → ¬ d.Exposes)) h
    fun d hf => ⟨hf.sheltered nofun, hf.frame hT, fun hp he => ?_⟩)
    fun d hd => .finish hd.1 hd.2.1 hd.2.2
  rcases hf.exposes hp he with hs | he
  · exact hk hp hs
  · exact Node.exposing_nil he

/-- A node of a kind without a head. -/
theorem node {kind : Kind} {body : Parse Unit} (hk : Frame.headless.opens kind = true)
    (h : Shelters text a p .headless Anything body) :
    Shelters text a p T (Node.Fine p) (Parse.node kind body) :=
  nodeIn .headless (Frame.headLabel?_of_opens hk) (fun _ => Frame.ne_of_opens hk) h

/-- A node whose head, if it has one, exposes no literal. -/
theorem headed {kind : Kind} {body : Parse Unit} (hk : kind ≠ .structExpression)
    (h : Shelters text a p .sheltered Anything body) :
    Shelters text a p T (Node.Fine p) (Parse.node kind body) :=
  nodeIn .sheltered (fun _ h => nomatch h) (fun _ => hk) h

theorem field {label : Field} {body : Parse Node} (hl : T.takes label = true)
    (h : Shelters text a p T (Node.Fine p) body) :
    Shelters text a p T Anything (Parse.field label body) :=
  .draw h fun _ hn => .pushField hn hl

theorem child {body : Parse Node} (h : Shelters text a p T (Node.Fine p) body) :
    Shelters text a p T Anything (Parse.child body) :=
  .draw h fun _ hn => .push hn

/-! ### Loops -/

theorem outOfTurns : Shelters text a p T Q (outOfTurns : Parse α) := by
  refine ⟨fun _ _ h => ?_⟩
  cases h

section Loops

variable {S : ρ → Prop} {turn : α → Parse (Step α ρ)}

theorem iterate (h : ∀ x, P x → Shelters text none p T (Step.Ends P S) (turn x)) (n : Nat) :
    ∀ x, P x → Shelters text none p T S (Parse.iterate turn n x) := by
  induction n with
  | zero => exact fun _ _ => .outOfTurns
  | succ n ih =>
    intro x hx
    refine ⟨fun hp hs hrun => ?_⟩
    rcases iterate_succ hrun with hturn | ⟨y, t, hturn, hrest⟩
    · obtain ⟨hstands, hadds, hfills, hr⟩ := (h x hx).follow hp hs hturn
      exact ⟨hstands, hadds, hfills, hr⟩
    · obtain ⟨hstands, hadds, hfills, hy⟩ := (h x hx).follow hp hs hturn
      obtain ⟨hstands', hadds', hfills', hr⟩ := (ih y hy).follow hp hstands hrest
      exact ⟨hstands', hadds.trans hadds', hfills.trans hfills', hr⟩

theorem loop (h : ∀ x, P x → Shelters text none p T (Step.Ends P S) (turn x)) {x : α}
    (hx : P x) : Shelters text a p T S (Parse.loop turn x) :=
  .setting fun σ => (iterate h σ.turns x hx).here

end Loops

theorem repeatWhile {turn : Parse Bool} (h : Shelters text none p T Anything turn) :
    Shelters text a p T Anything (Parse.repeatWhile turn) :=
  .loop (P := Anything) (fun _ _ => .test h (.give trivial) (.give trivial)) trivial

/-! ### Speculation -/

theorem speculate {ambiguity : Ambiguity} {preferred : Parse (Option α)}
    (h : Shelters text a p T (IfAny Q) preferred) :
    Shelters text a p T (IfAny Q) (Parse.speculate ambiguity preferred) := by
  refine ⟨fun hp hs hrun => ?_⟩
  rcases speculate_outcome hrun with ⟨rfl, rfl⟩ | ⟨o, t, htried, hend⟩
  · exact ⟨hs.anywhere, .refl _, .refl _, nofun⟩
  · obtain ⟨hstands, hadds, hfills, ho⟩ := h.follow hp hs htried
    rcases hend with ⟨v, rfl, rfl, -, he⟩ | ⟨rfl, he⟩
    · rw [he]
      exact ⟨⟨⟨hstands.sound.scanner, hstands.sound.leading⟩, hstands.lexeme, nofun⟩,
        ⟨hadds.report, hadds.declined⟩, hfills, ho⟩
    · rw [he]
      exact ⟨⟨⟨hs.sound.scanner, hs.sound.leading⟩, hs.lexeme, nofun⟩,
        ⟨.refl _, hadds.declined.trans (List.suffix_cons _ _)⟩, .refl _, nofun⟩

end Shelters

end Parse

end ConcreteSyntax
