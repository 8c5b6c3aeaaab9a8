import ConcreteSyntax.Proofs.Excerpt.FirstToken
import ConcreteSyntax.Proofs.Excerpt.Session
import ConcreteSyntax.Proofs.Reading.Invariant

/-! # Complaints

What is reported stays reported (`Parse.Insists`), and some programs always leave something reported,
or stay at a token with a fault (`Parse.Complains`). So where nothing is reported in the end nothing
was skipped: a loop that skips tokens takes the faulty one first (`Parse.repeatWhile_reports`). -/

namespace ConcreteSyntax

namespace Parse

variable {α β : Type}

/-- The program drops nothing that was reported. -/
def Insists (m : Parse α) : Prop :=
  ∀ σ s t r, m σ s = some (r, t) → s.report.toList ≠ [] → t.report.toList ≠ []

/-- The program leaves something reported, or stays at a token with a fault. -/
def Complains (m : Parse α) : Prop :=
  ∀ σ s t r, m σ s = some (r, t) → t.report.toList ≠ [] ∨ t.scanner.token.faults ≠ []

/-- The program changes nothing but the open draft. -/
def Quiet (m : Parse α) : Prop := ∀ σ s, ∃ r d, m σ s = some (r, s.withDraft d)

namespace Insists

variable {m : Parse α}

theorem pure (r : α) : Insists (Pure.pure r : Parse α) := by
  intro σ s t r' h hs
  obtain ⟨-, rfl⟩ := pure_eq_some.1 h
  exact hs

theorem bind {K : α → Parse β} (hm : Insists m) (hK : ∀ r, Insists (K r)) : Insists (m >>= K) := by
  intro σ s t r h hs
  obtain ⟨x, u, h, hrest⟩ := bind_eq_some.1 h
  exact hK x σ u t r hrest (hm σ s u x h hs)

theorem kind {K : Kind → Parse α} (hK : ∀ c, Insists (K c)) : Insists (Parse.kind >>= K) :=
  fun σ s => hK s.kind σ s

theorem choose {c : Bool} {A B : Parse α} (yes : Insists A) (no : Insists B) :
    Insists (if c = true then A else B) := by
  cases c
  exacts [no, yes]

theorem consume : Insists Parse.consume := by
  intro σ s t r h hs
  obtain ⟨n, u, htake, h⟩ := bind_eq_some.1 h
  have hu : u.report.toList ≠ [] := by
    rw [take_run] at htake
    split at htake
    · obtain ⟨-, rfl⟩ := Prod.mk.inj (Option.some.inj htake)
      exact hs
    · obtain ⟨-, rfl⟩ := Prod.mk.inj (Option.some.inj htake)
      exact fun hnil => hs (Session.faultless_of_taken hnil).1
  cases n with
  | some n =>
    obtain ⟨-, rfl⟩ := Prod.mk.inj (Option.some.inj h)
    exact hu
  | none =>
    obtain ⟨-, rfl⟩ := pure_eq_some.1 h
    exact hu

theorem iterate {turn : β → Parse (Step β α)} (hturn : ∀ x, Insists (turn x)) (n : Nat) :
    ∀ x, Insists (Parse.iterate turn n x) := by
  induction n with
  | zero => exact fun _ _ _ _ _ h => nomatch h
  | succ n ih =>
    intro x σ s t r h hs
    rcases iterate_succ h with h | ⟨y, u, h, hrest⟩
    · exact hturn x σ s t _ h hs
    · exact ih y σ u t r hrest (hturn x σ s u _ h hs)

theorem node {kind : Kind} {body : Parse Unit} (h : Insists body) : Insists (Parse.node kind body) := by
  intro σ s t r hrun hs
  obtain ⟨d, u, hcollect, hrun⟩ := bind_eq_some.1 hrun
  obtain ⟨-, rfl⟩ := Prod.mk.inj (Option.some.inj hrun)
  obtain ⟨v, hbody, -, rfl⟩ := collect_eq_some.1 hcollect
  exact h σ _ v () hbody hs

theorem loop {turn : β → Parse (Step β α)} {x : β} (hturn : ∀ x, Insists (turn x)) :
    Insists (Parse.loop turn x) := fun σ => iterate hturn σ.turns x σ

theorem skipNext (nesting : Nat) : Insists (Parse.skipNext nesting) :=
  .kind fun _ => .choose (.pure _) (.bind .consume fun _ => .pure _)

theorem skipGroup : Insists Parse.skipGroup :=
  .node <| .kind fun _ => .choose (.pure _) (.loop .skipNext)

end Insists

namespace Quiet

theorem modifyDraft {f : Draft → Draft} : Quiet (Parse.modifyDraft f) := fun _ s => ⟨(), f s.draft, rfl⟩

theorem pushMissing {kind : Kind} : Quiet (Parse.pushMissing kind) := fun _ _ => ⟨(), _, rfl⟩

end Quiet

theorem Insists.of_quiet {m : Parse α} (h : Quiet m) : Insists m := by
  intro σ s t r hrun hs
  obtain ⟨_, d, h⟩ := h σ s
  obtain ⟨-, rfl⟩ := Prod.mk.inj (Option.some.inj (h.symm.trans hrun))
  exact hs

theorem Insists.placeSkipped {form : ListForm} {skipped : Draft} :
    Insists (Parse.placeSkipped form skipped) :=
  .choose (.pure _) <| .kind fun _ => .choose
    (.bind (.of_quiet fun _ _ => ⟨_, _, rfl⟩) fun _ =>
      .bind (.of_quiet fun _ _ => ⟨_, _, rfl⟩) fun _ => .pure _)
    (.bind (.of_quiet fun _ _ => ⟨_, _, rfl⟩) fun _ => .pure _)

namespace Complains

variable {m : Parse α}

theorem reportAt {range : Range} {message : Message} {arguments : List String} :
    Complains (Parse.reportAt range message arguments) := by
  intro σ s t r h
  obtain ⟨-, rfl⟩ := Prod.mk.inj (Option.some.inj h)
  exact .inl (by simp [Report.add, Report.toList])

theorem bind {K : α → Parse β} (hK : ∀ r, Complains (K r)) : Complains (m >>= K) := by
  intro σ s t r h
  obtain ⟨x, u, -, h⟩ := bind_eq_some.1 h
  exact hK x σ u t r h

theorem settling {K : α → Parse β} (hm : Complains m) (hK : ∀ r, Quiet (K r)) : Complains (m >>= K) := by
  intro σ s t r h
  obtain ⟨x, u, hm', h⟩ := bind_eq_some.1 h
  obtain ⟨y, d, hK'⟩ := hK x σ u
  obtain ⟨-, rfl⟩ := Prod.mk.inj (Option.some.inj (hK'.symm.trans h))
  exact hm σ s u x hm'

theorem choose {c : Bool} {A B : Parse α} (yes : Complains A) (no : Complains B) :
    Complains (if c = true then A else B) := by
  cases c
  exacts [no, yes]

theorem reportHere {message : Message} {arguments : List String} :
    Complains (Parse.reportHere message arguments) := bind fun _ => reportAt

/-- Where a fault explains the token already, nothing else is reported. -/
theorem unlessFaulty {body : Parse Unit} (h : Complains body) :
    Complains (Parse.isFaulty >>= fun b => if b = true then Pure.pure () else body) := by
  intro σ s t r hrun
  obtain ⟨b, u, hfaulty, hrun⟩ := bind_eq_some.1 hrun
  obtain ⟨rfl, rfl⟩ := Prod.mk.inj (Option.some.inj hfaulty)
  split at hrun
  · next hfaulty =>
    obtain ⟨-, rfl⟩ := pure_eq_some.1 hrun
    refine .inr fun hnil => ?_
    rw [hnil] at hfaulty
    exact nomatch hfaulty
  · exact h σ _ t r hrun

theorem reportExpected {what : String} : Complains (Parse.reportExpected what) :=
  unlessFaulty (bind fun _ => reportHere)

theorem reportUnexpected : Complains Parse.reportUnexpected := unlessFaulty (bind fun _ => reportHere)

theorem skipNested : Complains Parse.skipNested := by
  intro σ s t r h
  obtain ⟨_, u, hlimit, h⟩ := bind_eq_some.1 h
  refine .inl (Insists.skipGroup σ u t r h fun hnil => ?_)
  have hlimited := reportLimit_isLimited hlimit
  rw [Report.isLimited, hnil] at hlimited
  cases hlimited

end Complains

/-! ### Loops that skip -/

theorem Insists.countBrace {c : Kind} : Insists (Parse.countBrace c) :=
  .choose (fun σ s t r h hs => by
    obtain ⟨-, rfl⟩ := Prod.mk.inj (Option.some.inj h)
    exact hs) (.pure _)

theorem Insists.skipUntil {c : Kind} : Insists (Parse.skipUntil c) :=
  .kind fun _ => .choose (.pure _) (.bind .countBrace fun _ => .bind .consume fun _ => .pure _)

theorem Insists.skipInList {form : ListForm} : Insists (Parse.skipInList form) := by
  intro σ s t r h
  obtain ⟨_, _, h₁, h⟩ := bind_eq_some.1 h
  obtain ⟨rfl, rfl⟩ := Prod.mk.inj (Option.some.inj h₁)
  refine Insists.choose (.pure _) (.choose (.pure _) ?_) σ s t r h
  exact .bind .countBrace fun _ => .bind .consume fun _ => .pure _

/-- A token with a fault is reported when it is taken. -/
theorem reports_of_consume {σ : Setting} {s t : Session} {r : Unit} (hk : s.kind ≠ .endOfFile)
    (hfaults : s.scanner.token.faults ≠ []) (h : Parse.consume σ s = some (r, t)) :
    t.report.toList ≠ [] := by
  have hrun := consumeWith_run none none .usual σ s
  rw [if_neg hk] at hrun
  obtain ⟨-, rfl⟩ := Prod.mk.inj (Option.some.inj (hrun.symm.trans h))
  show (s.taken σ .usual).report.toList ≠ []
  exact fun hnil => hfaults (Session.faultless_of_taken hnil).2

theorem reports_of_skip {σ : Setting} {s t : Session} {c : Kind} {b : Bool} (hk : s.kind ≠ .endOfFile)
    (hfaults : s.scanner.token.faults ≠ [])
    (h : (do Parse.countBrace c; Parse.consume; return b) σ s = some (b, t)) :
    t.report.toList ≠ [] := by
  obtain ⟨_, u, hcount, h⟩ := bind_eq_some.1 h
  obtain ⟨_, v, hconsume, h⟩ := bind_eq_some.1 h
  obtain ⟨-, rfl⟩ := pure_eq_some.1 h
  have hscanner : u.scanner = s.scanner := by
    obtain ⟨_, w, hw, hrun, -⟩ := @Idles.countBrace c σ s
    obtain ⟨-, rfl⟩ := Prod.mk.inj (Option.some.inj (hrun.symm.trans hcount))
    exact hw
  refine reports_of_consume ?_ (by rwa [hscanner]) hconsume
  rwa [Session.kind, hscanner]

/-- A loop whose first turn takes the token at which something is wrong. -/
theorem loop_reports {turn : β → Parse (Step β α)} {x : β} (hinsists : ∀ x, Insists (turn x))
    {σ : Setting} {s t : Session} {r : α} (hbites : ∀ {step u}, s.scanner.token.faults ≠ [] →
      turn x σ s = some (step, u) → u.report.toList ≠ [])
    (hs : s.report.toList ≠ [] ∨ s.scanner.token.faults ≠ [])
    (h : Parse.loop turn x σ s = some (r, t)) : t.report.toList ≠ [] := by
  have hturn {step : Step β α} {u : Session} (h : turn x σ s = some (step, u)) : u.report.toList ≠ [] :=
    hs.elim (hinsists x σ s u step h) fun hfaults => hbites hfaults h
  have h : Parse.iterate turn (σ.turns - 1 + 1) x σ s = some (r, t) := h
  rcases iterate_succ h with h | ⟨y, u, hfirst, h⟩
  · exact hturn h
  · exact Insists.iterate hinsists _ y σ u t r h (hturn hfirst)

theorem repeatWhile_reports {turn : Parse Bool} (hinsists : Insists turn) {σ : Setting} {s t : Session}
    {r : Unit} (hbites : ∀ {b u}, s.scanner.token.faults ≠ [] → turn σ s = some (b, u) →
      u.report.toList ≠ [])
    (hs : s.report.toList ≠ [] ∨ s.scanner.token.faults ≠ [])
    (h : Parse.repeatWhile turn σ s = some (r, t)) : t.report.toList ≠ [] := by
  refine loop_reports (fun _ => .bind hinsists fun _ => .pure _) (fun hfaults hturn => ?_) hs h
  obtain ⟨b, u, hb, hturn⟩ := bind_eq_some.1 hturn
  obtain ⟨-, rfl⟩ := pure_eq_some.1 hturn
  exact hbites hfaults hb

/-- A group that is skipped is taken with its first token, or that token stays. -/
theorem skipGroup_complains {σ : Setting} {s t : Session} {n : Node}
    (hs : s.report.toList ≠ [] ∨ s.scanner.token.faults ≠ [])
    (h : Parse.skipGroup σ s = some (n, t)) : t.report.toList ≠ [] ∨ t.scanner.token.faults ≠ [] := by
  obtain ⟨d, u, hcollect, h⟩ := bind_eq_some.1 h
  obtain ⟨-, rfl⟩ := Prod.mk.inj (Option.some.inj h)
  obtain ⟨v, hbody, -, rfl⟩ := collect_eq_some.1 hcollect
  have hbody : (if (s.kind.isClose || s.kind == .endOfFile) = true then Pure.pure ()
      else Parse.loop Parse.skipNext 0 : Parse Unit) σ (s.withDraft (.ofKind .error)) = some ((), v) := hbody
  split at hbody
  · obtain ⟨-, rfl⟩ := pure_eq_some.1 hbody
    exact hs
  · next hopen =>
    left
    show v.report.toList ≠ []
    refine loop_reports (s := s.withDraft (.ofKind .error)) .skipNext (fun {step u} hfaults hturn => ?_)
      hs hbody
    have hne : s.kind ≠ .endOfFile := fun hend => hopen (by rw [hend]; rfl)
    have hturn : (if (s.kind == .endOfFile) = true then Pure.pure (Step.done ()) else do
        Parse.consume
        let nesting := if s.kind.isOpen then 1 else if s.kind.isClose then 0 - 1 else 0
        return if nesting == 0 then .done () else .again nesting : Parse (Step Nat Unit)) σ
          (s.withDraft (.ofKind .error)) = some (step, u) := hturn
    rw [if_neg (mt beq_iff_eq.1 hne)] at hturn
    obtain ⟨_, w, hconsume, hturn⟩ := bind_eq_some.1 hturn
    obtain ⟨-, rfl⟩ := pure_eq_some.1 hturn
    exact reports_of_consume (s := s.withDraft (.ofKind .error)) hne hfaults hconsume

theorem Complains.noExpression : Complains Grammar.noExpression := by
  intro σ s t r h
  obtain ⟨_, u, hreport, h⟩ := bind_eq_some.1 h
  have hu := Complains.reportExpected σ s u _ hreport
  have h : (if _ then _ else _ : Parse Node) σ u = some (r, t) := h
  split at h
  · obtain ⟨-, rfl⟩ := Prod.mk.inj (Option.some.inj h)
    exact hu
  · exact skipGroup_complains hu h

end Parse

end ConcreteSyntax
