import ConcreteSyntax.Proofs.Grammar.Production
import ConcreteSyntax.Proofs.Reading.Invariant

/-! # Outcomes up to the limit of nesting

What a program gives where the limit of nesting is not met (`Parse.Gives`). A reading that has met
the limit never gets rid of it (`Parse.Advances`), so a statement about a whole reading in which the
limit plays no part may be proved step by step, each step with the limit as a way out. -/

namespace ConcreteSyntax

open Parse

variable {text : List Char} {α β : Type}

/-- The limit of nesting was met on the way here. -/
def Session.Limited (text : List Char) (s : Session) : Prop :=
  s.Sound text ∧ s.report.isLimited = true

theorem Session.Limited.onward {s s' : Session} (h : s.Limited text) (hs : s.Onward text s') :
    s'.Limited text :=
  ⟨hs.sound, hs.report.isLimited h.2⟩

namespace Parse

/-! ### Going on from anywhere -/

/-- A program that reads onward wherever it starts. -/
def Advances (text : List Char) (m : Parse α) : Prop :=
  ∀ σ s s' r, s.Sound text → m σ s = some (r, s') → s.Onward text s'

theorem Advances.of_orderly {g : Grammar} {k : Nat} {f : Bool} {h : Hand} {F : Standing} {m : Parse α}
    {q : α → Stage} (hg : g.Leads text)
    (hm : Orderly text g k f ⟨h, none, false, false, F⟩ m q) : m.Advances text :=
  fun _ _ _ _ hs hrun => (hm.arrives hg hs ⟨nofun, nofun⟩ hrun).onward

/-- A program that a rule of the grammar is for. -/
theorem Advances.of_rule (depth : Nat) {h : Hand} {m : Parse α} {q : α → Stage}
    (hm : Orderly text (.upTo depth) 0 true ⟨h, none, false, false, .proper⟩ m q) :
    m.Advances text :=
  .of_orderly (Grammar.leads_upTo text depth) hm

theorem Advances.pure (r : α) : Advances text (pure r : Parse α) := by
  intro σ s s' r' hs hrun
  obtain ⟨-, rfl⟩ := pure_eq_some.1 hrun
  exact .refl hs

theorem Advances.bind {m : Parse α} {K : α → Parse β} (hm : m.Advances text)
    (hK : ∀ a, (K a).Advances text) : (m >>= K).Advances text := by
  intro σ s s' r hs hrun
  obtain ⟨a, t, hrun, hrest⟩ := bind_eq_some.1 hrun
  have hs' := hm σ s t a hs hrun
  exact hs'.trans (hK a σ t s' r hs'.sound hrest)

theorem Advances.iterate {σ' ρ : Type} {turn : σ' → Parse (Step σ' ρ)}
    (h : ∀ x, (turn x).Advances text) (n : Nat) : ∀ x, (iterate turn n x).Advances text := by
  induction n with
  | zero =>
    intro x σ s s' r hs hrun
    exact nomatch hrun
  | succ n ih =>
    intro x σ s s' r hs hrun
    rcases iterate_succ hrun with hrun | ⟨y, t, hrun, hrest⟩
    · exact h x σ s s' _ hs hrun
    · have ht := h x σ s t _ hs hrun
      exact ht.trans (ih y σ t s' r ht.sound hrest)

/-- Where the limit is met, that is reported before anything is skipped. -/
theorem skipNested_limited {σ : Setting} {s s' : Session} {n : Node} (hs : s.Sound text)
    (hrun : skipNested σ s = some (n, s')) :
    ∃ t, reportLimit σ s = some ((), t) ∧ t.Limited text ∧ t.Onward text s' := by
  obtain ⟨_, t, hreport, hskip⟩ := bind_eq_some.1 hrun
  have ht := aside_reportLimit.beside hreport
  have hlimit : t.Limited text := ⟨(ht.onward hs).sound, reportLimit_isLimited hreport⟩
  -- what is skipped asks the grammar for nothing
  have hread : Orderly text (.upTo 0) 0 true ⟨.empty, none, false, true, .proper⟩ skipGroup
      fun n => ⟨.node n, none, false, true, .proper⟩ := .skipGroup
  have hfit : Stage.Fits ⟨.empty, none, false, true, .proper⟩ t := ⟨nofun, fun _ => ht.owed rfl⟩
  exact ⟨t, hreport, hlimit,
    (hread.arrives (Grammar.leads_upTo text 0) hlimit.1 hfit hskip).onward⟩

/-- The turn of a loop that goes on for as long as it is asked to. -/
def asking (turn : Parse Bool) (_ : Unit) : Parse (Step Unit Unit) :=
  return if ← turn then .again () else .done ()

/-! ### Outcomes -/

/-- What a program gives at a session, unless it meets the limit of nesting. -/
def Gives (text : List Char) (σ : Setting) (m : Parse α) (s : Session) (P : α → Session → Prop) :
    Prop :=
  ∀ r s', m σ s = some (r, s') → s'.Limited text ∨ P r s'

namespace Gives

variable {σ : Setting} {m : Parse α} {s t : Session} {P Q : α → Session → Prop}

theorem pure {r : α} (h : P r s) : Gives text σ (pure r) s P := by
  intro r' s' hrun
  obtain ⟨rfl, rfl⟩ := pure_eq_some.1 hrun
  exact .inr h

theorem mono (h : Gives text σ m s P) (hPQ : ∀ r s', P r s' → Q r s') : Gives text σ m s Q :=
  fun r s' hrun => (h r s' hrun).imp_right (hPQ r s')

/-- A program whose run is known. -/
theorem of_run {r : α} (h : m σ s = some (r, t)) (hP : P r t) : Gives text σ m s P := by
  intro r' s' hrun
  obtain ⟨rfl, rfl⟩ := Prod.mk.inj (Option.some.inj (h.symm.trans hrun))
  exact .inr hP

/-- A first step whose run is known. -/
theorem step {a : α} {K : α → Parse β} {Q : β → Session → Prop} (h : m σ s = some (a, t))
    (hK : Gives text σ (K a) t Q) : Gives text σ (m >>= K) s Q := by
  intro r s' hrun
  obtain ⟨a', t', hm, hrest⟩ := bind_eq_some.1 hrun
  obtain ⟨rfl, rfl⟩ := Prod.mk.inj (Option.some.inj (h.symm.trans hm))
  exact hK r s' hrest

/-- A first step that may meet the limit, before others that read onward. -/
theorem bind {K : α → Parse β} {Q : β → Session → Prop} (h : Gives text σ m s P)
    (hadvance : ∀ a, (K a).Advances text) (hK : ∀ a t, P a t → Gives text σ (K a) t Q) :
    Gives text σ (m >>= K) s Q := by
  intro r s' hrun
  obtain ⟨a, t, hm, hrest⟩ := bind_eq_some.1 hrun
  rcases h a t hm with hl | hP
  · exact .inl (hl.onward (hadvance a σ t s' r hl.1 hrest))
  · exact hK a t hP r s' hrest

/-- A first step that may meet the limit, before one whose runs are known. -/
theorem andThen {K : α → Parse β} {Q : β → Session → Prop} (h : Gives text σ m s P)
    (hK : ∀ a t, ∃ r t', K a σ t = some (r, t') ∧ t'.scanner = t.scanner ∧
      t'.consumedEnd = t.consumedEnd ∧ t'.report = t.report ∧ (P a t → Q r t')) :
    Gives text σ (m >>= K) s Q := by
  intro r s' hrun
  obtain ⟨a, t, hm, hrest⟩ := bind_eq_some.1 hrun
  obtain ⟨r', t', hrun', hsc, hc, hr, hQ⟩ := hK a t
  obtain ⟨rfl, rfl⟩ := Prod.mk.inj (Option.some.inj (hrun'.symm.trans hrest))
  exact (h a t hm).imp (fun hl => hl.onward (.of_same hl.1 hsc hc hr)) hQ

theorem field {label : Field} {body : Parse Node} {P : Node → Session → Prop}
    {Q : Unit → Session → Prop} (h : Gives text σ body s P)
    (hQ : ∀ n t, P n t → Q () (t.withDraft (t.draft.pushField label n))) :
    Gives text σ (Parse.field label body) s Q :=
  h.andThen fun n t => ⟨_, _, rfl, rfl, rfl, rfl, hQ n t⟩

theorem child {body : Parse Node} {P : Node → Session → Prop} {Q : Unit → Session → Prop}
    (h : Gives text σ body s P) (hQ : ∀ n t, P n t → Q () (t.withDraft (t.draft.push n))) :
    Gives text σ (Parse.child body) s Q :=
  h.andThen fun n t => ⟨_, _, rfl, rfl, rfl, rfl, hQ n t⟩

/-- A node whose body is known by what it leaves in the draft. -/
theorem node {kind : Kind} {body : Parse Unit} {Q : Node → Session → Prop}
    (h : Gives text σ body (s.withDraft (.ofKind kind)) fun _ t =>
      Q (t.draft.finish t.consumedEnd) (t.withDraft s.draft)) :
    Gives text σ (Parse.node kind body) s Q := by
  intro n s' hrun
  obtain ⟨u, hbody, rfl, rfl⟩ := node_eq_some.1 hrun
  exact (h () u hbody).imp_left fun hl => ⟨hl.1.withDraft _, hl.2⟩

/-- A level deeper, where the limit is not met. -/
theorem guarded {body : Parse Node} {Q : Node → Session → Prop} (hs : s.Sound text)
    (h : Gives text { σ with depth := σ.depth + 1 } body s Q) :
    Gives text σ (Parse.guarded body) s Q := by
  intro n s' hrun
  rw [guarded_eq] at hrun
  split at hrun
  · exact h n s' hrun
  · obtain ⟨t, -, hlimit, honward⟩ := skipNested_limited hs hrun
    exact .inl (hlimit.onward honward)

/-- A loop, by its first turn. -/
theorem iterate {σ' ρ : Type} {turn : σ' → Parse (Step σ' ρ)} {x : σ'} {n : Nat}
    {Q : ρ → Session → Prop} (hadvance : ∀ x, (turn x).Advances text)
    (h : Gives text σ (turn x) s fun step t =>
      match step with
      | .done r => Q r t
      | .again y => ∀ n, Gives text σ (Parse.iterate turn n y) t Q) :
    Gives text σ (Parse.iterate turn n x) s Q := by
  intro r s' hrun
  cases n with
  | zero => exact nomatch hrun
  | succ n =>
    rcases iterate_succ hrun with hrun | ⟨y, t, hturn, hrest⟩
    · exact h _ s' hrun
    · rcases h _ t hturn with hl | hn
      · exact .inl (hl.onward (Advances.iterate hadvance n y σ t s' r hl.1 hrest))
      · exact hn n r s' hrest

theorem loop {σ' ρ : Type} {turn : σ' → Parse (Step σ' ρ)} {x : σ'} {Q : ρ → Session → Prop}
    (h : ∀ n, Gives text σ (Parse.iterate turn n x) s Q) :
    Gives text σ (Parse.loop turn x) s Q := by
  intro r s' hrun
  obtain ⟨_, _, hread, hrun⟩ := bind_eq_some.1 hrun
  obtain ⟨rfl, rfl⟩ := Prod.mk.inj (Option.some.inj hread)
  exact h _ r s' hrun

/-- A loop that goes on from what a first step gives. -/
theorem thenLoop {ρ : Type} {m : Parse α} {turn : α → Parse (Step α ρ)} {Q : ρ → Session → Prop}
    (h : ∀ n, Gives text σ (m >>= Parse.iterate turn n) s Q) :
    Gives text σ (m >>= Parse.loop turn) s Q := by
  intro r s' hrun
  obtain ⟨x, t, hm, hloop⟩ := bind_eq_some.1 hrun
  obtain ⟨_, _, hread, hloop⟩ := bind_eq_some.1 hloop
  obtain ⟨rfl, rfl⟩ := Prod.mk.inj (Option.some.inj hread)
  exact h _ r s' (bind_eq_some.2 ⟨x, t, hm, hloop⟩)

/-- A turn of a loop that asks for another one. -/
theorem askAgain {turn : Parse Bool} {n : Nat} {P : Session → Prop} {Q : Unit → Session → Prop}
    (hadvance : turn.Advances text) (h : Gives text σ turn s fun more t => more = true ∧ P t)
    (hrest : ∀ t, P t → ∀ n, Gives text σ (Parse.iterate (asking turn) n ()) t Q) :
    Gives text σ (Parse.iterate (asking turn) n ()) s Q := by
  refine .iterate (fun _ => hadvance.bind fun _ => .pure _) (.bind h (fun _ => .pure _) ?_)
  rintro _ t ⟨rfl, hP⟩
  exact .pure (hrest t hP)

/-- The last turn of a loop that asks. -/
theorem askNoMore {turn : Parse Bool} {n : Nat} {Q : Unit → Session → Prop}
    (hadvance : turn.Advances text) (h : turn σ s = some (false, t)) (hQ : Q () t) :
    Gives text σ (Parse.iterate (asking turn) n ()) s Q :=
  .iterate (fun _ => hadvance.bind fun _ => .pure _) (.step h (.pure hQ))

/-- A loop that asks for one more turn after the first, which is the last. -/
theorem repeatTwice {turn : Parse Bool} {P Q : Session → Prop} (hadvance : turn.Advances text)
    (hfirst : Gives text σ turn s fun more t => more = true ∧ P t)
    (hlast : ∀ t, P t → ∃ t', turn σ t = some (false, t') ∧ Q t') :
    Gives text σ (repeatWhile turn) s fun _ t => Q t := by
  refine .loop fun _ => .askAgain hadvance hfirst fun t hP _ => ?_
  obtain ⟨t', hrun, hQ⟩ := hlast t hP
  exact .askNoMore hadvance hrun hQ

end Gives

end Parse

end ConcreteSyntax
