import ConcreteSyntax.Proofs.Reading.Aside
import ConcreteSyntax.Proofs.Reading.Take

/-! # Orderly readings go onward

An orderly program that comes to an end arrives at the stage that its rules name, and it has gone
onward (`Orderly.arrives`). This is the first thing that follows from the rules; what else follows
uses it between one step and the next. -/

namespace ConcreteSyntax

open Parse

/-- A program that started at one stage ended at another. -/
structure Arrives (text : List Char) (st st' : Stage) (s s' : Session) : Prop where
  onward : s.Onward text s'
  fits : st'.Fits s'
  moved : st'.moved = true → st.moved = true ∨ s.offset < s'.offset
  /-- What was lost stays lost. -/
  lost : st.hand = .lost → st'.hand = .lost

theorem Hand.Becomes.lost_of_lost {h h' : Hand} {o : Bool} (hh : h.Becomes o h') (hl : h = .lost) :
    h' = .lost := by
  cases hh with
  | same => exact hl
  | lost => rfl
  | _ => exact nomatch hl

theorem Stage.Serves.fits {a b : Stage} (h : a.Serves b) {s : Session} (hf : a.Fits s) :
    b.Fits s where
  at? := fun c hc => by
    rcases h.at? with hn | he
    · rw [hn] at hc
      simp at hc
    · exact hf.at? c (he.trans hc)
  owed := fun ho => hf.owed (h.owed ho)

/-- A stage says nothing of the open draft itself. -/
theorem Stage.Fits.withDraft {h h' : Hand} {a : Option Kind} {m m' o : Bool} {F F' : Standing} {s : Session}
    (hf : Stage.Fits ⟨h, a, m, o, F⟩ s) (draft : Draft) :
    Stage.Fits ⟨h', a, m', o, F'⟩ (s.withDraft draft) :=
  ⟨hf.at?, hf.owed⟩

namespace Arrives

variable {text : List Char} {st st' st'' : Stage} {s s' s'' : Session}

theorem trans (h : Arrives text st st' s s') (h' : Arrives text st' st'' s' s'') :
    Arrives text st st'' s s'' where
  onward := h.onward.trans h'.onward
  fits := h'.fits
  moved := fun hm => by
    have hle := h.onward.le
    have hle' := h'.onward.le
    rcases h'.moved hm with hm' | hlt
    · rcases h.moved hm' with hm'' | hlt
      · exact .inl hm''
      · exact .inr (by omega)
    · exact .inr (by omega)
  lost := fun hl => h'.lost (h.lost hl)

theorem serves (h : Arrives text st st' s s') (hs : st'.Serves st'') :
    Arrives text st st'' s s' :=
  ⟨h.onward, hs.fits h.fits, fun hm => h.moved (hs.moved hm), fun hl => hs.hand.lost_of_lost (h.lost hl)⟩

theorem served (hs : st.Serves st') (h : Arrives text st' st'' s s') :
    Arrives text st st'' s s' :=
  ⟨h.onward, h.fits, fun hm => (h.moved hm).imp_left hs.moved,
    fun hl => h.lost (hs.hand.lost_of_lost hl)⟩

/-- A step that takes the current token. -/
theorem of_lt {h' : Hand} {a : Option Kind} {m m' o : Bool} {F : Standing} (hon : s.Onward text s')
    (hf : Stage.Fits ⟨.empty, a, m, o, F⟩ s) (hlt : s.offset < s'.offset) :
    Arrives text ⟨.empty, a, m, o, F⟩ ⟨h', none, m', o, F⟩ s s' :=
  ⟨hon, ⟨nofun, fun ho => hon.owed (hf.owed ho)⟩, fun _ => .inr hlt, nofun⟩

/-- A step that leaves the scanner, the report and the end of what was taken alone. -/
theorem of_same {h h' : Hand} {a : Option Kind} {m o : Bool} {F F' : Standing} (hs : s.Sound text)
    (hf : Stage.Fits ⟨h, a, m, o, F⟩ s) (hsc : s'.scanner = s.scanner)
    (hc : s'.consumedEnd = s.consumedEnd) (hr : s'.report = s.report)
    (hl : h = .lost → h' = .lost) :
    Arrives text ⟨h, a, m, o, F⟩ ⟨h', a, m, o, F'⟩ s s' where
  onward := .of_same hs hsc hc hr
  fits := ⟨fun c hc' => by simpa [Session.kind, hsc] using hf.at? c hc',
    fun ho => by simpa [Session.Owed, hsc, hr] using hf.owed ho⟩
  moved := .inl
  lost := hl

/-- A step that takes the current token, whatever it does to the open draft. -/
theorem of_taken {h' : Hand} {a : Option Kind} {m m' o : Bool} {F : Standing} {next : Admitted}
    (σ : Setting) (hn : next.ReadsLiterals) (hs : s.Sound text) (hk : s.kind ≠ .endOfFile)
    (hf : Stage.Fits ⟨.empty, a, m, o, F⟩ s) (hsc : s'.scanner = (s.taken σ next).scanner)
    (hc : s'.consumedEnd = (s.taken σ next).consumedEnd)
    (hr : s'.report = (s.taken σ next).report) :
    Arrives text ⟨.empty, a, m, o, F⟩ ⟨h', none, m', o, F⟩ s s' :=
  have hstep : Arrives text _ ⟨h', none, m', o, F⟩ s (s.taken σ next) :=
    of_lt (hs.onward_taken σ hn hk) hf (hs.taken_lt σ hn hk)
  hstep.trans (of_same hstep.onward.sound hstep.fits hsc hc hr id)

end Arrives

/-! ### Single steps -/

namespace Parse

/-- What an aside does to a session. -/
theorem Aside.beside {α : Type} {severe : Bool} {m : Parse α} (h : m.Aside severe) {σ : Setting}
    {s s' : Session} {r : α} (hrun : m σ s = some (r, s')) : s.Beside severe s' := by
  obtain ⟨r', t, hm, hb, -⟩ := h σ s
  obtain ⟨-, rfl⟩ := Prod.mk.inj (Option.some.inj ((hm _ _).symm.trans hrun))
  exact hb

theorem collect_eq_some {d filled : Draft} {body : Parse Unit} {σ : Setting} {s s' : Session} :
    collect d body σ s = some (filled, s') ↔
      ∃ t, body σ (s.withDraft d) = some ((), t) ∧ t.draft = filled ∧
        t.withDraft s.draft = s' := by
  constructor
  · intro h
    obtain ⟨outer, s₁, h₁, h⟩ := bind_eq_some.1 h
    obtain ⟨rfl, rfl⟩ := Prod.mk.inj (Option.some.inj h₁)
    obtain ⟨_, s₂, h₂, h⟩ := bind_eq_some.1 h
    obtain ⟨-, rfl⟩ := Prod.mk.inj (Option.some.inj h₂)
    obtain ⟨_, t, hbody, h⟩ := bind_eq_some.1 h
    refine ⟨t, hbody, ?_⟩
    obtain ⟨rfl, rfl⟩ := Prod.mk.inj (Option.some.inj h)
    exact ⟨rfl, rfl⟩
  · rintro ⟨t, hbody, rfl, rfl⟩
    exact bind_eq_some.2 ⟨_, _, rfl, bind_eq_some.2 ⟨_, _, rfl, bind_eq_some.2 ⟨_, t, hbody, rfl⟩⟩⟩

/-- A draft that is filled further and finished. -/
theorem resume_run {d : Draft} {body : Parse Unit} {σ : Setting} {s t : Session}
    (h : body σ (s.withDraft d) = some ((), t)) :
    resume d body σ s = some (t.draft.finish t.consumedEnd, t.withDraft s.draft) :=
  bind_eq_some.2 ⟨_, _, collect_eq_some.2 ⟨t, h, rfl, rfl⟩, rfl⟩

/-- A node whose body is run. -/
theorem node_run {kind : Kind} {body : Parse Unit} {σ : Setting} {s t : Session}
    (h : body σ (s.withDraft (.ofKind kind)) = some ((), t)) :
    node kind body σ s = some (t.draft.finish t.consumedEnd, t.withDraft s.draft) :=
  resume_run h

theorem node_eq_some {kind : Kind} {body : Parse Unit} {σ : Setting} {s s' : Session} {n : Node} :
    node kind body σ s = some (n, s') ↔
      ∃ t, body σ (s.withDraft (.ofKind kind)) = some ((), t) ∧
        t.draft.finish t.consumedEnd = n ∧ t.withDraft s.draft = s' := by
  constructor
  · intro h
    obtain ⟨filled, _, hcollect, hfinish⟩ := bind_eq_some.1 h
    obtain ⟨t, hbody, rfl, rfl⟩ := collect_eq_some.1 hcollect
    obtain ⟨rfl, rfl⟩ := Prod.mk.inj (Option.some.inj hfinish)
    exact ⟨t, hbody, rfl, rfl⟩
  · rintro ⟨t, hbody, rfl, rfl⟩
    exact node_run hbody

/-- How speculation ends: the reading failed here before, or it was tried and preferred, or it was
tried and the session is as it was, but for the memory of the failure. -/
theorem speculate_outcome {α : Type} {ambiguity : Ambiguity} {preferred : Parse (Option α)} {r : Option α}
    {σ : Setting} {s s' : Session} (h : speculate ambiguity preferred σ s = some (r, s')) :
    (r = none ∧ s' = s) ∨
    ∃ o t, preferred σ s = some (o, t) ∧
      ((∃ v, o = some v ∧ r = some v ∧ t.report.size = s.report.size ∧
          s' = { t with remarks := s'.remarks }) ∨
        (r = none ∧ s' = { s with
          declined := (s.offset, ambiguity) :: t.declined, remarks := s'.remarks })) := by
  obtain ⟨_, _, h₁, h⟩ := bind_eq_some.1 h
  obtain ⟨rfl, rfl⟩ := Prod.mk.inj (Option.some.inj h₁)
  obtain ⟨_, _, h₁, h⟩ := bind_eq_some.1 h
  obtain ⟨rfl, rfl⟩ := Prod.mk.inj (Option.some.inj h₁)
  split at h
  · obtain ⟨rfl, rfl⟩ := pure_eq_some.1 h
    exact .inl ⟨rfl, rfl⟩
  · obtain ⟨o, t, htried, h⟩ := bind_eq_some.1 h
    refine .inr ⟨o, t, htried, ?_⟩
    cases o with
    | none =>
      obtain ⟨_, u, hdecline, h⟩ := bind_eq_some.1 h
      obtain ⟨-, rfl⟩ := Prod.mk.inj (Option.some.inj hdecline)
      obtain ⟨rfl, rfl⟩ := pure_eq_some.1 h
      exact .inr ⟨rfl, rfl⟩
    | some v =>
      obtain ⟨_, _, h₁, h⟩ := bind_eq_some.1 h
      obtain ⟨rfl, rfl⟩ := Prod.mk.inj (Option.some.inj h₁)
      split at h
      · next hsize =>
        obtain ⟨_, u, hnote, h⟩ := bind_eq_some.1 h
        obtain ⟨-, rfl⟩ := Prod.mk.inj (Option.some.inj hnote)
        obtain ⟨rfl, rfl⟩ := pure_eq_some.1 h
        exact .inl ⟨v, rfl, rfl, eq_of_beq hsize, rfl⟩
      · obtain ⟨_, u, hdecline, h⟩ := bind_eq_some.1 h
        obtain ⟨-, rfl⟩ := Prod.mk.inj (Option.some.inj hdecline)
        obtain ⟨rfl, rfl⟩ := pure_eq_some.1 h
        exact .inr ⟨rfl, rfl⟩

theorem speculate_eq_some {α : Type} {ambiguity : Ambiguity} {preferred : Parse (Option α)}
    {r : Option α} {σ : Setting} {s s' : Session}
    (h : speculate ambiguity preferred σ s = some (r, s')) :
    (∃ v t, r = some v ∧ preferred σ s = some (some v, t) ∧ t.report.size = s.report.size ∧
      s' = { t with remarks := s'.remarks }) ∨
    (r = none ∧ s' = { s with declined := s'.declined, remarks := s'.remarks }) := by
  rcases speculate_outcome h with ⟨rfl, rfl⟩ | ⟨o, t, htried, ⟨v, rfl, rfl, hsize, he⟩ | ⟨rfl, he⟩⟩
  · exact .inr ⟨rfl, rfl⟩
  · exact .inl ⟨v, t, rfl, htried, hsize, he⟩
  · exact .inr ⟨rfl, by rw [he]⟩

/-- The kind under which a word is taken that the current token may spell. -/
def wordTaken (word : Kind) (σ : Setting) (s : Session) : Option Kind :=
  if word.wordText = some (s.scanner.tokenText σ.source) then some word else none

theorem takeWord_run (word : Kind) (σ : Setting) (s : Session) :
    takeWord word σ s = consumeWith none (wordTaken word σ s) .usual σ s := by
  show (if word.wordText = some (s.scanner.tokenText σ.source) then _ else _ : Parse Unit) σ s = _
  unfold wordTaken
  split
  · rfl
  · rfl

theorem guarded_eq (body : Parse Node) (σ : Setting) (s : Session) :
    guarded body σ s =
      if σ.depth < σ.options.maxDepth then body { σ with depth := σ.depth + 1 } s
      else skipNested σ s := by
  show (if σ.depth < σ.options.maxDepth then _ else _ : Parse Node) σ s = _
  split <;> rfl

theorem iterate_succ {α ρ : Type} {turn : α → Parse (Step α ρ)} {n : Nat} {state : α} {r : ρ}
    {σ : Setting} {s s' : Session} (h : iterate turn (n + 1) state σ s = some (r, s')) :
    turn state σ s = some (.done r, s') ∨
      ∃ x t, turn state σ s = some (.again x, t) ∧ iterate turn n x σ t = some (r, s') := by
  obtain ⟨_, _, h₁, h⟩ := bind_eq_some.1 h
  obtain ⟨rfl, rfl⟩ := Prod.mk.inj (Option.some.inj h₁)
  obtain ⟨step, t, hturn, h⟩ := bind_eq_some.1 h
  cases step with
  | done r' =>
    obtain ⟨rfl, rfl⟩ := pure_eq_some.1 h
    exact .inl hturn
  | again x =>
    obtain ⟨_, _, h₁, h⟩ := bind_eq_some.1 h
    obtain ⟨rfl, rfl⟩ := Prod.mk.inj (Option.some.inj h₁)
    obtain ⟨_, _, h₁, h⟩ := bind_eq_some.1 h
    obtain ⟨rfl, rfl⟩ := Prod.mk.inj (Option.some.inj h₁)
    split at h
    · exact nomatch h
    · exact .inr ⟨x, t, hturn, h⟩

end Parse

/-- The turns of a loop, by induction on how many may be left. -/
theorem iterate_arrives {text : List Char} {α ρ : Type} {turn : α → Parse (Step α ρ)} {σ : Setting}
    {again : α → Stage} {done : ρ → Stage}
    (hturn : ∀ {x s s' r}, s.Sound text → (again x).Fits s → turn x σ s = some (r, s') →
      Arrives text (again x) (afterTurn again (fun r => { done r with moved := false }) r) s s')
    (n : Nat) : ∀ {x s s' r}, s.Sound text → (again x).Fits s → iterate turn n x σ s = some (r, s') →
      Arrives text (again x) { done r with moved := false } s s' := by
  induction n with
  | zero => exact fun _ _ h => nomatch h
  | succ n ih =>
    intro x s s' r hsound hfit hrun
    rcases iterate_succ hrun with hrun | ⟨y, t, hrun, hrest⟩
    · exact hturn hsound hfit hrun
    · have h := hturn hsound hfit hrun
      have hfit' : (again y).Fits t := ⟨h.fits.at?, h.fits.owed⟩
      have hrest := ih h.onward.sound hfit' hrest
      exact ⟨h.onward.trans hrest.onward, hrest.fits, nofun, fun hl => hrest.lost (h.lost hl)⟩

/-! ### The statement -/

/-- A stage that does not know the current token asks nothing of it. -/
theorem Stage.fits_of_unknown {st : Stage} {s : Session} (ha : st.at? = none)
    (ho : st.owed = true → s.Owed) : st.Fits s :=
  ⟨fun c hc => by simp [ha] at hc, ho⟩

/-- An orderly program arrives where its rules say, if the grammar under it reads onward. -/
theorem Orderly.arrives {text : List Char} {g : Grammar} {k : Nat} {f : Bool} {α : Type}
    {st : Stage} {m : Parse α} {q : α → Stage} (hg : g.Leads text) (h : Orderly text g k f st m q) :
    ∀ {σ : Setting} {s s' : Session} {r : α}, s.Sound text → st.Fits s → m σ s = some (r, s') →
      Arrives text st (q r) s s' := by
  induction h with
  | pure hs =>
    intro σ s s' r hsound hfit hrun
    obtain ⟨rfl, rfl⟩ := pure_eq_some.1 hrun
    exact ⟨.refl hsound, hs.fits hfit, fun hm => .inl (hs.moved hm), hs.hand.lost_of_lost⟩
  | bind _ _ ih ih' =>
    intro σ s s' r hsound hfit hrun
    obtain ⟨a, t, hrun, hrun'⟩ := bind_eq_some.1 hrun
    have h := ih hsound hfit hrun
    exact h.trans (ih' a h.onward.sound h.fits hrun')
  | sure P hP _ _ ih ih' =>
    intro σ s s' r hsound hfit hrun
    obtain ⟨a, t, hrun, hrun'⟩ := bind_eq_some.1 hrun
    have h := ih hsound hfit hrun
    exact h.trans (ih' a (hP hsound hfit hrun) h.onward.sound h.fits hrun')
  | serve before _ after ih =>
    intro σ s s' r hsound hfit hrun
    exact (Arrives.served before (ih hsound (before.fits hfit) hrun)).serves (after r)
  | past _ ih =>
    intro σ s s' r hsound hfit hrun
    have h := ih hsound ⟨hfit.at?, hfit.owed⟩ hrun
    exact ⟨h.onward, ⟨h.fits.at?, h.fits.owed⟩, fun _ => .inl rfl, h.lost⟩
  | moves moved _ hm ih =>
    intro σ s s' r hsound hfit hrun
    have h := ih hsound hfit hrun
    refine ⟨h.onward, ⟨h.fits.at?, h.fits.owed⟩, fun hmoved => ?_, h.lost⟩
    rcases Bool.or_eq_true_iff.1 hmoved with hq | hr
    · exact h.moved hq
    · exact .inr (hm hg hsound hfit hrun hr)
  | look _ _ ih =>
    intro σ s s' r hsound hfit hrun
    obtain ⟨_, _, h₁, hrun⟩ := bind_eq_some.1 hrun
    obtain ⟨rfl, rfl⟩ := Prod.mk.inj (Option.some.inj h₁)
    have h := ih s (fun c hc => hfit.at? c hc) hsound
      ⟨fun c hc => Option.some.inj hc, hfit.owed⟩ hrun
    exact ⟨h.onward, h.fits, h.moved, h.lost⟩
  | aside hp =>
    intro σ s s' r hsound hfit hrun
    have hb := hp.beside hrun
    refine ⟨hb.onward hsound, ⟨fun c hc => ?_, fun ho => ?_⟩, .inl, id⟩
    · simpa [Session.kind, hb.scanner] using hfit.at? c hc
    · exact (Bool.or_eq_true_iff.1 ho).elim (fun ho => hb.owed_mono (hfit.owed ho)) hb.owed
  | flush =>
    intro σ s s' r hsound hfit hrun
    obtain ⟨rfl, rfl⟩ := Prod.mk.inj (Option.some.inj ((flush_run σ s).symm.trans hrun))
    exact ⟨hsound.onward_flushed σ, ⟨hfit.at?, hfit.owed⟩, .inl, id⟩
  | consumeWith hl has hn =>
    intro σ s s' r hsound hfit hrun
    obtain ⟨rfl, rfl⟩ := Prod.mk.inj (Option.some.inj ((consumeWith_run _ _ _ σ s).symm.trans hrun))
    split
    · exact ⟨.refl hsound, Stage.fits_of_unknown rfl hfit.owed, .inl, id⟩
    · next hk => exact .of_taken σ hn hsound hk hfit rfl rfl rfl
  | consumeWithAt hc hl has hn =>
    intro σ s s' r hsound hfit hrun
    obtain ⟨rfl, rfl⟩ := Prod.mk.inj (Option.some.inj ((consumeWith_run _ _ _ σ s).symm.trans hrun))
    have hk : s.kind ≠ .endOfFile := hfit.at? _ rfl ▸ hc
    rw [if_neg hk]
    exact .of_taken σ hn hsound hk hfit rfl rfl rfl
  | @takeWord _ word =>
    intro σ s s' r hsound hfit hrun
    rw [takeWord_run] at hrun
    obtain ⟨rfl, rfl⟩ := Prod.mk.inj (Option.some.inj ((consumeWith_run _ _ _ σ s).symm.trans hrun))
    split
    · exact ⟨.refl hsound, Stage.fits_of_unknown rfl hfit.owed, .inl, id⟩
    · next hk => exact .of_taken σ ⟨rfl, rfl⟩ hsound hk hfit rfl rfl rfl
  | takeWordAt hc =>
    intro σ s s' r hsound hfit hrun
    rw [takeWord_run] at hrun
    obtain ⟨rfl, rfl⟩ := Prod.mk.inj (Option.some.inj ((consumeWith_run _ _ _ σ s).symm.trans hrun))
    have hk : s.kind ≠ .endOfFile := hfit.at? _ rfl ▸ hc
    rw [if_neg hk]
    exact .of_taken σ ⟨rfl, rfl⟩ hsound hk hfit rfl rfl rfl
  | leaf hc has =>
    intro σ s s' r hsound hfit hrun
    have hk : s.kind ≠ .endOfFile := hfit.at? _ rfl ▸ hc
    obtain ⟨rfl, rfl⟩ := Prod.mk.inj (Option.some.inj ((leaf_run _ σ hk).symm.trans hrun))
    exact .of_taken σ ⟨rfl, rfl⟩ hsound hk hfit rfl rfl rfl
  | consumeNumber hc hn =>
    intro σ s s' r hsound hfit hrun
    have hk : s.kind ≠ .endOfFile := hfit.at? _ rfl ▸ hc
    obtain ⟨rfl, rfl⟩ := Prod.mk.inj (Option.some.inj ((consumeNumber_run _ σ hk).symm.trans hrun))
    exact .of_taken σ hn hsound hk hfit rfl rfl rfl
  | quotedLiteral hc =>
    intro σ s s' r hsound hfit hrun
    have hk : s.kind ≠ .endOfFile := by
      rw [hfit.at? _ rfl]
      rcases hc with rfl | rfl | rfl <;> decide
    by_cases hsuffix : (s.taken σ .afterLiteral).kind = .literalSuffix
    · obtain ⟨rfl, rfl⟩ :=
        Prod.mk.inj (Option.some.inj ((quotedLiteral_suffixed hk hsuffix).symm.trans hrun))
      have hfirst : Arrives text _ ⟨.empty, none, true, _, _⟩ s (unpacked σ s) :=
        .of_taken σ ⟨rfl, rfl⟩ hsound hk hfit rfl rfl rfl
      have hend : (unpacked σ s).kind ≠ .endOfFile := by
        show (s.taken σ .afterLiteral).kind ≠ .endOfFile
        rw [hsuffix]
        decide
      exact hfirst.trans
        (.of_taken σ ⟨rfl, rfl⟩ hfirst.onward.sound hend hfirst.fits rfl rfl rfl)
    · obtain ⟨rfl, rfl⟩ :=
        Prod.mk.inj (Option.some.inj ((quotedLiteral_bare hk hsuffix).symm.trans hrun))
      exact .of_taken σ ⟨rfl, rfl⟩ hsound hk hfit rfl rfl rfl
  | split hc =>
    intro σ s s' r hsound hfit hrun
    obtain ⟨rfl, rfl⟩ := Prod.mk.inj (Option.some.inj hrun)
    obtain ⟨hr, hkind⟩ := Scanner.split_reshaped hsound.scanner (hfit.at? _ rfl ▸ hc)
    exact ⟨.of_reshaped hsound hr, ⟨fun c hc => (Option.some.inj hc) ▸ hkind,
      fun ho => (Session.Onward.of_reshaped hsound hr).owed (hfit.owed ho)⟩, .inl, id⟩
  | operatorKind =>
    intro σ s s' r hsound hfit hrun
    obtain ⟨rfl, rfl⟩ := Prod.mk.inj (Option.some.inj hrun)
    have hon := Session.Onward.of_reshaped hsound (Scanner.joinGreater_reshaped hsound.scanner)
    exact ⟨hon, ⟨fun c hc => Option.some.inj hc, fun ho => hon.owed (hfit.owed ho)⟩, .inl, id⟩
  | pushChild =>
    intro σ s s' r hsound hfit hrun
    obtain ⟨rfl, rfl⟩ := Prod.mk.inj (Option.some.inj hrun)
    exact .of_same hsound hfit rfl rfl rfl (by rintro ⟨⟩)
  | pushAll =>
    intro σ s s' r hsound hfit hrun
    obtain ⟨rfl, rfl⟩ := Prod.mk.inj (Option.some.inj hrun)
    exact .of_same hsound hfit rfl rfl rfl (by rintro ⟨⟩)
  | setKind =>
    intro σ s s' r hsound hfit hrun
    obtain ⟨rfl, rfl⟩ := Prod.mk.inj (Option.some.inj hrun)
    exact .of_same hsound hfit rfl rfl rfl id
  | failDraft =>
    intro σ s s' r hsound hfit hrun
    obtain ⟨rfl, rfl⟩ := Prod.mk.inj (Option.some.inj hrun)
    exact .of_same hsound hfit rfl rfl rfl id
  | collect hk _ ih =>
    intro σ s s' r hsound hfit hrun
    obtain ⟨t, hbody, rfl, rfl⟩ := collect_eq_some.1 hrun
    have h := ih (hsound.withDraft _) (.withDraft hfit _) hbody
    exact ⟨⟨h.onward.sound.withDraft _, h.onward.le, h.onward.steady, h.onward.report,
      h.onward.owed⟩, .withDraft h.fits _, h.moved, fun hl => by cases h.lost hl⟩
  | refill _ ih =>
    intro σ s s' r hsound hfit hrun
    obtain ⟨t, hbody, rfl, rfl⟩ := collect_eq_some.1 hrun
    have h := ih (hsound.withDraft _) (.withDraft hfit _) hbody
    exact ⟨⟨h.onward.sound.withDraft _, h.onward.le, h.onward.steady, h.onward.report,
      h.onward.owed⟩, .withDraft h.fits _, h.moved, by rintro ⟨⟩⟩
  | finish =>
    intro σ s s' r hsound hfit hrun
    obtain ⟨rfl, rfl⟩ := Prod.mk.inj (Option.some.inj hrun)
    exact .of_same hsound hfit rfl rfl rfl (by rintro ⟨⟩)
  | missing =>
    intro σ s s' r hsound hfit hrun
    obtain ⟨rfl, rfl⟩ := Prod.mk.inj (Option.some.inj hrun)
    exact .of_same hsound hfit rfl rfl rfl (by rintro ⟨⟩)
  | restricted _ ih => exact fun hsound hfit hrun => ih hsound hfit hrun
  | guarded hh _ _ ih ih' =>
    intro σ s s' r hsound hfit hrun
    rw [guarded_eq] at hrun
    split at hrun
    · exact ih hsound hfit hrun
    · obtain ⟨_, t, hreport, hrun⟩ := bind_eq_some.1 hrun
      have hb := aside_reportLimit.beside hreport
      have hon := hb.onward hsound
      have hkind : t.kind = s.kind := congrArg Scanner.kind hb.scanner
      have h := ih' hon.sound ⟨fun c hc => hkind.trans (hfit.at? c hc), fun _ => hb.owed rfl⟩ hrun
      refine ⟨hon.trans h.onward, h.fits, fun hm => (h.moved hm).imp_right fun hlt => ?_,
        fun hl => by rw [hl] at hh; exact hh.elim⟩
      exact Nat.lt_of_le_of_lt hon.le hlt
  | speculate _ ih =>
    intro σ s s' r hsound hfit hrun
    rcases speculate_eq_some hrun with ⟨v, t, rfl, htried, -, he⟩ | ⟨rfl, he⟩
    · have h := ih hsound hfit htried
      rw [he]
      exact ⟨⟨⟨h.onward.sound.1, h.onward.sound.2⟩, h.onward.le, h.onward.steady, h.onward.report,
        h.onward.owed⟩, ⟨h.fits.at?, h.fits.owed⟩, h.moved, h.lost⟩
    · rw [he]
      exact ⟨.of_same hsound rfl rfl rfl, ⟨hfit.at?, hfit.owed⟩, .inl, id⟩
  | @loop _ _ _ turn _ _ again done hst hagain _ _ ih ih' =>
    intro σ s s' r hsound hfit hrun
    obtain ⟨n, hrun⟩ : ∃ n, iterate turn (n + 1) _ σ s = some (r, s') := ⟨_, hrun⟩
    rcases iterate_succ hrun with hturn | ⟨y, t, hturn, hrun⟩
    · exact ih hsound hfit hturn
    · have h := ih hsound hfit hturn
      have hlt : s.offset < t.offset := (h.moved rfl).resolve_left (by simp [hst])
      have hrest := iterate_arrives (fun hs hf hr => ih' _ hs hf hr) n h.onward.sound
        ⟨h.fits.at?, h.fits.owed⟩ hrun
      have hle := hrest.onward.le
      exact ⟨h.onward.trans hrest.onward, ⟨hrest.fits.at?, hrest.fits.owed⟩,
        fun _ => .inr (by omega), fun hl => hrest.lost (h.lost hl)⟩
  | call hr hn =>
    intro σ s s' r hsound hfit hrun
    obtain ⟨hon, -⟩ := hg hsound hrun
    exact ⟨hon, Stage.fits_of_unknown rfl fun ho => hon.owed (hfit.owed ho), .inl, by rintro ⟨⟩⟩
  | callAt hr hc =>
    intro σ s s' r hsound hfit hrun
    obtain ⟨hon, hlt⟩ := hg hsound hrun
    exact .of_lt hon hfit (hlt (hfit.at? _ rfl ▸ hc))

end ConcreteSyntax
