import ConcreteSyntax.Proofs.Grammar.Production

/-! # Orderly readings come to an end

An orderly program has an outcome, and a reading that watches for circles has the same one
(`Orderly.answers`). A nonterminal is called at a later token than the one where its caller began,
or at that token with a lower rank, so the length of the rest of the text and the rank bound how
deep the calls go; a loop that goes on has moved on. -/

namespace ConcreteSyntax

open Parse
open Text (byteLength)

/-! ### Outcomes -/

/-- No nonterminal is open, at a place from which only ranks below `k` may be called, that one of
those could be again. From `first` on all may be called. -/
def Clear (first k : Nat) (opened : List (Nonterminal × Nat)) : Prop :=
  ∀ p ∈ opened, p.2 + 1 < first ∨ p.2 + 1 = first ∧ k ≤ p.1.rank

/-- The program has an outcome, the same one if the reading watches with nothing open in its way. -/
def Parse.Answers {α : Type} (first k : Nat) (m : Parse α) (σ : Setting) (s : Session) : Prop :=
  ∃ r s', ∀ watches opened, (watches = true → Clear first k opened) →
    m (σ.watching watches opened) s = some (r, s')

namespace Parse.Answers

variable {α β : Type} {first k : Nat} {m : Parse α} {σ : Setting} {s : Session}

/-- An outcome that does not depend on what is open. -/
theorem of_eq {r : α} {s' : Session}
    (h : ∀ watches opened, m (σ.watching watches opened) s = some (r, s')) :
    Answers first k m σ s :=
  ⟨r, s', fun watches opened _ => h watches opened⟩

/-- An outcome that is known for every setting and does not depend on what is open. -/
theorem of_run {out : Setting → α × Session} (h : ∀ σ, m σ s = some (out σ))
    (hout : ∀ watches opened, out (σ.watching watches opened) = out σ) : Answers first k m σ s :=
  of_eq fun watches opened => (h _).trans (congrArg some (hout watches opened))

theorem bind {K : α → Parse β} (hm : Answers first k m σ s)
    (hK : ∀ {r t}, m (σ.watching false []) s = some (r, t) → Answers first k (K r) σ t) :
    Answers first k (m >>= K) σ s := by
  obtain ⟨r, t, hm⟩ := hm
  obtain ⟨r', s', hK⟩ := hK (hm false [] nofun)
  exact ⟨r', s', fun watches opened hc =>
    bind_eq_some.2 ⟨r, t, hm watches opened hc, hK watches opened hc⟩⟩

theorem collect {d : Draft} {body : Parse Unit} (h : Answers first k body σ (s.withDraft d)) :
    Answers first k (collect d body) σ s := by
  obtain ⟨_, t, h⟩ := h
  exact ⟨t.draft, t.withDraft s.draft, fun watches opened hc =>
    collect_eq_some.2 ⟨t, h watches opened hc, rfl, rfl⟩⟩

theorem look {K : Session → Parse α} (h : Answers first k (K s) σ s) :
    Answers first k (get >>= K) σ s :=
  h

/-- What is read of the setting is not whether the reading watches. -/
theorem ask {K : Setting → Parse α} (hK : ∀ watches opened, K (σ.watching watches opened) = K σ)
    (h : Answers first k (K σ) σ s) : Answers first k (read >>= K) σ s := by
  obtain ⟨r, s', h⟩ := h
  refine ⟨r, s', fun watches opened hc => ?_⟩
  show K (σ.watching watches opened) _ s = _
  rw [hK]
  exact h watches opened hc

theorem speculate {ambiguity : Ambiguity} {preferred : Parse (Option α)}
    (h : Answers first k preferred σ s) : Answers first k (speculate ambiguity preferred) σ s := by
  refine look (ask (fun _ _ => rfl) ?_)
  split
  · exact of_eq fun _ _ => rfl
  · refine bind h fun {v t} _ => ?_
    cases v with
    | none => exact of_eq fun _ _ => rfl
    | some v =>
      refine look ?_
      split
      · exact of_eq fun _ _ => rfl
      · exact of_eq fun _ _ => rfl

theorem guarded {body : Parse Node}
    (inside : Answers first k body { σ with depth := σ.depth + 1 } s)
    (limit : Answers first k skipNested σ s) : Answers first k (guarded body) σ s := by
  refine ask (fun _ _ => rfl) ?_
  split
  · exact inside
  · exact limit

end Parse.Answers

/-! ### Loops -/

section Loops

variable {text : List Char} {first k : Nat} {α ρ : Type} {turn : α → Parse (Step α ρ)}
  {σ : Setting} {ready : α → Session → Prop}

/-- Where a turn leads from `s`: to a later place that is ready for another one, if one follows. -/
def Follows (text : List Char) (ready : α → Session → Prop) (s : Session) :
    Step α ρ → Session → Prop
  | .again y, t => s.offset < t.offset ∧ t.Sound text ∧ ready y t
  | .done _, _ => True

/-- What is asked of a turn of a loop. -/
def TurnAnswers (text : List Char) (first k : Nat) (turn : α → Parse (Step α ρ)) (σ : Setting)
    (ready : α → Session → Prop) (x : α) (s : Session) : Prop :=
  Answers first k (turn x) σ s ∧
    ∀ {r t}, turn x (σ.watching false []) s = some (r, t) → Follows text ready s r t

/-- The turns of a loop come to an end, by induction on how many may be left: each one that is not
the last takes a byte of the rest of the text. -/
theorem Parse.Answers.iterate
    (hturn : ∀ {x s}, s.Sound text → ready x s → TurnAnswers text first k turn σ ready x s)
    (n : Nat) : ∀ {x s}, byteLength text - s.offset < n →
      TurnAnswers text first k turn σ ready x s → Answers first k (iterate turn n x) σ s := by
  induction n with
  | zero => exact fun h => absurd h (Nat.not_lt_zero _)
  | succ n ih =>
    intro x s hn ⟨⟨r, t, hrun⟩, hnext⟩
    cases r with
    | done r =>
      exact ⟨r, t, fun watches opened hc =>
        bind_eq_some.2 ⟨s, s, rfl, bind_eq_some.2 ⟨_, t, hrun watches opened hc, rfl⟩⟩⟩
    | again y =>
      obtain ⟨hlt, hsound, hready⟩ := hnext (hrun false [] nofun)
      have hle := hsound.offset_le
      obtain ⟨r, s', hrest⟩ := ih (show byteLength text - t.offset < n by omega)
        (hturn hsound hready)
      refine ⟨r, s', fun watches opened hc => bind_eq_some.2 ⟨s, s, rfl,
        bind_eq_some.2 ⟨_, t, hrun watches opened hc, bind_eq_some.2 ⟨_, t, rfl,
          bind_eq_some.2 ⟨t, t, rfl, ?_⟩⟩⟩⟩⟩
      rw [if_neg (by simpa using fun _ => hlt)]
      exact hrest watches opened hc

/-- A loop may take more turns than the rest of the text has bytes. -/
theorem Parse.Answers.loop {state : α} {s : Session} (hσ : σ.source.toList = text)
    (hturn : ∀ {x s}, s.Sound text → ready x s → TurnAnswers text first k turn σ ready x s)
    (hfirst : TurnAnswers text first k turn σ ready state s) :
    Answers first k (loop turn state) σ s := by
  have hlen := Text.byteLength_toList σ.source
  have hturns : byteLength text - s.offset < σ.turns := by
    rw [hσ] at hlen
    unfold Setting.turns
    omega
  exact .ask (fun _ _ => rfl) (.iterate hturn _ hturns hfirst)

/-- A turn that arrives at another one was followed by it. -/
theorem Arrives.follows {again : α → Stage} {done : ρ → Stage} {st : Stage} {r : Step α ρ}
    {s t : Session} (h : Arrives text st (afterTurn again done r) s t) (hm : st.moved = false)
    (hready : ∀ {y}, s.offset < t.offset → (again y).Fits t → ready y t) :
    Follows text ready s r t := by
  cases r with
  | again y =>
    have hlt : s.offset < t.offset := (h.moved rfl).resolve_left (by simp [hm])
    exact ⟨hlt, h.onward.sound, hready hlt ⟨h.fits.at?, h.fits.owed⟩⟩
  | done => trivial

end Loops

/-! ### The statement -/

/-- The most calls inside one another that a place allows from which only ranks below `k` may be
called, and all from `first` on. -/
def callsFrom (text : List Char) (first k : Nat) : Nat := 3 * (byteLength text + 1 - first) + k

/-- A grammar of some depth has an outcome wherever a nonterminal may be called. -/
def Grammar.Answers (text : List Char) (depth : Nat) (g : Grammar) : Prop :=
  ∀ {nonterminal : Nonterminal} {σ : Setting} {s : Session}, σ.source.toList = text →
    s.Sound text → nonterminal.needsToken = false ∨ nonterminal.takes s.kind = true →
    callsFrom text (s.offset + 1) nonterminal.rank < depth →
    ∃ n s', ∀ watches opened, (watches = true → ∀ p ∈ opened,
        p.2 < s.offset ∨ p.2 = s.offset ∧ nonterminal.rank < p.1.rank) →
      g.parse nonterminal (σ.watching watches opened) s = some (n, s')

theorem Nonterminal.rank_le (nonterminal : Nonterminal) : nonterminal.rank ≤ 2 := by
  cases nonterminal <;> simp [rank]

/-- A nonterminal may be called at a later token, or at the first one if its rank is lower. -/
theorem Grammar.Answers.call {text : List Char} {depth : Nat} {g : Grammar}
    (hg : g.Answers text depth) {nonterminal : Nonterminal} {σ : Setting} {s : Session}
    (hσ : σ.source.toList = text) (hsound : s.Sound text)
    (hn : nonterminal.needsToken = false ∨ nonterminal.takes s.kind = true) {first k : Nat}
    (hd : callsFrom text first k ≤ depth) (hle : first ≤ s.offset + 1)
    (hr : first ≤ s.offset ∨ nonterminal.rank < k) :
    Parse.Answers first k (g.parse nonterminal) σ s := by
  have hrank := nonterminal.rank_le
  have hend := hsound.offset_le
  have hdepth : callsFrom text (s.offset + 1) nonterminal.rank < depth := by
    unfold callsFrom at hd ⊢
    omega
  obtain ⟨n, s', hrun⟩ := hg hσ hsound hn hdepth
  refine ⟨n, s', fun watches opened hc => hrun watches opened fun hw p hp => ?_⟩
  have := hc hw p hp
  omega

/-- **An orderly program comes to an end**, if the grammar under it does, and a reading that watches
for circles finds none. -/
theorem Orderly.answers {text : List Char} {g : Grammar} {depth k : Nat} {f : Bool} {α : Type}
    {st : Stage} {m : Parse α} {q : α → Stage} (hl : g.Leads text) (hg : g.Answers text depth)
    (h : Orderly text g k f st m q) :
    ∀ {σ : Setting} {s : Session} {first : Nat}, σ.source.toList = text → s.Sound text →
      st.Fits s → callsFrom text first k ≤ depth → first ≤ s.offset + 1 →
      (f = true ∨ st.moved = true → first ≤ s.offset) → Answers first k m σ s := by
  induction h with
  | pure => exact fun _ _ _ _ _ _ => .of_eq fun _ _ => rfl
  | bind first _ ih ih' =>
    intro σ s from' hσ hsound hfit hd hle hfree
    refine (ih hσ hsound hfit hd hle hfree).bind fun {r t} hrun => ?_
    have h := first.arrives hl hsound hfit hrun
    have hon := h.onward.le
    refine ih' r hσ h.onward.sound h.fits hd (by omega) fun hf => ?_
    rcases hf with hf | hm
    · have := hfree (.inl hf)
      omega
    · rcases h.moved hm with hm | hlt
      · have := hfree (.inr hm)
        omega
      · omega
  | sure P hP first _ ih ih' =>
    intro σ s from' hσ hsound hfit hd hle hfree
    refine (ih hσ hsound hfit hd hle hfree).bind fun {r t} hrun => ?_
    have h := first.arrives hl hsound hfit hrun
    have hon := h.onward.le
    refine ih' r (hP hsound hfit hrun) hσ h.onward.sound h.fits hd (by omega) fun hf => ?_
    rcases hf with hf | hm
    · have := hfree (.inl hf)
      omega
    · rcases h.moved hm with hm | hlt
      · have := hfree (.inr hm)
        omega
      · omega
  | serve before _ _ ih =>
    intro σ s first hσ hsound hfit hd hle hfree
    exact ih hσ hsound (before.fits hfit) hd hle fun hf => hfree (hf.imp_right before.moved)
  | past _ ih =>
    intro σ s first hσ hsound hfit hd hle hfree
    exact ih hσ hsound ⟨hfit.at?, hfit.owed⟩ hd hle fun _ => hfree (.inr rfl)
  | moves _ _ _ ih => exact fun hσ hsound hfit hd hle hfree => ih hσ hsound hfit hd hle hfree
  | look _ _ ih =>
    intro σ s first hσ hsound hfit hd hle hfree
    exact .look (ih s (fun c hc => hfit.at? c hc) hσ hsound
      ⟨fun c hc => Option.some.inj hc, hfit.owed⟩ hd hle hfree)
  | aside hp =>
    intro σ s first _ _ _ _ _ _
    obtain ⟨r, s', hrun, -⟩ := hp σ s
    exact .of_eq hrun
  | flush => exact fun {σ s _} _ _ _ _ _ _ => .of_run (fun σ => flush_run σ s) fun _ _ => rfl
  | consumeWith | consumeWithAt =>
    exact fun {σ s _} _ _ _ _ _ _ =>
      .of_run (fun σ => consumeWith_run _ _ _ σ s) fun _ _ => rfl
  | @takeWord _ word | @takeWordAt _ word =>
    exact fun {σ s _} _ _ _ _ _ _ =>
      .of_run (fun σ => (takeWord_run word σ s).trans (consumeWith_run _ _ _ σ s)) fun _ _ => rfl
  | leaf hc =>
    intro σ s first _ _ hfit _ _ _
    have hk : s.kind ≠ .endOfFile := hfit.at? _ rfl ▸ hc
    exact .of_run (fun σ => leaf_run _ σ hk) fun _ _ => rfl
  | consumeNumber hc =>
    intro σ s first _ _ hfit _ _ _
    have hk : s.kind ≠ .endOfFile := hfit.at? _ rfl ▸ hc
    exact .of_run (fun σ => consumeNumber_run _ σ hk) fun _ _ => rfl
  | quotedLiteral hc =>
    intro σ s first _ _ hfit _ _ _
    have hk : s.kind ≠ .endOfFile := by
      rw [hfit.at? _ rfl]
      rcases hc with rfl | rfl | rfl <;> nofun
    by_cases hsuffix : (s.taken σ .afterLiteral).kind = .literalSuffix
    · exact .of_run (fun τ => quotedLiteral_suffixed (σ := τ) hk hsuffix) fun _ _ => rfl
    · exact .of_run (fun τ => quotedLiteral_bare (σ := τ) hk hsuffix) fun _ _ => rfl
  | split | operatorKind | pushChild | pushAll | setKind | failDraft | finish | missing =>
    exact fun _ _ _ _ _ _ => .of_eq fun _ _ => rfl
  | collect _ _ ih | refill _ ih =>
    intro σ s first hσ hsound hfit hd hle hfree
    exact .collect (ih hσ (hsound.withDraft _) (.withDraft hfit _) hd hle hfree)
  | @restricted _ _ _ restriction _ _ _ ih =>
    intro σ s first hσ hsound hfit hd hle hfree
    have hσ' : ({ σ with restriction } : Setting).source.toList = text := hσ
    exact ih hσ' hsound hfit hd hle hfree
  | guarded _ _ _ ih ih' =>
    intro σ s first hσ hsound hfit hd hle hfree
    have hσ' : ({ σ with depth := σ.depth + 1 } : Setting).source.toList = text := hσ
    refine .guarded (ih hσ' hsound hfit hd hle hfree) ?_
    obtain ⟨_, t, hreport, hb, -⟩ := aside_reportLimit σ s
    refine .bind (.of_eq hreport) fun {_ u} hrun => ?_
    obtain ⟨-, rfl⟩ := Prod.mk.inj (Option.some.inj ((hreport _ _).symm.trans hrun))
    have hkind : t.kind = s.kind := congrArg Scanner.kind hb.scanner
    have hoffset : t.offset = s.offset := by simp only [Session.offset, hb.scanner]
    rw [← hoffset] at hle hfree
    exact ih' hσ (hb.onward hsound).sound ⟨fun c hc => hkind.trans (hfit.at? c hc),
      fun _ => hb.owed rfl⟩ hd hle hfree
  | speculate _ ih => exact fun hσ hsound hfit hd hle hfree => .speculate (ih hσ hsound hfit hd hle hfree)
  | @loop _ α _ turn _ _ again _ hst hagain first later ih ih' =>
    intro σ s from' hσ hsound hfit hd hle hfree
    let ready (x : α) (t : Session) : Prop := s.offset ≤ t.offset ∧ (again x).Fits t
    have hturn {x : α} {t : Session} (ht : t.Sound text) (hready : ready x t) :
        TurnAnswers text from' k turn σ ready x t := by
      obtain ⟨hs, hf⟩ := hready
      refine ⟨ih' x hσ ht hf hd (by omega) fun hfree' => ?_, fun {r u} hrun => ?_⟩
      · have := hfree (hfree'.imp_right fun hm => absurd hm (by simp [hagain]))
        omega
      · exact ((later x).arrives hl ht hf hrun).follows (hagain x) fun hlt hf => ⟨by omega, hf⟩
    refine .loop hσ hturn ⟨ih hσ hsound hfit hd hle hfree, fun {r u} hrun => ?_⟩
    exact (first.arrives hl hsound hfit hrun).follows hst fun hlt hf => ⟨by omega, hf⟩
  | call hr hn =>
    intro σ s first hσ hsound hfit hd hle hfree
    refine hg.call hσ hsound (.inl hn) hd hle ?_
    rcases hr with hf | hm | hlt
    · exact .inl (hfree (.inl hf))
    · exact .inl (hfree (.inr hm))
    · exact .inr hlt
  | callAt hr hc =>
    intro σ s first hσ hsound hfit hd hle hfree
    refine hg.call hσ hsound (.inr (hfit.at? _ rfl ▸ hc)) hd hle ?_
    rcases hr with hf | hm | hlt
    · exact .inl (hfree (.inl hf))
    · exact .inl (hfree (.inr hm))
    · exact .inr hlt

end ConcreteSyntax
