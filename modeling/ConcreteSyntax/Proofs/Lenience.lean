import ConcreteSyntax.Proofs.Lossless

/-! # Options that leave the tree alone

What options let pass is no matter of the grammar: under more lenient options the same tree is built,
and only what they let pass is not reported (`Tree.parse_relaxed`). So it is for anonymous parameters
in every text (`Tree.parse_anonymous`). A reading that never meets the limit of nesting goes the same
way under every higher one (`Tree.parse_allowing`), and `static ref` may pass where no reading was
given up (`Tree.parse_staticRef`).

The diagnostics alone do not tell whether that is so, only the remarks do: a pattern that is tried and
given up takes back what it reported, but not what it remarked. It may have been given up because of
the limit (`Tree.parse_givenUp`), or for a `static ref` in it (`Tree.parse_givenUp_staticRef`). -/

namespace ConcreteSyntax

open Parse

/-! ### Judging a reading that was tried -/

namespace Parse

variable {α : Type} {ambiguity : Ambiguity} {σ : Setting} {before s : Session} {o : Option α}

/-- What follows a reading that was tried. -/
def judge (ambiguity : Ambiguity) (before : Session) : Option α → Parse (Option α)
  | some value => do
    if (← get).report.size == before.report.size then
      note (.preferred ambiguity before.offset)
      return some value
    else
      decline before ambiguity
      return none
  | none => do
    decline before ambiguity
    return none

theorem speculate_eq {preferred : Parse (Option α)} :
    speculate ambiguity preferred σ s =
      if (σ.remembers && s.declined.contains (s.offset, ambiguity)) = true then some (none, s)
      else (preferred >>= judge ambiguity s) σ s := by
  show (if (σ.remembers && s.declined.contains (s.offset, ambiguity)) = true then _ else _ :
    Parse (Option α)) σ s = _
  split <;> rfl

/-- A reading that reported nothing is kept. -/
theorem judge_kept {value : α} (h : s.report.size = before.report.size) :
    judge ambiguity before (some value) σ s = some (some value,
      { s with remarks := s.remarks.push (.preferred ambiguity before.offset) }) := by
  show (if (s.report.size == before.report.size) = true then _ else _ : Parse (Option α)) σ s = _
  rw [if_pos (beq_iff_eq.2 h)]
  rfl

/-- Any other is given up. -/
theorem judge_declined (h : ¬ (o.isSome = true ∧ s.report.size = before.report.size)) :
    judge ambiguity before o σ s = some (none,
      { before with
        declined := (before.offset, ambiguity) :: s.declined
        remarks := s.remarks.push (.fellBack ambiguity before.offset) }) := by
  cases o with
  | none => rfl
  | some value =>
    have hsize : ¬ (s.report.size == before.report.size) = true :=
      fun hsize => h ⟨rfl, eq_of_beq hsize⟩
    show (if (s.report.size == before.report.size) = true then _ else _ : Parse (Option α)) σ s = _
    rw [if_neg hsize]
    rfl

end Parse

/-! ### Programs under more lenient options -/

/-- A run of the program from this session is the same under more lenient options, if no remark up to
its end tells that they matter. -/
structure Parse.Relaxes {α : Type} (l : Lenience) (m : Parse α) (σ : Setting) (s : Session) : Prop where
  run {r : α} {t : Session} (hrun : m σ s = some (r, t)) (ht : t.Untouched l) :
    s.Untouched l ∧ m (σ.relaxed l) (s.relaxed l) = some (r, t.relaxed l)

namespace Parse.Relaxes

variable {α β : Type} {l : Lenience} {m : Parse α} {σ : Setting} {s : Session}

/-- A program whose runs are known. -/
theorem of_run {r : α} {t : Session} (h : m σ s = some (r, t))
    (h' : m (σ.relaxed l) (s.relaxed l) = some (r, t.relaxed l))
    (hs : t.Untouched l → s.Untouched l) : m.Relaxes l σ s := by
  refine ⟨fun hrun ht => ?_⟩
  obtain ⟨rfl, rfl⟩ := Prod.mk.inj (Option.some.inj (h.symm.trans hrun))
  exact ⟨hs ht, h'⟩

theorem bind {K : α → Parse β} (hm : m.Relaxes l σ s)
    (hK : ∀ {r t}, m σ s = some (r, t) → (K r).Relaxes l σ t) : (m >>= K).Relaxes l σ s := by
  refine ⟨fun {r' t'} hrun ht' => ?_⟩
  obtain ⟨r, t, hrun, hrun'⟩ := bind_eq_some.1 hrun
  obtain ⟨ht, hrest⟩ := (hK hrun).run hrun' ht'
  obtain ⟨hs, hfirst⟩ := hm.run hrun ht
  exact ⟨hs, bind_eq_some.2 ⟨r, t.relaxed l, hfirst, hrest⟩⟩

/-- What is looked at of the session is not what was reported. -/
theorem look {K : Session → Parse α} (blind : ∀ s report, K { s with report } = K s)
    (h : (K s).Relaxes l σ s) : (get >>= K).Relaxes l σ s := by
  refine ⟨fun {r t} hrun ht => ?_⟩
  obtain ⟨hs, hrun⟩ := h.run hrun ht
  refine ⟨hs, ?_⟩
  show K { s with report := _ } (σ.relaxed l) (s.relaxed l) = _
  rwa [blind]

/-- What is asked of the setting is not about the options. -/
theorem ask {K : Setting → Parse α} (hK : K (σ.relaxed l) = K σ) (h : (K σ).Relaxes l σ s) :
    (read >>= K).Relaxes l σ s := by
  refine ⟨fun {r t} hrun ht => ?_⟩
  obtain ⟨hs, hrun⟩ := h.run hrun ht
  refine ⟨hs, ?_⟩
  show K (σ.relaxed l) (σ.relaxed l) (s.relaxed l) = _
  rwa [hK]

theorem outOfTurns : (Parse.outOfTurns : Parse α).Relaxes l σ s := ⟨nofun⟩

theorem pure (r : α) : (Pure.pure r : Parse α).Relaxes l σ s := of_run rfl rfl id

theorem consumeWith {label : Option Field} {as? : Option Kind} {next : Admitted} :
    (Parse.consumeWith label as? next).Relaxes l σ s := by
  have hrun := consumeWith_run label as? next σ s
  have hrun' := consumeWith_run label as? next (σ.relaxed l) (s.relaxed l)
  rw [Session.relaxed_taken] at hrun'
  by_cases hk : s.kind = .endOfFile
  · rw [if_pos hk] at hrun
    rw [if_pos (show (s.relaxed l).kind = .endOfFile from hk)] at hrun'
    exact of_run hrun hrun' id
  · rw [if_neg hk] at hrun
    rw [if_neg (show (s.relaxed l).kind ≠ .endOfFile from hk)] at hrun'
    exact of_run hrun hrun' id

theorem takeWord {word : Kind} : (Parse.takeWord word).Relaxes l σ s := by
  refine ⟨fun {r t} hrun ht => ?_⟩
  obtain ⟨hs, hrun⟩ := consumeWith.run ((takeWord_run word σ s).symm.trans hrun) ht
  exact ⟨hs, (takeWord_run word _ _).trans hrun⟩

theorem leaf {as? : Option Kind} (hk : s.kind ≠ .endOfFile) : (Parse.leaf as?).Relaxes l σ s := by
  have hrun' := leaf_run as? (σ.relaxed l) (show (s.relaxed l).kind ≠ .endOfFile from hk)
  rw [Session.relaxed_taken] at hrun'
  exact of_run (leaf_run as? σ hk) hrun' id

theorem consumeNumber {next : Admitted} (hk : s.kind ≠ .endOfFile) :
    (Parse.consumeNumber next).Relaxes l σ s := by
  have hrun' := consumeNumber_run next (σ.relaxed l) (show (s.relaxed l).kind ≠ .endOfFile from hk)
  rw [Session.relaxed_taken] at hrun'
  exact of_run (consumeNumber_run next σ hk) hrun' id

theorem quotedLiteral (hk : s.kind ≠ .endOfFile) : Parse.quotedLiteral.Relaxes l σ s := by
  have hk' : (s.relaxed l).kind ≠ .endOfFile := hk
  have hunpacked : unpacked (σ.relaxed l) (s.relaxed l) = (unpacked σ s).relaxed l := by
    unfold unpacked
    rw [Session.relaxed_taken]
    rfl
  by_cases hsuffix : (s.taken σ .afterLiteral).kind = .literalSuffix
  · have hsuffix' : ((s.relaxed l).taken (σ.relaxed l) .afterLiteral).kind = .literalSuffix := by
      rwa [Session.relaxed_taken]
    have hrun' := quotedLiteral_suffixed hk' hsuffix'
    rw [hunpacked, Session.relaxed_taken, Session.relaxed_taken] at hrun'
    exact of_run (quotedLiteral_suffixed hk hsuffix) hrun' id
  · have hsuffix' : ((s.relaxed l).taken (σ.relaxed l) .afterLiteral).kind ≠ .literalSuffix := by
      rwa [Session.relaxed_taken]
    have hrun' := quotedLiteral_bare hk' hsuffix'
    rw [Session.relaxed_taken] at hrun'
    exact of_run (quotedLiteral_bare hk hsuffix) hrun' id

theorem aside {severe : Bool} (h : m.Aside severe) : m.Relaxes l σ s := by
  refine ⟨fun {r t} hrun ht => ?_⟩
  obtain ⟨r', t', hm, -, hl⟩ := h σ s
  obtain ⟨rfl, rfl⟩ := Prod.mk.inj (Option.some.inj ((hm σ.watches σ.opened).symm.trans hrun))
  exact hl l ht

theorem collect {d : Draft} {body : Parse Unit} (h : body.Relaxes l σ (s.withDraft d)) :
    (Parse.collect d body).Relaxes l σ s := by
  refine ⟨fun {r t} hrun ht => ?_⟩
  obtain ⟨u, hbody, rfl, rfl⟩ := collect_eq_some.1 hrun
  obtain ⟨hs, hbody⟩ := h.run hbody ht
  exact ⟨hs, collect_eq_some.2 ⟨u.relaxed l, hbody, rfl, rfl⟩⟩

/-- A reading that was tried is given up in both, or in none. If it is given up, a remark tells so, and
only anonymous parameters may be let pass, which leaves the reports as long as they are. If it is not,
nothing was reported. -/
theorem judge {ambiguity : Ambiguity} {o r : Option α} {t t' : Session} (hg : s.report.Grows t.report)
    (hrun : Parse.judge ambiguity s o σ t = some (r, t')) (ht' : t'.Untouched l) :
    t.Untouched l ∧
      Parse.judge ambiguity (s.relaxed l) o (σ.relaxed l) (t.relaxed l) = some (r, t'.relaxed l) := by
  by_cases hkept : o.isSome = true ∧ t.report.size = s.report.size
  · obtain ⟨v, rfl⟩ := Option.isSome_iff_exists.1 hkept.1
    have hsize' : (t.relaxed l).report.size = (s.relaxed l).report.size :=
      congrArg (fun r => (Report.relaxed l r).size) (hg.eq_of_size hkept.2)
    rw [judge_kept hkept.2] at hrun
    obtain ⟨rfl, rfl⟩ := Prod.mk.inj (Option.some.inj hrun)
    exact ⟨(ht'.of_push rfl).1, judge_kept hsize'⟩
  · rw [judge_declined hkept] at hrun
    obtain ⟨rfl, rfl⟩ := Prod.mk.inj (Option.some.inj hrun)
    obtain ⟨ht, hstatic⟩ := ht'.of_push rfl
    have hstatic : l.staticRef = false := hstatic
    have hkept' : ¬ (o.isSome = true ∧ (t.relaxed l).report.size = (s.relaxed l).report.size) := by
      rintro ⟨ho, hsize⟩
      exact hkept ⟨ho, by simpa only [Session.relaxed, Report.size_relaxed hstatic] using hsize⟩
    exact ⟨ht, judge_declined hkept'⟩

theorem speculate {ambiguity : Ambiguity} {preferred : Parse (Option α)}
    (h : preferred.Relaxes l σ s)
    (hg : ∀ {o t}, preferred σ s = some (o, t) → s.report.Grows t.report) :
    (Parse.speculate ambiguity preferred).Relaxes l σ s := by
  refine ⟨fun {r t'} hrun ht' => ?_⟩
  rw [speculate_eq] at hrun ⊢
  by_cases hfailed : (σ.remembers && s.declined.contains (s.offset, ambiguity)) = true
  · have hfailed' : ((σ.relaxed l).remembers &&
        (s.relaxed l).declined.contains ((s.relaxed l).offset, ambiguity)) = true := hfailed
    rw [if_pos hfailed] at hrun
    rw [if_pos hfailed']
    obtain ⟨rfl, rfl⟩ := Prod.mk.inj (Option.some.inj hrun)
    exact ⟨ht', rfl⟩
  · have hfailed' : ¬ ((σ.relaxed l).remembers &&
        (s.relaxed l).declined.contains ((s.relaxed l).offset, ambiguity)) = true := hfailed
    rw [if_neg hfailed] at hrun
    rw [if_neg hfailed']
    obtain ⟨o, t, htried, hrun⟩ := bind_eq_some.1 hrun
    obtain ⟨ht, hjudged⟩ := judge (hg htried) hrun ht'
    obtain ⟨hs, htried'⟩ := h.run htried ht
    exact ⟨hs, bind_eq_some.2 ⟨o, t.relaxed l, htried', hjudged⟩⟩

/-- Below the limit there is room under a higher one, too; at the limit a remark tells that it was
met. -/
theorem guarded {body : Parse Node} (inside : body.Relaxes l { σ with depth := σ.depth + 1 } s)
    (limit : ∀ {u}, reportLimit σ s = some ((), u) → skipGroup.Relaxes l σ u) :
    (Parse.guarded body).Relaxes l σ s := by
  refine ⟨fun {r t} hrun ht => ?_⟩
  rw [guarded_eq] at hrun ⊢
  by_cases hdepth : σ.depth < σ.options.maxDepth
  · rw [if_pos hdepth] at hrun
    have hroom : (σ.relaxed l).depth < (σ.relaxed l).options.maxDepth :=
      Nat.lt_of_lt_of_le hdepth (Nat.le_add_right _ _)
    rw [if_pos hroom]
    exact inside.run hrun ht
  · rw [if_neg hdepth] at hrun
    obtain ⟨_, u, hreport, hskip⟩ := bind_eq_some.1 hrun
    obtain ⟨hu, hskip'⟩ := (limit hreport).run hskip ht
    obtain ⟨hs, hreport'⟩ := (aside aside_reportLimit).run hreport hu
    have hfull : ¬ (σ.relaxed l).depth < (σ.relaxed l).options.maxDepth := by
      show ¬ σ.depth < σ.options.maxDepth + l.depth
      rwa [reportLimit_remarks hreport hu]
    rw [if_neg hfull]
    exact ⟨hs, bind_eq_some.2 ⟨(), u.relaxed l, hreport', hskip'⟩⟩

/-- The turns of a loop, by induction on how many may be left. -/
theorem iterate {ρ : Type} {turn : α → Parse (Step α ρ)} {P : α → Session → Prop}
    (hturn : ∀ {x t}, P x t → (turn x).Relaxes l σ t)
    (hnext : ∀ {x t y u}, P x t → turn x σ t = some (.again y, u) → P y u) (n : Nat) :
    ∀ {x t}, (turn x).Relaxes l σ t → (∀ {y u}, turn x σ t = some (.again y, u) → P y u) →
      (Parse.iterate turn n x).Relaxes l σ t := by
  induction n with
  | zero => exact fun _ _ => outOfTurns
  | succ n ih =>
    intro x t hfirst hlater
    refine look (fun _ _ => rfl) (bind hfirst fun {step u} hrun => ?_)
    cases step with
    | done r => exact pure r
    | again y =>
      refine ask rfl (look (fun _ _ => rfl) ?_)
      split
      · exact outOfTurns
      · exact ih (hturn (hlater hrun)) fun hrun' => hnext (hlater hrun) hrun'

end Parse.Relaxes

/-! ### The grammar -/

/-- Every nonterminal is read the same way under more lenient options, if they do not matter. -/
def Grammar.Relaxes (l : Lenience) (text : List Char) (g : Grammar) : Prop :=
  ∀ (nonterminal : Nonterminal) (σ : Setting) (s : Session), s.Sound text →
    (g.parse nonterminal).Relaxes l σ s

/-- **An orderly program to which the lenience does not matter** runs the same way under it, if the
grammar under it does. -/
theorem Orderly.relaxes {l : Lenience} {text : List Char} {g : Grammar} {k : Nat} {f : Bool} {α : Type}
    {st : Stage} {m : Parse α} {q : α → Stage} (hl : g.Leads text) (hg : g.Relaxes l text)
    (h : Orderly text g k f st m q) :
    ∀ {σ : Setting} {s : Session}, s.Sound text → st.Fits s → m.Relaxes l σ s := by
  induction h with
  | pure => exact fun _ _ => .pure _
  | bind first _ ih ih' =>
    intro σ s hsound hfit
    refine .bind (ih hsound hfit) fun {r t} hrun => ?_
    have h := first.arrives hl hsound hfit hrun
    exact ih' r h.onward.sound h.fits
  | sure P hP first _ ih ih' =>
    intro σ s hsound hfit
    refine .bind (ih hsound hfit) fun {r t} hrun => ?_
    have h := first.arrives hl hsound hfit hrun
    exact ih' r (hP hsound hfit hrun) h.onward.sound h.fits
  | serve before _ _ ih => exact fun hsound hfit => ih hsound (before.fits hfit)
  | past _ ih => exact fun hsound hfit => ih hsound ⟨hfit.at?, hfit.owed⟩
  | moves _ _ _ ih => exact ih
  | look blind _ ih =>
    intro σ s hsound hfit
    exact .look blind
      (ih s (fun c hc => hfit.at? c hc) hsound ⟨fun c hc => Option.some.inj hc, hfit.owed⟩)
  | aside hp => exact fun _ _ => .aside hp
  | flush => exact fun {σ s} _ _ => .of_run (flush_run σ s) (flush_run _ _) id
  | consumeWith | consumeWithAt => exact fun _ _ => .consumeWith
  | takeWord | takeWordAt => exact fun _ _ => .takeWord
  | leaf hc => exact fun _ hfit => .leaf (hfit.at? _ rfl ▸ hc)
  | consumeNumber hc => exact fun _ hfit => .consumeNumber (hfit.at? _ rfl ▸ hc)
  | quotedLiteral hc =>
    intro σ s _ hfit
    refine .quotedLiteral ?_
    rw [hfit.at? _ rfl]
    rcases hc with rfl | rfl | rfl <;> nofun
  | split | operatorKind | pushChild | pushAll | setKind | failDraft | finish | missing =>
    exact fun _ _ => .of_run rfl rfl id
  | collect _ _ ih | refill _ ih =>
    exact fun hsound hfit => .collect (ih (hsound.withDraft _) (.withDraft hfit _))
  | restricted _ ih => exact fun hsound hfit => ⟨fun hrun => (ih hsound hfit).run hrun⟩
  | guarded _ _ _ ih ih' =>
    intro σ s hsound hfit
    refine .guarded (ih hsound hfit) fun {u} hreport => ?_
    have hb := aside_reportLimit.beside hreport
    have hkind : u.kind = s.kind := congrArg Scanner.kind hb.scanner
    exact ih' (hb.onward hsound).sound ⟨fun c hc => hkind.trans (hfit.at? c hc), fun _ => hb.owed rfl⟩
  | speculate tried ih =>
    exact fun hsound hfit => .speculate (ih hsound hfit) fun htried =>
      (tried.arrives hl hsound hfit htried).onward.report
  | @loop _ α _ turn _ _ again _ hst hagain first later ih ih' =>
    intro σ s hsound hfit
    let ready (x : α) (t : Session) : Prop := t.Sound text ∧ (again x).Fits t
    refine .ask rfl (.iterate (P := ready) (fun h => ih' _ h.1 h.2)
      (fun {x t y u} h hrun => ?_) σ.turns (ih hsound hfit) fun {y u} hrun => ?_)
    · have h := (later x).arrives hl h.1 h.2 hrun
      exact ⟨h.onward.sound, h.fits.at?, h.fits.owed⟩
    · have h := first.arrives hl hsound hfit hrun
      exact ⟨h.onward.sound, h.fits.at?, h.fits.owed⟩
  | call | callAt => exact fun hsound _ => hg _ _ _ hsound

/-- A nonterminal is opened under all options alike. -/
theorem Parse.Relaxes.opening {l : Lenience} {nonterminal : Nonterminal} {body : Parse Node}
    {σ : Setting} {s : Session}
    (h : ∀ opened, body.Relaxes l (σ.watching σ.watches opened) s) :
    (Parse.opening nonterminal body).Relaxes l σ s := by
  refine ask rfl ?_
  split
  · refine look (fun _ _ => rfl) ?_
    show (if σ.opened.contains (nonterminal, s.offset) = true then _ else _ : Parse Node).Relaxes l σ s
    split
    · exact outOfTurns
    · exact ⟨fun hrun => (h _).run hrun⟩
  · exact h σ.opened

/-- The grammar reads alike under more lenient options, to whatever depth. -/
theorem Grammar.relaxes_upTo (l : Lenience) (text : List Char) (depth : Nat) :
    (Grammar.upTo depth).Relaxes l text := by
  induction depth with
  | zero => exact fun _ _ _ _ => .outOfTurns
  | succ depth ih =>
    intro nonterminal σ s hsound
    have hread : Orderly text (Grammar.upTo depth) nonterminal.rank true
        ⟨.empty, none, false, false, .proper⟩ ((Grammar.upTo depth).production nonterminal)
        fun n => ⟨.node n, none, false, false, .proper⟩ := .production (.inl rfl)
    exact .opening fun _ => hread.relaxes (Grammar.leads_upTo text depth) ih hsound ⟨nofun, nofun⟩

/-! ### Whole readings -/

namespace Tree

/-- A tree with the diagnostics that more lenient options leave. -/
def relaxed (l : Lenience) (t : Tree) : Tree :=
  { t with diagnostics := (t.diagnostics.filter l.keeps).map (·.relaxed l) }

variable {file source : String} {options : Options}

/-- **More lenient options** give the same tree, the same remarks and the diagnostics that they leave,
if no remark tells that they matter otherwise. -/
theorem parse_relaxed (l : Lenience)
    (h : ∀ remark ∈ (parseWithRemarks file source options).2, l.touches remark = false) :
    parseWithRemarks file source (options.relaxed l) =
      ((parse file source options).relaxed l, (parseWithRemarks file source options).2) := by
  let σ : Setting := { file, source, options }
  obtain ⟨s, hrun, htree⟩ := parse_ends file source options
  have hrun : σ.run? = some s := hrun false
  have hremarks : (parseWithRemarks file source options).2 = s.remarks.toList := by
    show (σ.run?.getD (.start source)).remarks.toList = _
    rw [hrun]
    rfl
  rw [hremarks] at h ⊢
  have hread : Orderly source.toList (Grammar.upTo σ.nesting) 0 true
      ⟨.empty, none, false, false, .proper⟩ (Grammar.upTo σ.nesting).sourceFile
      fun _ => ⟨.empty, none, false, false, .proper⟩ := .sourceFile
  have hrelaxes := hread.relaxes (Grammar.leads_upTo _ _) (Grammar.relaxes_upTo l _ _) (σ := σ)
    (Session.sound_start source) ⟨nofun, nofun⟩
  obtain ⟨-, hmore⟩ := hrelaxes.run (Setting.run_eq_some hrun) h
  rw [Session.relaxed_start] at hmore
  have hrun' : (σ.relaxed l).run? = some (s.relaxed l) :=
    congrArg (Option.map fun r : Unit × Session => r.2) hmore
  show (((σ.relaxed l).run?.getD _).tree _, ((σ.relaxed l).run?.getD _).remarks.toList) = _
  rw [hrun', htree]
  refine Prod.ext ?_ rfl
  show Session.tree (s.relaxed l) (σ.relaxed l) = (s.tree σ).relaxed l
  unfold Session.tree relaxed
  exact congrArg (Tree.mk _ _ _) Report.sortByPosition_relaxed

/-- Higher limits leave all diagnostics. -/
theorem relaxed_depth (t : Tree) (depth : Nat) : t.relaxed { depth } = t := by
  have hkeeps : t.diagnostics.filter ({ depth } : Lenience).keeps = t.diagnostics :=
    List.filter_eq_self.2 fun _ _ => rfl
  have hsame : t.diagnostics.map (Diagnostic.relaxed { depth }) = t.diagnostics :=
    List.map_id' t.diagnostics
  rw [relaxed, hkeeps, hsame]

/-- **The limit of nesting does not act where it is not met**: a text in whose reading no remark tells
that it was met is read to the same tree, with the same diagnostics and remarks, under every higher
limit. -/
theorem parse_allowing {limit : Nat} (hle : options.maxDepth ≤ limit)
    (h : ∀ offset, .nestingLimit offset ∉ (parseWithRemarks file source options).2) :
    parseWithRemarks file source { options with maxDepth := limit } =
      parseWithRemarks file source options := by
  have hoptions : options.relaxed { depth := limit - options.maxDepth } =
      { options with maxDepth := limit } := by
    simp [Options.relaxed, Nat.add_sub_cancel' hle]
  rw [← hoptions, parse_relaxed { depth := limit - options.maxDepth }, relaxed_depth]
  · rfl
  · intro remark hremark
    cases remark with
    | nestingLimit offset => exact absurd hremark (h offset)
    | _ => rfl

/-- In a list of parameters a pattern may nest deeper than the type that is tried after it. At a limit
between the two the pattern is given up, and no diagnostic tells why: only a remark does. -/
theorem parse_givenUp :
    (∀ d ∈ (parse "f.rs" "fn f((x): u8) \x7b\x7d" { maxDepth := 2 }).diagnostics,
      d.code ≠ Message.nestingLimit.code) ∧
    .nestingLimit 6 ∈ (parseWithRemarks "f.rs" "fn f((x): u8) \x7b\x7d" { maxDepth := 2 }).2 ∧
    (parse "f.rs" "fn f((x): u8) \x7b\x7d" { maxDepth := 2 }).root ≠
      (parse "f.rs" "fn f((x): u8) \x7b\x7d" { maxDepth := 3 }).root :=
  ⟨code_ne_of_run (by decide +kernel), by decide +kernel, by decide +kernel⟩

/-- **Whether anonymous parameters pass is no matter of the grammar**: the tree is the same, and where
they are forbidden the diagnostics differ only in that, one by one. -/
theorem parse_anonymous (file source : String) (options : Options) :
    parse file source { options with allowAnonymousParameters := true } =
      (parse file source { options with allowAnonymousParameters := false }).relaxed
        { anonymous := true } := by
  have hoptions : ({ options with allowAnonymousParameters := false } : Options).relaxed
      { anonymous := true } = { options with allowAnonymousParameters := true } := by
    simp [Options.relaxed]
  have h := @parse_relaxed file source { options with allowAnonymousParameters := false }
    { anonymous := true } fun remark _ => by cases remark <;> rfl
  rw [hoptions] at h
  exact congrArg Prod.fst h

/-- **Whether `static ref` passes is no matter of the grammar** where no reading was given up: the tree
is the same, and only the diagnostics of `static ref` are dropped. -/
theorem parse_staticRef
    (h : ∀ ambiguity offset, .fellBack ambiguity offset ∉
      (parseWithRemarks file source { options with allowStaticRef := false }).2) :
    parse file source { options with allowStaticRef := true } =
      (parse file source { options with allowStaticRef := false }).relaxed { staticRef := true } := by
  have hoptions : ({ options with allowStaticRef := false } : Options).relaxed
      { staticRef := true } = { options with allowStaticRef := true } := by
    simp [Options.relaxed]
  have h := parse_relaxed { staticRef := true } fun remark hremark => by
    cases remark with
    | fellBack ambiguity offset => exact absurd hremark (h ambiguity offset)
    | _ => rfl
  rw [hoptions] at h
  exact congrArg Prod.fst h

/-- The pattern of a parameter may hold a `static ref`. Where that is reported the pattern is given up,
and two types are read instead. -/
theorem parse_givenUp_staticRef :
    .fellBack .typeVsPattern 5 ∈ (parseWithRemarks "f.rs"
      "fn f(S::<\x7b static ref X: u8 = 1; \x7d>: T) \x7b\x7d" { allowStaticRef := false }).2 ∧
    (parse "f.rs" "fn f(S::<\x7b static ref X: u8 = 1; \x7d>: T) \x7b\x7d"
        { allowStaticRef := false }).root ≠
      (parse "f.rs" "fn f(S::<\x7b static ref X: u8 = 1; \x7d>: T) \x7b\x7d" {}).root :=
  ⟨by decide +kernel, by decide +kernel⟩

end Tree

end ConcreteSyntax
