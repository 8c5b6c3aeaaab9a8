import ConcreteSyntax.Proofs.Reading.Arrival

/-! # Invariants of a reading

An `Invariant` says something of a session, of what is in the hands and of where the open draft
began, and every single step of the rules keeps it. `Orderly.keeps` carries it through a whole
program: the shape of the tree and the errors in it are such invariants. -/

namespace ConcreteSyntax

open Parse

/-- Whether the limit of nesting was reported. -/
def Report.isLimited (r : Report) : Bool := r.toList.any (·.code == Message.nestingLimit.code)

theorem Report.Grows.isLimited {r r' : Report} (h : r.Grows r') (hl : r.isLimited = true) :
    r'.isLimited = true := by
  obtain ⟨d, hd, hl⟩ := List.any_eq_true.1 hl
  exact List.any_eq_true.2 ⟨d, h.front.subset hd, hl⟩

/-- A setting for reading a text under options. -/
structure Setting.Reads (text : List Char) (options : Options) (σ : Setting) : Prop where
  source : σ.source.toList = text
  options : σ.options = options

/-- The kinds under which the current token may be read: that of a name, or the word that the token
spells. -/
def Session.TakesAs (σ : Setting) (s : Session) (as? : Option Kind) : Prop :=
  ∀ kind, as? = some kind →
    kind.isName = true ∨ kind.wordText = some (s.scanner.tokenText σ.source)

theorem ReadAs.session {as? : Option Kind} (h : ReadAs as?) (σ : Setting) (s : Session) :
    s.TakesAs σ as? :=
  fun kind hk => .inl (h kind hk)

theorem Session.readAs_wordTaken (word : Kind) (σ : Setting) (s : Session) :
    s.TakesAs σ (wordTaken word σ s) := by
  intro kind hk
  unfold wordTaken at hk
  split at hk
  · next hword =>
    obtain rfl := Option.some.inj hk
    exact .inr hword
  · exact nomatch hk

/-! ### Standings -/

/-- What a standing tells of the kind of a draft. -/
def Standing.Tells (F : Standing) (kind : Kind) : Prop :=
  match F with
  | .literal => kind.isPieced = true
  | .proper => kind.isFree = true
  | _ => kind.isFree = true ∨ kind = .error

namespace Standing

theorem Tells.isFree {F : Standing} {kind : Kind} (h : F.Tells kind) :
    kind.isFree = true ∨ kind = .error := by
  cases F with
  | literal => exact .inl (Kind.isFree_of_isPieced h)
  | proper => exact .inl h
  | fair => exact h
  | failed => exact h

theorem Serves.tells {owed : Prop} {F F' : Standing} {kind : Kind} (h : F.Serves owed F')
    (ht : F.Tells kind) : F'.Tells kind := by
  cases h with
  | same => exact ht
  | proper => exact .inl ht
  | owed => exact ht
  | failed => exact ht

theorem Begins.tells {F : Standing} {kind : Kind} (h : F.Begins kind) : F.Tells kind := by
  cases F with
  | literal => exact h
  | proper => exact h
  | fair => exact .inl h
  | failed => exact h

end Standing

/-! ### Invariants -/

/-- What every step of the rules keeps. `holds base h F s` speaks of the open draft of `s`, which
began at `base` and stands as `F` says, and of what is in the hands. -/
structure Invariant (text : List Char) (options : Options) (β : Type) where
  holds : β → Hand → Standing → Session → Prop
  stands {b : β} {h : Hand} {F F' : Standing} {s : Session} (hF : F.Serves s.Owed F')
    (hs : holds b h F s) : holds b h F' s
  becomes {b : β} {h h' : Hand} {o : Bool} {F : Standing} {s : Session} (hsound : s.Sound text)
    (ho : o = true → s.Owed) (hh : h.Becomes o h') (hs : holds b h F s) : holds b h' F s
  beside {b : β} {h : Hand} {F : Standing} {severe : Bool} {s s' : Session}
    (hb : s.Beside severe s') (hs : holds b h F s) : holds b h F s'
  reshaped {b : β} {h : Hand} {F : Standing} {s : Session} {scanner : Scanner}
    (hr : Scanner.Reshaped text s.scanner scanner) (hs : holds b h F s) :
    holds b h F { s with scanner }
  flushed {b : β} {F : Standing} {σ : Setting} {s : Session} (hσ : σ.Reads text options)
    (hsound : s.Sound text) (hs : holds b .empty F s) : holds b .empty F (s.flushed σ)
  taken {b : β} {F : Standing} {σ : Setting} {s : Session} {as? : Option Kind} {next : Admitted}
    (hσ : σ.Reads text options) (hsound : s.Sound text) (hk : s.kind ≠ .endOfFile)
    (has : s.TakesAs σ as?) (hs : holds b .empty F s) :
    holds b (.node (.ofToken s.scanner.token as?)) F (s.taken σ next)
  /-- A label is given only in a proper draft. -/
  pushed {b : β} {F : Standing} {s : Session} {label : Option Field} {n : Node}
    (hl : label = none ∨ F = .proper) (hs : holds b (.node n) F s) :
    holds b .empty F (s.withDraft (s.draft.pushChild label n))
  /-- The pieces of a token go into the draft of a literal in its stead. -/
  unpacked {b : β} {s : Session} {token : Token} (hl : token.Laid)
    (hn : (Node.ofToken token none).children ≠ [])
    (hs : holds b (.node (.ofToken token none)) .literal s) :
    holds b .empty .literal
      (s.withDraft ((s.draft.addFlags { error := (Node.ofToken token none).flags.error }).extend
        (Node.ofToken token none).children))
  spread {b : β} {s : Session} {d : Draft} (hs : holds b (.draft d .failed) .proper s) :
    holds b .empty .proper (s.withDraft (s.draft.extend d.children.toList))
  renamed {b : β} {h : Hand} {F : Standing} {s : Session} {kind : Kind} (hF : F ≠ .literal)
    (hk : kind.isFree = true) (hs : holds b h F s) :
    holds b h .proper (s.withDraft (s.draft.setKind kind))
  failed {b : β} {h : Hand} {F : Standing} {s : Session} (hF : F ≠ .literal)
    (hs : holds b h F s) : holds b h .failed (s.withDraft (s.draft.setKind .error).clearFields)
  /-- A fresh draft begins where what is in the hands does, and closes as a draft in the hands, if
  nothing was lost before. -/
  opened {b : β} {h : Hand} {F F₀ : Standing} {s : Session} {kind : Kind} (hk : F₀.Begins kind)
    (hh : h ≠ .lost) (hs : holds b h F s) :
    ∃ base, holds base h F₀ (s.withDraft (.ofKind kind)) ∧ ∀ {t : Session} {F' : Standing},
      (s.withDraft (.ofKind kind)).Onward text t → holds base .empty F' t →
        holds b (.draft t.draft F') F (t.withDraft s.draft)
  reopened {b : β} {F F₀ : Standing} {s : Session} {d : Draft} (hs : holds b (.draft d F₀) F s) :
    ∃ base, holds base .empty F₀ (s.withDraft d) ∧ ∀ {t : Session} {F' : Standing},
      (s.withDraft d).Onward text t → holds base .empty F' t →
        holds b (.draft t.draft F') F (t.withDraft s.draft)
  finished {b : β} {F F₀ : Standing} {s : Session} {d : Draft} (hsound : s.Sound text)
    (hF : F₀ ≠ .failed) (hs : holds b (.draft d F₀) F s) :
    holds b (.node (d.finish s.consumedEnd)) F s
  missing {b : β} {F : Standing} {s : Session} {kind : Kind} (hk : kind.isStandIn = true)
    (hsound : s.Sound text) (ho : s.Owed) (hs : holds b .empty F s) :
    holds b (.node (.leaf kind (.emptyAt s.consumedEnd) { missing := true })) F s
  /-- Where the limit of nesting is reported, what is in the hands is dropped. -/
  limited {b : β} {h : Hand} {F : Standing} {s s' : Session} (hh : h.Spare)
    (hb : s.Beside true s') (hl : s'.report.isLimited = true) (hs : holds b h F s) :
    holds b .empty F s'

variable {text : List Char} {options : Options} {β : Type}

/-- A grammar whose nonterminals keep an invariant. -/
def Grammar.Keeps (g : Grammar) (I : Invariant text options β) : Prop :=
  ∀ {nonterminal : Nonterminal} {σ : Setting} {s s' : Session} {n : Node} {b : β} {F : Standing},
    σ.Reads text options → s.Sound text → I.holds b .empty F s →
      g.parse nonterminal σ s = some (n, s') → I.holds b (.node n) F s'

/-- One standing serves another where less is known to be owed. -/
theorem Standing.Serves.mono {owed owed' : Prop} {F F' : Standing} (h : F.Serves owed F')
    (ho : owed → owed') : F.Serves owed' F' := by
  cases h with
  | same => exact .same F
  | proper => exact .proper
  | owed h => exact .owed (ho h)
  | failed => exact .failed

/-- A stage weakens to one that it serves. -/
theorem Invariant.serves (I : Invariant text options β) {b : β} {st st' : Stage} {s : Session}
    (h : st.Serves st') (hsound : s.Sound text) (hfit : st.Fits s)
    (hs : I.holds b st.hand st.standing s) : I.holds b st'.hand st'.standing s :=
  I.stands (h.standing.mono hfit.owed) (I.becomes hsound hfit.owed h.hand hs)

theorem Parse.reportLimit_isLimited {σ : Setting} {s s' : Session}
    (h : reportLimit σ s = some ((), s')) : s'.report.isLimited = true := by
  obtain ⟨_, _, h₁, h⟩ := bind_eq_some.1 h
  obtain ⟨-, rfl⟩ := Prod.mk.inj (Option.some.inj h₁)
  obtain ⟨_, _, h₁, h⟩ := bind_eq_some.1 h
  obtain ⟨-, rfl⟩ := Prod.mk.inj (Option.some.inj h₁)
  obtain ⟨_, _, h₁, h⟩ := bind_eq_some.1 h
  obtain ⟨-, rfl⟩ := Prod.mk.inj (Option.some.inj h₁)
  obtain ⟨-, rfl⟩ := Prod.mk.inj (Option.some.inj h)
  simp [Report.isLimited, Report.add, Report.toList, Diagnostic.located, Diagnostic.ofMessage]

/-! ### Literals -/

/-- A literal between quotes becomes a node over its pieces. -/
theorem Node.ofToken_quoted {token : Token} (hl : token.Laid)
    (hk : token.kind = .stringToken ∨ token.kind = .rawStringToken ∨ token.kind = .charToken) :
    (Node.ofToken token none).kind.isPieced = true ∧ (Node.ofToken token none).children ≠ [] := by
  have hpieces : token.pieces ≠ [] := hl.pieces_ne (by rcases hk with h | h | h <;> rw [h] <;> rfl)
  rcases hk with h | h | h <;>
    simp [Node.ofToken, Node.literalKind?, h, Node.ofPieces, Draft.finishOver, hpieces,
      Kind.isPieced]

namespace Invariant

variable (I : Invariant text options β) {b : β} {F : Standing} {σ : Setting} {s : Session}

/-- A number that was taken goes into the draft of a literal, in pieces if it has some. -/
theorem number {token : Token} (hl : token.Laid)
    (hs : I.holds b (.node (.ofToken token none)) .literal s) :
    I.holds b .empty .literal (s.withDraft (withNumber s.draft (.ofToken token none))) := by
  unfold withNumber
  split
  · exact I.pushed (.inl rfl) hs
  · next hn => exact I.unpacked hl (by simpa [Node.isLeaf] using hn) hs

/-- A literal between quotes and its suffix become one node. -/
theorem suffixed (hσ : σ.Reads text options) (hsound : s.Sound text)
    (hk : s.kind = .stringToken ∨ s.kind = .rawStringToken ∨ s.kind = .charToken)
    (hsuffix : (s.taken σ .afterLiteral).kind = .literalSuffix) (hs : I.holds b .empty F s) :
    I.holds b
      (.node ((((Parse.unpacked σ s).taken σ .usual).draft.push
        (.ofToken (Parse.unpacked σ s).scanner.token none)).finish
          ((Parse.unpacked σ s).taken σ .usual).consumedEnd)) F
      { (Parse.unpacked σ s).taken σ .usual with draft := (s.taken σ .afterLiteral).draft } := by
  have hend : s.kind ≠ .endOfFile := by rcases hk with h | h | h <;> (rw [h]; nofun)
  have hliteral := Node.ofToken_quoted hsound.scanner.laid hk
  have hread : Admitted.afterLiteral.ReadsLiterals := ⟨rfl, rfl⟩
  -- the literal is taken, and its pieces go into a draft of its kind
  have hfirst : I.holds b (.node (.ofToken s.scanner.token none)) F (s.taken σ .afterLiteral) :=
    I.taken hσ hsound hend nofun hs
  have hbegins : Standing.literal.Begins (Node.ofToken s.scanner.token none).kind := hliteral.1
  have hkept : Hand.node (.ofToken s.scanner.token none) ≠ .lost := nofun
  obtain ⟨base, hopen, hclose⟩ := I.opened hbegins hkept hfirst
  have hpieces : I.holds base .empty .literal (Parse.unpacked σ s) :=
    I.unpacked hsound.scanner.laid hliteral.2 hopen
  -- then the suffix is taken
  have hsound' : (Parse.unpacked σ s).Sound text := (hsound.taken σ hread).withDraft _
  have hend' : (Parse.unpacked σ s).kind ≠ .endOfFile := by
    show (s.taken σ .afterLiteral).kind ≠ .endOfFile
    rw [hsuffix]
    nofun
  let t := (Parse.unpacked σ s).taken σ .usual
  let d := t.draft.push (.ofToken (Parse.unpacked σ s).scanner.token none)
  have hsecond : I.holds base (.node (.ofToken (Parse.unpacked σ s).scanner.token none))
      .literal t := I.taken hσ hsound' hend' nofun hpieces
  have hlast : I.holds base .empty .literal (t.withDraft d) := I.pushed (.inl rfl) hsecond
  have husual : Admitted.usual.ReadsLiterals := ⟨rfl, rfl⟩
  have hon := hsound'.onward_taken σ husual hend'
  have hclosed : I.holds b (.draft d .literal) F (t.withDraft (s.taken σ .afterLiteral).draft) :=
    hclose ⟨hon.sound.withDraft d, hon.le, hon.steady, hon.report, hon.owed⟩ hlast
  have hfair : Standing.literal ≠ .failed := nofun
  exact I.finished (hon.sound.withDraft (s.taken σ .afterLiteral).draft) hfair hclosed

end Invariant

section Loops

variable {g : Grammar} {σ : Setting}

/-- The turns of a loop keep an invariant, by induction on how many may be left. -/
theorem iterate_keeps {I : Invariant text options β} {b : β} {α ρ : Type}
    {turn : α → Parse (Step α ρ)} {again : α → Stage} {done : ρ → Stage}
    (harrive : ∀ {x s s' r}, s.Sound text → (again x).Fits s → turn x σ s = some (r, s') →
      Arrives text (again x) (afterTurn again (fun r => { done r with moved := false }) r) s s')
    (hturn : ∀ {x s s' r}, s.Sound text → (again x).Fits s → turn x σ s = some (r, s') →
      I.holds b (again x).hand (again x).standing s →
      I.holds b (afterTurn again (fun r => { done r with moved := false }) r).hand
        (afterTurn again (fun r => { done r with moved := false }) r).standing s')
    (n : Nat) : ∀ {x s s' r}, s.Sound text → (again x).Fits s →
      iterate turn n x σ s = some (r, s') → I.holds b (again x).hand (again x).standing s →
      I.holds b (done r).hand (done r).standing s' := by
  induction n with
  | zero => exact fun _ _ h => nomatch h
  | succ n ih =>
    intro x s s' r hsound hfit hrun hs
    rcases iterate_succ hrun with hrun | ⟨y, t, hrun, hrest⟩
    · exact hturn hsound hfit hrun hs
    · have h := harrive hsound hfit hrun
      exact ih h.onward.sound ⟨h.fits.at?, h.fits.owed⟩ hrest (hturn hsound hfit hrun hs)

end Loops

/-- **An orderly program keeps every invariant**, if the grammar under it does. -/
theorem Orderly.keeps {I : Invariant text options β} {g : Grammar} {k : Nat} {f : Bool} {α : Type}
    {st : Stage} {m : Parse α} {q : α → Stage} (hg : g.Leads text) (hI : g.Keeps I)
    (h : Orderly text g k f st m q) :
    ∀ {σ : Setting} {s s' : Session} {r : α} {b : β}, σ.Reads text options → s.Sound text →
      st.Fits s → m σ s = some (r, s') → I.holds b st.hand st.standing s →
      I.holds b (q r).hand (q r).standing s' := by
  induction h with
  | pure hs =>
    intro σ s s' r b hσ hsound hfit hrun hI
    obtain ⟨rfl, rfl⟩ := pure_eq_some.1 hrun
    exact I.serves hs hsound hfit hI
  | bind first _ ih ih' =>
    intro σ s s' r b hσ hsound hfit hrun hI
    obtain ⟨a, t, hrun, hrun'⟩ := bind_eq_some.1 hrun
    have h := first.arrives hg hsound hfit hrun
    exact ih' a hσ h.onward.sound h.fits hrun' (ih hσ hsound hfit hrun hI)
  | sure P hP first _ ih ih' =>
    intro σ s s' r b hσ hsound hfit hrun hI
    obtain ⟨a, t, hrun, hrun'⟩ := bind_eq_some.1 hrun
    have h := first.arrives hg hsound hfit hrun
    exact ih' a (hP hsound hfit hrun) hσ h.onward.sound h.fits hrun' (ih hσ hsound hfit hrun hI)
  | serve before inner after ih =>
    intro σ s s' r b hσ hsound hfit hrun hI
    have h := inner.arrives hg hsound (before.fits hfit) hrun
    have hbefore := I.serves before hsound hfit hI
    exact I.serves (after r) h.onward.sound h.fits
      (ih hσ hsound (before.fits hfit) hrun hbefore)
  | past _ ih =>
    intro σ s s' r b hσ hsound hfit hrun hI
    exact ih hσ hsound ⟨hfit.at?, hfit.owed⟩ hrun hI
  | moves moved _ hm ih => exact fun hσ hsound hfit hrun hI => ih hσ hsound hfit hrun hI
  | look _ _ ih =>
    intro σ s s' r b hσ hsound hfit hrun hI
    obtain ⟨_, _, h₁, hrun⟩ := bind_eq_some.1 hrun
    obtain ⟨rfl, rfl⟩ := Prod.mk.inj (Option.some.inj h₁)
    exact ih s (fun c hc => hfit.at? c hc) hσ hsound ⟨fun c hc => Option.some.inj hc, hfit.owed⟩
      hrun hI
  | aside hp => exact fun hσ hsound hfit hrun hI => I.beside (hp.beside hrun) hI
  | flush =>
    intro σ s s' r b hσ hsound hfit hrun hI
    obtain ⟨rfl, rfl⟩ := Prod.mk.inj (Option.some.inj ((flush_run σ s).symm.trans hrun))
    exact I.flushed hσ hsound hI
  | consumeWith hl has hn =>
    intro σ s s' r b hσ hsound hfit hrun hI
    obtain ⟨rfl, rfl⟩ := Prod.mk.inj (Option.some.inj ((consumeWith_run _ _ _ σ s).symm.trans hrun))
    split
    · exact hI
    · next hk => exact I.pushed hl (I.taken hσ hsound hk (has.session σ s) hI)
  | consumeWithAt hc hl has hn =>
    intro σ s s' r b hσ hsound hfit hrun hI
    obtain ⟨rfl, rfl⟩ := Prod.mk.inj (Option.some.inj ((consumeWith_run _ _ _ σ s).symm.trans hrun))
    have hk : s.kind ≠ .endOfFile := hfit.at? _ rfl ▸ hc
    rw [if_neg hk]
    exact I.pushed hl (I.taken hσ hsound hk (has.session σ s) hI)
  | @takeWord _ word =>
    intro σ s s' r b hσ hsound hfit hrun hI
    rw [takeWord_run] at hrun
    obtain ⟨rfl, rfl⟩ := Prod.mk.inj (Option.some.inj ((consumeWith_run _ _ _ σ s).symm.trans hrun))
    split
    · exact hI
    · next hk =>
      exact I.pushed (.inl rfl) (I.taken hσ hsound hk (s.readAs_wordTaken word σ) hI)
  | @takeWordAt _ word _ _ _ _ hc =>
    intro σ s s' r b hσ hsound hfit hrun hI
    rw [takeWord_run] at hrun
    obtain ⟨rfl, rfl⟩ := Prod.mk.inj (Option.some.inj ((consumeWith_run _ _ _ σ s).symm.trans hrun))
    have hk : s.kind ≠ .endOfFile := hfit.at? _ rfl ▸ hc
    rw [if_neg hk]
    exact I.pushed (.inl rfl) (I.taken hσ hsound hk (s.readAs_wordTaken word σ) hI)
  | leaf hc has =>
    intro σ s s' r b hσ hsound hfit hrun hI
    have hk : s.kind ≠ .endOfFile := hfit.at? _ rfl ▸ hc
    obtain ⟨rfl, rfl⟩ := Prod.mk.inj (Option.some.inj ((leaf_run _ σ hk).symm.trans hrun))
    exact I.taken hσ hsound hk (has.session σ s) hI
  | @consumeNumber _ next _ _ _ hc hn =>
    intro σ s s' r b hσ hsound hfit hrun hI
    have hk : s.kind ≠ .endOfFile := hfit.at? _ rfl ▸ hc
    obtain ⟨rfl, rfl⟩ := Prod.mk.inj (Option.some.inj ((consumeNumber_run _ σ hk).symm.trans hrun))
    exact I.number hsound.scanner.laid (I.taken hσ hsound hk nofun hI)
  | quotedLiteral hc =>
    intro σ s s' r b hσ hsound hfit hrun hI
    have hquoted := hfit.at? _ rfl ▸ hc
    have hk : s.kind ≠ .endOfFile := by rcases hquoted with h | h | h <;> (rw [h]; nofun)
    have htaken : I.holds b (.node (.ofToken s.scanner.token none)) _ (s.taken σ .afterLiteral) :=
      I.taken hσ hsound hk nofun hI
    by_cases hsuffix : (s.taken σ .afterLiteral).kind = .literalSuffix
    · obtain ⟨rfl, rfl⟩ :=
        Prod.mk.inj (Option.some.inj ((quotedLiteral_suffixed hk hsuffix).symm.trans hrun))
      exact I.suffixed hσ hsound hquoted hsuffix hI
    · obtain ⟨rfl, rfl⟩ :=
        Prod.mk.inj (Option.some.inj ((quotedLiteral_bare hk hsuffix).symm.trans hrun))
      exact htaken
  | split hc =>
    intro σ s s' r b hσ hsound hfit hrun hI
    obtain ⟨rfl, rfl⟩ := Prod.mk.inj (Option.some.inj hrun)
    have hsplit := hc
    rw [← hfit.at? _ rfl] at hsplit
    exact I.reshaped (Scanner.split_reshaped hsound.scanner hsplit).1 hI
  | operatorKind =>
    intro σ s s' r b hσ hsound hfit hrun hI
    obtain ⟨rfl, rfl⟩ := Prod.mk.inj (Option.some.inj hrun)
    exact I.reshaped (Scanner.joinGreater_reshaped hsound.scanner) hI
  | pushChild hl =>
    intro σ s s' r b hσ hsound hfit hrun hI
    obtain ⟨rfl, rfl⟩ := Prod.mk.inj (Option.some.inj hrun)
    exact I.pushed hl hI
  | pushAll =>
    intro σ s s' r b hσ hsound hfit hrun hI
    obtain ⟨rfl, rfl⟩ := Prod.mk.inj (Option.some.inj hrun)
    exact I.spread hI
  | setKind hF hk =>
    intro σ s s' r b hσ hsound hfit hrun hI
    obtain ⟨rfl, rfl⟩ := Prod.mk.inj (Option.some.inj hrun)
    exact I.renamed hF hk hI
  | failDraft hF =>
    intro σ s s' r b hσ hsound hfit hrun hI
    obtain ⟨rfl, rfl⟩ := Prod.mk.inj (Option.some.inj hrun)
    exact I.failed hF hI
  | collect hk filled ih =>
    intro σ s s' r b hσ hsound hfit hrun hI
    obtain ⟨t, hbody, rfl, rfl⟩ := collect_eq_some.1 hrun
    have h := filled.arrives hg (hsound.withDraft _) (.withDraft hfit _) hbody
    obtain ⟨base, hopen, hclose⟩ := I.opened hk (fun hl => nomatch h.lost hl) hI
    exact hclose h.onward (ih hσ (hsound.withDraft _) (.withDraft hfit _) hbody hopen)
  | refill filled ih =>
    intro σ s s' r b hσ hsound hfit hrun hI
    obtain ⟨t, hbody, rfl, rfl⟩ := collect_eq_some.1 hrun
    obtain ⟨base, hopen, hclose⟩ := I.reopened hI
    have h := filled.arrives hg (hsound.withDraft _) (.withDraft hfit _) hbody
    exact hclose h.onward (ih hσ (hsound.withDraft _) (.withDraft hfit _) hbody hopen)
  | finish hF =>
    intro σ s s' r b hσ hsound hfit hrun hI
    obtain ⟨rfl, rfl⟩ := Prod.mk.inj (Option.some.inj hrun)
    exact I.finished hsound hF hI
  | missing hk =>
    intro σ s s' r b hσ hsound hfit hrun hI
    obtain ⟨rfl, rfl⟩ := Prod.mk.inj (Option.some.inj hrun)
    exact I.missing hk hsound (hfit.owed rfl) hI
  | @restricted _ _ _ restriction _ _ _ ih =>
    intro σ s s' r b hσ hsound hfit hrun hI
    have hσ' : ({ σ with restriction } : Setting).Reads text options := ⟨hσ.source, hσ.options⟩
    exact ih hσ' hsound hfit hrun hI
  | guarded hh _ _ ih ih' =>
    intro σ s s' r b hσ hsound hfit hrun hI
    rw [guarded_eq] at hrun
    split at hrun
    · have hσ' : ({ σ with depth := σ.depth + 1 } : Setting).Reads text options :=
        ⟨hσ.source, hσ.options⟩
      exact ih hσ' hsound hfit hrun hI
    · obtain ⟨_, t, hreport, hrun⟩ := bind_eq_some.1 hrun
      have hb := aside_reportLimit.beside hreport
      have hkind : t.kind = s.kind := congrArg Scanner.kind hb.scanner
      exact ih' hσ (hb.onward hsound).sound ⟨fun c hc => hkind.trans (hfit.at? c hc),
        fun _ => hb.owed rfl⟩ hrun (I.limited hh hb (reportLimit_isLimited hreport) hI)
  | speculate _ ih =>
    intro σ s s' r b hσ hsound hfit hrun hI
    rcases speculate_eq_some hrun with ⟨v, t, rfl, htried, -, he⟩ | ⟨rfl, he⟩
    · have hb : t.Beside false s' := by
        rw [he]
        exact ⟨rfl, rfl, rfl, .refl _, rfl, nofun⟩
      exact I.beside hb (ih hσ hsound hfit htried hI)
    · have hb : s.Beside false s' := by
        rw [he]
        exact ⟨rfl, rfl, rfl, .refl _, rfl, nofun⟩
      exact I.beside hb hI
  | @loop _ _ _ turn _ _ again done hst hagain first later ih ih' =>
    intro σ s s' r b hσ hsound hfit hrun hI
    obtain ⟨n, hrun⟩ : ∃ n, iterate turn (n + 1) _ σ s = some (r, s') := ⟨_, hrun⟩
    rcases iterate_succ hrun with hturn | ⟨y, t, hturn, hrun⟩
    · exact ih hσ hsound hfit hturn hI
    · have h := first.arrives hg hsound hfit hturn
      exact iterate_keeps (fun hs hf hr => (later _).arrives hg hs hf hr)
        (fun hs hf hr hI => ih' _ hσ hs hf hr hI) n h.onward.sound ⟨h.fits.at?, h.fits.owed⟩ hrun
        (ih hσ hsound hfit hturn hI)
  | call hr hn =>
    intro σ s s' r b hσ hsound hfit hrun hholds
    exact hI hσ hsound hholds hrun
  | callAt hr hc =>
    intro σ s s' r b hσ hsound hfit hrun hholds
    exact hI hσ hsound hholds hrun

end ConcreteSyntax
