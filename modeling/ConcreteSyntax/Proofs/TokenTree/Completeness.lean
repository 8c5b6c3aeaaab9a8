import ConcreteSyntax.Proofs.Termination
import ConcreteSyntax.Proofs.TokenTree.Soundness

/-! # What is well-formed is read without a report

A sequence of tokens that is accepted between delimiters is read to its end and nothing is reported
of it, unless the limit of nesting is met (`Grammar.complete_upTo`). Again elements are read one
after another, by induction on the turns, and groups inside one another, by induction on the depth.
Only where the reading stands is followed: what it has built is known from what was not
reported.

A group is read without a diagnostic, exactly to its own closer, if and only if the tokens between
the delimiters are accepted, and then its groups and repetitions are nested as the delimiters are
(`Grammar.tokenTree_accepts`): to both directions, of what is read, it is added that something is
read. -/

namespace ConcreteSyntax

open Parse
open TokenTree

variable {form : TreeForm} {source : String} {σ : Setting} {s s' t : Session}
  {ts us rest : List Token} {bs : List Bracket}

/-! ### What comes next -/

namespace TokenTree

/-- A token of another kind than those that end a sequence belongs to the sequence. -/
theorem exists_head {k : Kind} (h : headKind (us ++ rest) = k) (hend : k ≠ .endOfFile)
    (hclose : k.isClose = false) (hstops : EndsHere rest) :
    ∃ u vs, us = u :: vs ∧ u.kind = k := by
  cases us with
  | cons u vs => exact ⟨u, vs, rfl, h⟩
  | nil =>
    have h : headKind rest = k := h
    rcases hstops with hs | hs
    · exact absurd (h.symm.trans hs) hend
    · rw [h, hclose] at hs
      exact absurd hs Bool.false_ne_true

/-- A suffix that a literal takes belongs to the sequence of the literal. -/
theorem exists_suffix {vs more : List Token} (hvs : ∀ v ∈ vs, v.kind = .literalSuffix)
    (hstops : EndsHere rest) (h : us ++ rest = vs ++ more) :
    ∃ ws, us = vs ++ ws ∧ more = ws ++ rest := by
  rcases List.append_eq_append_iff.1 h with ⟨ws, rfl, hrest⟩ | ⟨ws, rfl, hmore⟩
  · cases ws with
    | nil => exact ⟨[], by simp, hrest.symm⟩
    | cons w ws =>
      have hw : headKind rest = .literalSuffix := by
        rw [hrest]
        exact hvs w (by simp)
      rcases hstops with hs | hs
      · exact nomatch hw.symm.trans hs
      · rw [hw] at hs
        exact nomatch hs
  · exact ⟨ws, rfl, hmore⟩

end TokenTree

namespace Session

/-- Nothing was reported, and the session stands at these tokens now. -/
structure GoesTo (source : String) (rest : List Token) (s s' : Session) : Prop where
  report : s'.report = s.report
  stands : s'.At source.toList rest

theorem GoesTo.trans {us rest : List Token} {s s' s'' : Session} (h : s.GoesTo source us s')
    (h' : s'.GoesTo source rest s'') : s.GoesTo source rest s'' :=
  ⟨h'.report.trans h.report, h'.stands⟩

/-- An element of a sequence was read: the rest of the sequence is one, too. -/
def GoesOn (form : TreeForm) (source : String) (rest : List Token) (s s' : Session) : Prop :=
  ∃ us bs, Derives form source false us bs ∧ s.GoesTo source (us ++ rest) s'

/-- A token of which nothing more is asked. -/
theorem At.token_goesOn {u : Token} (h : s.At source.toList (u :: (us ++ rest)))
    (hsuffix : u.kind.takesSuffix = false) (hopen : u.kind.isOpen = false)
    (hclose : u.kind.isClose = false) (hus : Derives form source false us bs) :
    Gives source.toList σ consume s fun _ s' => s.GoesOn form source rest s' := by
  obtain ⟨s', hrun, hat, hbrings⟩ := h.consumes_itself form σ none hsuffix
    (by rw [Kind.isDelimiter, hopen, hclose]; rfl)
  exact .of_run hrun ⟨us, bs, hus, hbrings.report, hat⟩

/-- A metavariable, which a colon may make a binding. -/
theorem At.metavariable_goesOn {n : Token} (hσ : σ.source = source)
    (h : s.At source.toList (n :: (us ++ rest))) (hk : n.kind = .metavariable) (hstops : EndsHere rest)
    (hd : Derives form source false (n :: us) bs) :
    Gives source.toList σ
      (if form.hasBindings && s.ahead 1 == .colon then Parse.child Grammar.binding else consume) s
      fun _ s' => s.GoesOn form source rest s' := by
  obtain ⟨-, hbound, hus⟩ := (derives_cons (by rw [hk]; rfl)).1 hd
  rw [h.ahead (by rw [hk]; rfl) σ]
  split
  · next hahead =>
    obtain ⟨hb, hahead⟩ := Bool.and_eq_true_iff.1 hahead
    obtain ⟨c, us, rfl, hc⟩ := exists_head (eq_of_beq hahead) (by decide) rfl hstops
    cases hbound hb hk c us rfl hc with
    | @word w ws hword hspecifier =>
      obtain ⟨s', hrun, hat, hbrings⟩ := At.binding h form σ hk hc hword (hσ ▸ hspecifier)
      have hinert : ∀ u ∈ [c, w], u.kind.isInert = true :=
        List.forall_mem_cons.2 ⟨by rw [hc]; rfl, by simpa using isInert_of_word hword⟩
      rw [hk] at hus
      exact .of_run hrun ⟨ws, bs, (derives_inert hinert).1 hus, hbrings.report, hat⟩
  · rw [hk] at hus
    exact h.token_goesOn (by rw [hk]; rfl) (by rw [hk]; rfl) (by rw [hk]; rfl) hus

/-- A quote, which a word may make a lifetime. -/
theorem At.quote_goesOn {q : Token} (h : s.At source.toList (q :: (us ++ rest)))
    (hk : q.kind = .quote) (hstops : EndsHere rest) (hus : Derives form source false us bs) :
    Gives source.toList σ
      (if s.ahead 1 == .identifier || (s.ahead 1).isWord then Parse.child Parse.lifetime
        else consume) s fun _ s' => s.GoesOn form source rest s' := by
  rw [h.ahead (by rw [hk]; rfl) σ]
  split
  · next hahead =>
    have hclose : (headKind (us ++ rest)).isClose = false := Bool.eq_false_iff.2 fun hc =>
      Bool.false_ne_true ((not_word_of_isClose hc).symm.trans hahead)
    obtain ⟨w, us, rfl, hw⟩ := exists_head rfl (Kind.ne_endOfFile_of_word hahead) hclose hstops
    rw [← hw] at hahead
    obtain ⟨s', hrun, hat, hbrings⟩ := At.lifetime h form σ hk hahead
    have hinert : ∀ u ∈ [w], u.kind.isInert = true := by simpa using isInert_of_word hahead
    exact .of_run hrun ⟨us, bs, (derives_inert hinert).1 hus, hbrings.report, hat⟩
  · exact h.token_goesOn (by rw [hk]; rfl) (by rw [hk]; rfl) (by rw [hk]; rfl) hus

/-- A literal and its suffix. -/
theorem At.literal_goesOn {u : Token} (h : s.At source.toList (u :: (us ++ rest)))
    (hk : u.kind.startsLiteral = true) (hstops : EndsHere rest)
    (hus : Derives form source false us bs) :
    Gives source.toList σ (Parse.child Parse.literal) s
      fun _ s' => s.GoesOn form source rest s' := by
  obtain ⟨vs, more, s', hts, hvs, hrun, hat, hbrings⟩ := h.literal form σ hk
  obtain ⟨ws, rfl, rfl⟩ := exists_suffix hvs hstops hts
  have hinert : ∀ v ∈ vs, v.kind.isInert = true := fun v hv => by rw [hvs v hv]; rfl
  exact .of_run hrun ⟨ws, bs, (derives_inert hinert).1 hus, hbrings.report, hat⟩

end Session

/-! ### Reading on -/

namespace Grammar

/-- A grammar that reports nothing of groups and repetitions that are well-formed. -/
structure CompleteTrees (form : TreeForm) (source : String) (g : Grammar) : Prop where
  leads : g.Leads source.toList
  group : ∀ {σ s o us c rest bs}, σ.source = source →
    s.At source.toList (o :: (us ++ c :: rest)) → o.kind.closer? = some c.kind →
      Derives form source false us bs →
        Gives source.toList σ (g.parse (.tokenTree form)) s fun _ s' => s.GoesTo source rest s'
  repetition : ∀ {σ s d o us c mark rest bs}, σ.source = source →
    s.At source.toList (d :: o :: (us ++ c :: (mark ++ rest))) → d.kind = .dollar →
      o.kind = .openParen → c.kind = .closeParen → Marks mark → Derives form source false us bs →
        Gives source.toList σ (g.parse (.repetition form)) s fun _ s' => s.GoesTo source rest s'

namespace CompleteTrees

variable {g : Grammar} (hg : g.CompleteTrees form source)

include hg

/-- A group inside a sequence. -/
theorem group_goesOn {o : Token} (hσ : σ.source = source)
    (h : s.At source.toList (o :: (us ++ rest))) (ho : o.kind.isOpen = true)
    (hd : Derives form source false (o :: us) bs) :
    Gives source.toList σ (Parse.child (g.parse (.tokenTree form))) s
      fun _ s' => s.GoesOn form source rest s' := by
  obtain ⟨vs, c, ws, inside, cs, rfl, hoc, hinside, -, hws⟩ := hd.of_open ho
  rw [List.append_assoc, List.cons_append] at h
  exact .child (hg.group hσ h hoc hinside) fun n t ht =>
    ⟨ws, cs, hws, ht.report, ht.stands.withDraft _⟩

/-- A `$` inside a sequence, before a parenthesis or not. -/
theorem dollar_goesOn {d : Token} (hσ : σ.source = source)
    (h : s.At source.toList (d :: (us ++ rest))) (hk : d.kind = .dollar) (hstops : EndsHere rest)
    (hd : Derives form source true us bs) :
    Gives source.toList σ
      (if s.ahead 1 == .openParen then Parse.child (g.parse (.repetition form)) else consume) s
      fun _ s' => s.GoesOn form source rest s' := by
  rw [h.ahead (by rw [hk]; rfl) σ]
  split
  · next hahead =>
    obtain ⟨o, us, rfl, ho⟩ := exists_head (eq_of_beq hahead) (by decide) rfl hstops
    obtain ⟨vs, c, ws, inside, cs, rfl, hoc, hinside, hrepeated, hws⟩ :=
      hd.of_open (by rw [ho]; rfl)
    obtain ⟨mark, more, rfl, hmark⟩ := repeated_iff.1 (hrepeated rfl ho)
    rw [ho] at hoc
    simp only [List.cons_append, List.append_assoc] at h
    exact .child (hg.repetition hσ h hk ho (Option.some.inj hoc).symm hmark hinside) fun n t ht =>
      ⟨more, cs, hmark.derives_append.1 hws, ht.report, ht.stands.withDraft _⟩
  · next hahead =>
    rw [beq_iff_eq] at hahead
    exact h.token_goesOn (by rw [hk]; rfl) (by rw [hk]; rfl) (by rw [hk]; rfl)
      (hd.reflag (headKind_ne_of_front (List.prefix_append us rest) (by decide) hahead) false)

/-- The first element of a sequence. -/
theorem element {u : Token} (hσ : σ.source = source) (h : s.At source.toList (u :: (us ++ rest)))
    (hstops : EndsHere rest) (hd : Derives form source false (u :: us) bs) :
    Gives source.toList σ (g.treeElement form s) s fun _ s' => s.GoesOn form source rest s' := by
  have hu := h.kind_cons
  have hplain (hopen : u.kind.isOpen = false) := (derives_cons hopen).1 hd
  unfold treeElement
  split
  · next hk => exact hg.group_goesOn hσ h (by rw [← hu, hk]; rfl) hd
  · next hk => exact hg.group_goesOn hσ h (by rw [← hu, hk]; rfl) hd
  · next hk => exact hg.group_goesOn hσ h (by rw [← hu, hk]; rfl) hd
  · next hk =>
    rw [hu] at hk
    obtain ⟨-, -, hus⟩ := hplain (by rw [hk]; rfl)
    rw [hk] at hus
    exact hg.dollar_goesOn hσ h hk hstops hus
  · next hk => exact h.metavariable_goesOn hσ (hu ▸ hk) hstops hd
  · next hk =>
    rw [hu] at hk
    obtain ⟨-, -, hus⟩ := hplain (by rw [hk]; rfl)
    rw [hk] at hus
    exact h.quote_goesOn hk hstops hus
  · next hparen hbracket hbrace hdollar hname hquote =>
    have hopen := isOpen_eq_false hparen hbracket hbrace
    rw [hu] at hopen hdollar ⊢
    obtain ⟨hclose, -, hus⟩ := hplain hopen
    rw [beq_eq_false_iff_ne.2 hdollar] at hus
    split
    · next hl => exact h.literal_goesOn hl hstops hus
    · next hl => exact h.token_goesOn (takesSuffix_eq_false hl) hopen hclose hus

/-- A turn reads an element of a sequence, if there is one. -/
theorem turn (hσ : σ.source = source) (h : s.At source.toList (us ++ rest)) (hstops : EndsHere rest)
    (hd : Derives form source false us bs) :
    Gives source.toList σ (g.treeTurn form) s fun b s' =>
      (b = false ∧ s.GoesTo source rest s') ∨ (b = true ∧ s.GoesOn form source rest s') := by
  have hat := h.flushed (σ := σ)
  have hkind := hat.kind
  refine .step (flush_run σ s) (.step (a := s.flushed σ) (t := s.flushed σ) rfl ?_)
  cases us with
  | nil =>
    have hstop : ((s.flushed σ).isAt .endOfFile || (s.flushed σ).kind.isClose) = true := by
      rw [Session.isAt, hkind, Bool.or_eq_true]
      exact hstops.imp_left beq_iff_eq.2
    rw [if_pos hstop]
    exact .pure (.inl ⟨rfl, rfl, hat⟩)
  | cons u us =>
    have hclose : u.kind.isClose = false := by
      by_cases ho : u.kind.isOpen = true
      · exact Bool.eq_false_iff.2 fun hc => by
          rw [isOpen_of_isClose hc] at ho
          exact absurd ho Bool.false_ne_true
      · exact ((derives_cons (Bool.eq_false_iff.2 ho)).1 hd).1
    have hgo : ((s.flushed σ).isAt .endOfFile || (s.flushed σ).kind.isClose) = false := by
      rw [Session.isAt, beq_eq_false_iff_ne.2 (Session.At.ne_end hat), hkind]
      exact hclose
    rw [hgo]
    refine .andThen (hg.element hσ hat hstops hd) fun _ t => ⟨true, t, rfl, rfl, rfl, rfl, ?_⟩
    rintro ⟨vs, cs, hvs, hreport, hstands⟩
    exact .inr ⟨rfl, vs, cs, hvs, hreport, hstands⟩

/-- Turn by turn, a sequence is read to its end. -/
theorem turns (hσ : σ.source = source) (hstops : EndsHere rest) (n : Nat) : ∀ {s us bs},
    s.At source.toList (us ++ rest) → Derives form source false us bs →
      Gives source.toList σ
        (iterate (fun () => return if ← g.treeTurn form then .again () else .done ()) n ()) s
        fun _ s' => s.GoesTo source rest s' := by
  induction n with
  | zero => exact fun _ _ _ _ h => nomatch h
  | succ n ih =>
    intro s us bs h hd r s' hrun
    have hturn := hg.turn hσ h hstops hd
    rcases iterate_succ hrun with hlast | ⟨_, t, hagain, hrest⟩
    · obtain ⟨b, t, hb, hpure⟩ := bind_eq_some.1 hlast
      obtain ⟨hstep, rfl⟩ := pure_eq_some.1 hpure
      refine (hturn b t hb).imp_right fun hturn => ?_
      rcases hturn with ⟨-, hgoes⟩ | ⟨rfl, -⟩
      · exact hgoes
      · exact nomatch hstep
    · obtain ⟨b, t, hb, hpure⟩ := bind_eq_some.1 hagain
      obtain ⟨hstep, rfl⟩ := pure_eq_some.1 hpure
      rcases hturn b t hb with hlimited | ⟨rfl, -⟩ | ⟨-, vs, cs, hvs, hgoes⟩
      · have hmore := Leads.treeTurns hg.leads form n σ t s' r hlimited.1 hrest
        exact .inl (hlimited.onward hmore)
      · exact nomatch hstep
      · exact (ih hgoes.stands hvs r s' hrest).imp_right hgoes.trans

/-- The contents of a tree. -/
theorem contents (hσ : σ.source = source) (h : s.At source.toList (us ++ rest))
    (hstops : EndsHere rest) (hd : Derives form source false us bs) :
    Gives source.toList σ (g.treeContents form) s fun _ s' => s.GoesTo source rest s' := by
  rw [treeContents_eq]
  exact .loop fun n => hg.turns hσ hstops n h hd

/-- A group. -/
theorem delimitedTree {o c : Token} (hσ : σ.source = source)
    (h : s.At source.toList (o :: (us ++ c :: rest))) (hoc : o.kind.closer? = some c.kind)
    (hd : Derives form source false us bs) :
    Gives source.toList σ (g.delimitedTree form) s fun _ s' => s.GoesTo source rest s' := by
  have hclose := isClose_of_closer? hoc
  have hdraft := h.withDraft (.ofKind form.groupKind)
  obtain ⟨t₁, hopen, hat₁, -, hbrings₁⟩ := hdraft.consumes_delimiter form σ
    (by rw [Kind.isDelimiter, isOpen_of_closer? hoc]; rfl)
  refine .node (.step (a := s.kind) (t := s.withDraft (.ofKind form.groupKind)) rfl ?_)
  rw [h.kind_cons, hoc]
  refine .step (a := s.scanner.token.range) (t := s.withDraft (.ofKind form.groupKind)) rfl
    (.step hopen (.bind (hg.contents hσ hat₁ (.inr hclose) hd) (fun _ => ?_) fun _ t₂ ht₂ => ?_))
  · exact (Leads.treeCloser hg.leads (Kind.isStandIn_of_closer? hoc) _ _).bind fun _ => .pure _
  · obtain ⟨t₃, hcloses, hat₃, -, hbrings₃⟩ := ht₂.stands.treeCloser form σ hclose o.kind
      s.scanner.token.range
    refine .step hcloses (.pure ⟨?_, hat₃.withDraft _⟩)
    exact hbrings₃.report.trans (ht₂.report.trans hbrings₁.report)

/-- A repetition. -/
theorem repeated {d o c : Token} {mark : List Token} (hσ : σ.source = source)
    (h : s.At source.toList (d :: o :: (us ++ c :: (mark ++ rest)))) (hd : d.kind = .dollar)
    (ho : o.kind = .openParen) (hc : c.kind = .closeParen) (hmark : Marks mark)
    (hus : Derives form source false us bs) :
    Gives source.toList σ (g.repetition form) s fun _ s' => s.GoesTo source rest s' := by
  obtain ⟨t₀, hdollar, hat₀, hbrings₀⟩ :=
    (h.withDraft (.ofKind form.repetitionKind)).consumes_itself form σ none (by rw [hd]; rfl)
      (by rw [hd]; rfl)
  obtain ⟨t₁, hopen, hat₁, -, hbrings₁⟩ := hat₀.consumes_delimiter form σ (by rw [ho]; rfl)
  refine .node (.step hdollar (.step (a := t₀.scanner.token.range) (t := t₀) rfl (.step hopen
    (.bind (hg.contents hσ hat₁ (.inr (by rw [headKind, hc]; rfl)) hus)
      (fun _ => (Leads.treeCloser hg.leads rfl _ _).bind (Leads.repetitionEnd hg.leads))
      fun _ t₂ ht₂ => ?_))))
  obtain ⟨t₃, hcloses, hat₃, -, hbrings₃⟩ :=
    ht₂.stands.treeCloser form σ (by rw [hc]; rfl) .openParen t₀.scanner.token.range
  rw [hc] at hcloses
  obtain ⟨t₄, hmarks, hat₄, hbrings₄⟩ := hat₃.repetitionMark form σ hmark
  refine .step hcloses (.of_run hmarks ⟨?_, hat₄.withDraft _⟩)
  exact hbrings₄.report.trans (hbrings₃.report.trans (ht₂.report.trans
    (hbrings₁.report.trans hbrings₀.report)))

/-- A group, unless the limit of nesting is met at it. -/
theorem grouped {o c : Token} (hσ : σ.source = source)
    (h : s.At source.toList (o :: (us ++ c :: rest))) (hoc : o.kind.closer? = some c.kind)
    (hd : Derives form source false us bs) :
    Gives source.toList σ (g.tokenTree form) s fun _ s' => s.GoesTo source rest s' := by
  have hat := h.flushed (σ := σ)
  exact .step (flush_run σ s) (.guarded hat.sound
    ((hg.delimitedTree (σ := { σ with depth := σ.depth + 1 }) hσ hat hoc hd).mono fun _ _ ht =>
      ⟨ht.report, ht.stands⟩))

end CompleteTrees

/-- **Of what is well-formed nothing is reported**, to whatever depth groups are read, unless the
limit of nesting is met. -/
theorem complete_upTo (form : TreeForm) (source : String) (depth : Nat) :
    (Grammar.upTo depth).CompleteTrees form source := by
  induction depth with
  | zero =>
    exact ⟨leads_upTo _ _, fun _ _ _ _ _ _ h => (nomatch h),
      fun _ _ _ _ _ _ _ _ _ h => (nomatch h)⟩
  | succ depth ih =>
    refine ⟨leads_upTo _ _, fun hσ h hoc hd n s' hrun => ?_,
      fun hσ h hd ho hc hmark hus n s' hrun => ?_⟩
    · obtain ⟨_, hrun⟩ := opening_eq_some hrun
      refine ih.grouped ?_ h hoc hd n s' hrun
      exact hσ
    · obtain ⟨_, hrun⟩ := opening_eq_some hrun
      refine ih.repeated ?_ h hd ho hc hmark hus n s' hrun
      exact hσ

end Grammar

/-! ### What is accepted -/

namespace Grammar

/-- A group is read to its end, as far as the grammar may go. -/
theorem exists_tokenTree (form : TreeForm) {σ : Setting} {s : Session} (hσ : σ.watches = false)
    (hs : s.Sound σ.source.toList) (ho : s.kind.isOpen = true) :
    ∃ n s', (Grammar.upTo σ.nesting).parse (.tokenTree form) σ s = some (n, s') := by
  have hd : callsFrom σ.source.toList (s.offset + 1) (Nonterminal.tokenTree form).rank <
      σ.nesting := by
    have hlen := Text.byteLength_toList σ.source
    have hle := hs.offset_le
    have hrank := (Nonterminal.tokenTree form).rank_le
    unfold callsFrom Setting.nesting
    omega
  have htakes : (Nonterminal.tokenTree form).takes s.kind = true := ho
  obtain ⟨n, s', hrun⟩ := answers_upTo σ.source.toList σ.nesting rfl hs (.inr htakes) hd
  refine ⟨n, s', ?_⟩
  have hsame : σ.watching false σ.opened = σ := by
    rw [← hσ]
    rfl
  rw [← hsame]
  exact hrun false σ.opened fun h => absurd h Bool.false_ne_true

/-- **A token tree accepts exactly its grammar.** Where the rest of the text is lexically valid and
begins with `(`, some tokens and `)`, a group is read. If the limit of nesting is not met, nothing
is reported and the group ends with that `)` if and only if the tokens are accepted; and then its
groups and repetitions are those of the tokens, with the same delimiters. -/
theorem tokenTree_accepts (form : TreeForm) {σ : Setting} {s : Session} {o c : Token}
    {ts rest : List Token} (hσ : σ.watches = false) (hs : s.Sound σ.source.toList)
    (hts : s.scanner.Yields (o :: (ts ++ c :: rest))) (ho : o.kind = .openParen)
    (hc : c.kind = .closeParen) :
    ∃ n s', (Grammar.upTo σ.nesting).parse (.tokenTree form) σ s = some (n, s') ∧
      (s'.report.isLimited = false →
        (s'.report = s.report ∧ s'.consumedEnd = c.range.stop ↔ Accepted form σ.source ts) ∧
        (Accepted form σ.source ts → ∀ bs, Nests false ts bs →
          n.brackets form = [⟨false, [o.range, c.range], bs⟩])) := by
  have hkind : s.kind = o.kind := hts.kind
  have hat : s.At σ.source.toList (o :: (ts ++ c :: rest)) := ⟨hs, by rw [hkind, ho]; rfl, hts⟩
  have hopen : s.kind.isOpen = true := by rw [hkind, ho]; rfl
  obtain ⟨n, s', hrun⟩ := exists_tokenTree form hσ hs hopen
  refine ⟨n, s', hrun, fun hlimit => ?_⟩
  have hsound (hr : s'.report = s.report) :=
    (sound_upTo form σ.source σ.nesting).group rfl hat hopen hrun hr
  -- what is accepted is read without a report, to the right closer
  have hread (ha : Accepted form σ.source ts) : s'.report = s.report ∧
      s'.consumedEnd = c.range.stop ∧ ∃ bs, Nests false ts bs ∧
        n.brackets form = [⟨false, [o.range, c.range], bs⟩] := by
    obtain ⟨bs, hbs⟩ := accepted_iff.1 ha
    have hcomplete := (complete_upTo form σ.source σ.nesting).group rfl hat
      (by rw [ho, hc]; rfl) hbs
    rcases hcomplete n s' hrun with hlimited | hgoes
    · exact absurd (hlimit.symm.trans hlimited.2) Bool.false_ne_true
    · obtain ⟨o', us, c', rest', cs, he, hoc, hus, -, hend, -, hbrackets, -⟩ := hsound hgoes.report
      obtain ⟨rfl, htail⟩ := List.cons.inj he
      obtain ⟨rfl, rfl, -⟩ := ha.balanced.unique ⟨_, hus.nests⟩ (by rw [hc]; rfl)
        (isClose_of_closer? hoc) htail
      exact ⟨hgoes.report, hend, cs, hus.nests, hbrackets⟩
  refine ⟨⟨fun ⟨hr, hend⟩ => ?_, fun ha => ⟨(hread ha).1, (hread ha).2.1⟩⟩, fun ha bs hbs => ?_⟩
  · obtain ⟨o', us, c', rest', cs, he, -, hus, -, hend', -⟩ := hsound hr
    obtain ⟨rfl, htail⟩ := List.cons.inj he
    have hsplit : (o :: ts) ++ c :: rest = (o :: us) ++ c' :: rest' := congrArg (o :: ·) htail
    obtain ⟨hts', -, -⟩ := Scanner.Yields.unique hts hs.scanner hsplit (hend.symm.trans hend')
    obtain ⟨-, rfl⟩ := List.cons.inj hts'
    exact accepted_iff.2 ⟨cs, hus⟩
  · obtain ⟨-, -, cs, hcs, hbrackets⟩ := hread ha
    rw [hbrackets, hcs.unique hbs]

/-- A pattern that binds expressions with commas between them. -/
theorem tokenTree_accepts_repetition :
    ∃ (σ : Setting) (n : Node) (s' : Session), σ.source = "($($x:expr),*)" ∧
      (Grammar.upTo σ.nesting).parse (.tokenTree .pattern) σ (.start σ.source) = some (n, s') ∧
      s'.report = (Session.start σ.source).report ∧ s'.consumedEnd = 14 ∧
      n.brackets .pattern = [⟨false, [⟨0, 1⟩, ⟨13, 14⟩], [⟨true, [⟨2, 3⟩, ⟨10, 11⟩], []⟩]⟩] := by
  let σ : Setting := { file := "", source := "($($x:expr),*)", options := {} }
  let inner : List Token := [{ kind := .metavariable, range := ⟨3, 5⟩ },
    { kind := .colon, range := ⟨5, 6⟩ }, { kind := .identifier, range := ⟨6, 10⟩ }]
  let mark : List Token :=
    [{ kind := .comma, range := ⟨11, 12⟩ }, { kind := .star, range := ⟨12, 13⟩ }]
  let ts : List Token := { kind := .dollar, range := ⟨1, 2⟩ } ::
    { kind := .openParen, range := ⟨2, 3⟩ } ::
      (inner ++ { kind := .closeParen, range := ⟨10, 11⟩ } :: mark)
  have hts : (Session.start σ.source).scanner.Yields ({ kind := .openParen, range := ⟨0, 1⟩ } ::
      (ts ++ { kind := .closeParen, range := ⟨13, 14⟩ } :: [])) :=
    Scanner.yields_of_tokens? (n := 10) (by decide +kernel)
  have hlimit : ((Grammar.upTo σ.nesting).parse (.tokenTree .pattern) σ (.start σ.source)).map
      (·.2.report.isLimited) = some false := by decide +kernel
  -- `expr` names a fragment, and behind the `)` there are a separator and a mark
  have hinner : Derives .pattern σ.source false inner [] := by
    refine .token rfl rfl (fun _ _ colon back he _ => ?_) (.token rfl rfl (fun _ h => nomatch h)
      (.token rfl rfl (fun _ h => nomatch h) .nil))
    obtain ⟨-, rfl⟩ := List.cons.inj he
    exact .word rfl (by decide +kernel)
  have hmark : Derives .pattern σ.source false mark [] :=
    .token rfl rfl (fun _ h => nomatch h) (.token rfl rfl (fun _ h => nomatch h) .nil)
  have hderives : Derives .pattern σ.source false ts [⟨true, [⟨2, 3⟩, ⟨10, 11⟩], []⟩] :=
    .token rfl rfl (fun _ h => nomatch h)
      (.group rfl hinner (fun _ _ => .separated nofun rfl rfl rfl) hmark)
  have haccepted : Accepted .pattern σ.source ts := accepted_iff.2 ⟨_, hderives⟩
  obtain ⟨n, s', hrun, haccepts⟩ :=
    tokenTree_accepts .pattern (σ := σ) rfl (Session.sound_start _) hts rfl rfl
  rw [hrun] at hlimit
  obtain ⟨hiff, hbrackets⟩ := haccepts (Option.some.inj hlimit)
  obtain ⟨hreport, hend⟩ := hiff.2 haccepted
  exact ⟨σ, n, s', rfl, hrun, hreport, hend, hbrackets haccepted _ hderives.nests⟩

end Grammar

end ConcreteSyntax
