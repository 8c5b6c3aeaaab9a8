import ConcreteSyntax.Proofs.Reading.Outcome
import ConcreteSyntax.Proofs.TokenTree.Element

/-! # What is read without a report is well-formed

A tree of which nothing was reported stands over a sequence of tokens that is accepted, and its
brackets are those of the sequence (`Grammar.sound_upTo`). The proof follows the reading: elements
are read one after another (`Grammar.SoundTrees.contents`), by induction on the turns, and groups
and repetitions inside one another, by induction on the depth. What an element gives is stated
before any tokens that may follow it (`Session.ReadsElement`), because a `$` or a metavariable asks
something of them. -/

namespace ConcreteSyntax

open Parse
open TokenTree

variable {form : TreeForm} {source : String} {σ : Setting} {s s' t : Session} {ts us : List Token}

/-! ### Silence -/

/-- A report that grew both ways is the same. -/
theorem Report.Grows.antisymm {r r' : Report} (h : r.Grows r') (h' : r'.Grows r) : r' = r := by
  have hle := h.front.length_le
  have hle' := h'.front.length_le
  refine h.eq_of_size ?_
  simp only [toList, Array.length_toList] at hle hle'
  exact Nat.le_antisymm hle' hle

/-- Where nothing is reported in the end, nothing is reported on the way. -/
theorem Parse.Advances.silent {α β : Type} {text : List Char} {m : Parse α} {K : α → Parse β}
    {r : β} (hm : m.Advances text) (hK : ∀ a, (K a).Advances text) (hs : s.Sound text)
    (hrun : (m >>= K) σ s = some (r, s')) (hr : s'.report = s.report) :
    ∃ a t, m σ s = some (a, t) ∧ t.report = s.report ∧ K a σ t = some (r, s') ∧
      s'.report = t.report := by
  obtain ⟨a, t, hrun, hrest⟩ := bind_eq_some.1 hrun
  have hfirst := hm σ s t a hs hrun
  have hsecond := hK a σ t s' r hfirst.sound hrest
  have hsame : t.report = s.report :=
    hfirst.report.antisymm (Eq.subst (motive := Report.Grows t.report) hr hsecond.report)
  exact ⟨a, t, hrun, hsame, hrest, hr.trans hsame.symm⟩

/-! ### What is read -/

namespace TokenTree

/-- A front of some tokens begins with the same kind, unless it is empty. -/
theorem headKind_ne_of_front {more : List Token} (h : more <+: ts) {k : Kind} (hk : k ≠ .endOfFile)
    (hne : headKind ts ≠ k) : headKind more ≠ k := by
  obtain ⟨back, rfl⟩ := h
  cases more with
  | nil => exact hk.symm
  | cons t more => exact hne

theorem isOpen_eq_false {k : Kind} (hparen : k ≠ .openParen) (hbracket : k ≠ .openBracket)
    (hbrace : k ≠ .openBrace) : k.isOpen = false := by
  refine Bool.eq_false_iff.2 fun ho => ?_
  unfold Kind.isOpen at ho
  split at ho
  case h_4 => exact absurd ho Bool.false_ne_true
  all_goals contradiction

theorem isInert_of_startsLiteral {k : Kind} (h : k.startsLiteral = true) : k.isInert = true := by
  unfold Kind.startsLiteral at h
  split at h
  case h_8 => exact absurd h Bool.false_ne_true
  all_goals rfl

theorem takesSuffix_eq_false {k : Kind} (h : ¬ k.startsLiteral = true) : k.takesSuffix = false := by
  refine Bool.eq_false_iff.2 fun hk => h ?_
  rcases Kind.eq_of_takesSuffix hk with rfl | rfl | rfl | rfl | rfl <;> rfl

/-- Whether no element begins here. -/
def EndsHere (ts : List Token) : Prop := headKind ts = .endOfFile ∨ (headKind ts).isClose = true

end TokenTree

namespace Session

/-- An element was read without a report: whatever may follow may follow it. -/
def ReadsElement (form : TreeForm) (source : String) (s s' : Session) (ts : List Token) : Prop :=
  ∃ us rest bs, ts = us ++ rest ∧ s'.At source.toList rest ∧ s.Brings form bs [] s' ∧
    ∀ more cs, more <+: rest → Derives form source false more cs →
      Derives form source false (us ++ more) (bs ++ cs)

/-- The contents of a tree were read without a report. -/
def ReadsContents (form : TreeForm) (source : String) (s s' : Session) (ts : List Token) : Prop :=
  ∃ us rest bs, ts = us ++ rest ∧ EndsHere rest ∧ Derives form source false us bs ∧
    s'.At source.toList rest ∧ s.Brings form bs [] s'

/-- A group was read without a report. -/
def ReadsGroup (form : TreeForm) (source : String) (s s' : Session) (n : Node) (ts : List Token) :
    Prop :=
  ∃ o us c rest bs, ts = o :: (us ++ c :: rest) ∧ o.kind.closer? = some c.kind ∧
    Derives form source false us bs ∧ s'.At source.toList rest ∧ s'.consumedEnd = c.range.stop ∧
      s.Brings form [] [] s' ∧ n.brackets form = [⟨false, [o.range, c.range], bs⟩] ∧
        n.kind.isDelimiter = false

/-- A repetition was read without a report. -/
def ReadsRepetition (form : TreeForm) (source : String) (s s' : Session) (n : Node)
    (ts : List Token) : Prop :=
  ∃ d o us c mark rest bs, ts = d :: o :: (us ++ c :: (mark ++ rest)) ∧ d.kind = .dollar ∧
    o.kind = .openParen ∧ c.kind = .closeParen ∧ Marks mark ∧ Derives form source false us bs ∧
      s'.At source.toList rest ∧ s.Brings form [] [] s' ∧
        n.brackets form = [⟨true, [o.range, c.range], bs⟩] ∧ n.kind.isDelimiter = false

/-- A group may stand before whatever may follow. -/
theorem ReadsGroup.element {n : Node} (h : s.ReadsGroup form source s' n ts) :
    s.ReadsElement form source (s'.withDraft (s'.draft.push n)) ts := by
  obtain ⟨o, us, c, rest, bs, rfl, hoc, hinside, hat, -, hbrings, hbrackets, hkind⟩ := h
  refine ⟨o :: (us ++ [c]), rest, _, by simp, hat.withDraft _, hbrings.child hbrackets hkind, ?_⟩
  intro more cs _ hmore
  have hgroup : Derives form source false (o :: (us ++ c :: more)) _ :=
    .group hoc hinside (fun h => absurd h Bool.false_ne_true) hmore
  simpa using hgroup

/-- And so may a repetition. -/
theorem ReadsRepetition.element {n : Node} (h : s.ReadsRepetition form source s' n ts) :
    s.ReadsElement form source (s'.withDraft (s'.draft.push n)) ts := by
  obtain ⟨d, o, us, c, mark, rest, bs, rfl, hd, ho, hc, hmark, hinside, hat, hbrings, hbrackets,
    hkind⟩ := h
  refine ⟨d :: o :: (us ++ c :: mark), rest, _, by simp, hat.withDraft _,
    hbrings.child hbrackets hkind, ?_⟩
  intro more cs _ hmore
  have hgroup : Derives form source true (o :: (us ++ c :: (mark ++ more))) _ :=
    .group (by rw [ho, hc]; rfl) hinside (fun _ _ => repeated_iff.2 ⟨mark, more, rfl, hmark⟩)
      (hmark.derives_append.2 hmore)
  have hdollar : Derives form source false (d :: o :: (us ++ c :: (mark ++ more))) _ :=
    .token (by rw [hd]; rfl) (by rw [hd]; rfl) (fun _ hk => by rw [hd] at hk; exact nomatch hk)
      (by rw [hd]; exact hgroup)
  simpa [ho] using hdollar

/-- A token is an element where nothing that follows makes it more. -/
theorem At.readsElement_token {u : Token} (h : s.At source.toList (u :: ts))
    (hsuffix : u.kind.takesSuffix = false) (hopen : u.kind.isOpen = false)
    (hclose : u.kind.isClose = false) (hdollar : u.kind = .dollar → headKind ts ≠ .openParen)
    (hname : form.hasBindings = true → u.kind = .metavariable → headKind ts ≠ .colon)
    (hrun : consume σ s = some ((), s')) : s.ReadsElement form source s' (u :: ts) := by
  obtain ⟨t, hrun', hat, hbrings⟩ := h.consumes_itself form σ none hsuffix
    (by rw [Kind.isDelimiter, hopen, hclose]; rfl)
  obtain ⟨-, rfl⟩ := Prod.mk.inj (Option.some.inj (hrun'.symm.trans hrun))
  refine ⟨[u], ts, [], rfl, hat, hbrings, fun more cs hprefix hmore => ?_⟩
  refine (derives_cons hopen).2 ⟨hclose, fun hb hk colon back he hcolon => ?_, ?_⟩
  · refine absurd ?_ (headKind_ne_of_front hprefix (by decide) (hname hb hk))
    rw [show more = colon :: back from he]
    exact hcolon
  · by_cases hk : u.kind = .dollar
    · exact hmore.reflag (headKind_ne_of_front hprefix (by decide) (hdollar hk)) _
    · rwa [beq_eq_false_iff_ne.2 hk]

/-- Tokens of which nothing is asked are an element. -/
theorem At.readsElement_inert {us rest : List Token} (hat : s'.At source.toList rest)
    (hbrings : s.Brings form [] [] s') (hus : ∀ u ∈ us, u.kind.isInert = true) :
    s.ReadsElement form source s' (us ++ rest) :=
  ⟨us, rest, [], rfl, hat, hbrings, fun _ _ _ hmore => (derives_inert hus).2 hmore⟩

/-- A binding is one. -/
theorem At.readsElement_binding {n c : Token} (h : s.At source.toList (n :: c :: ts))
    (hσ : σ.source = source) (hn : n.kind = .metavariable) (hc : c.kind = .colon)
    (hrun : Parse.child Grammar.binding σ s = some ((), s')) (hr : s'.report = s.report) :
    s.ReadsElement form source s' (n :: c :: ts) := by
  cases h.binding_silent hn hc hrun hr with
  | @word w rest hword hspecifier =>
    obtain ⟨t, hrun', hat, hbrings⟩ := h.binding form σ hn hc hword hspecifier
    obtain ⟨-, rfl⟩ := Prod.mk.inj (Option.some.inj (hrun'.symm.trans hrun))
    refine ⟨[n, c, w], rest, [], rfl, hat, hbrings, fun more cs _ hmore => ?_⟩
    have hinert : ∀ u ∈ [c, w], u.kind.isInert = true :=
      List.forall_mem_cons.2 ⟨by rw [hc]; rfl, by simpa using isInert_of_word hword⟩
    refine (derives_cons (by rw [hn]; rfl)).2 ⟨by rw [hn]; rfl, fun _ _ colon back he _ => ?_, ?_⟩
    · obtain ⟨-, rfl⟩ := List.cons.inj he
      exact .word hword (hσ ▸ hspecifier)
    · rw [hn]
      exact (derives_inert hinert).2 hmore

end Session

/-! ### Reading on -/

namespace Grammar

section Leads

variable {g : Grammar} {text : List Char}

theorem Leads.treeTurn (h : g.Leads text) (form : TreeForm) : (g.treeTurn form).Advances text :=
  .of_orderly h (k := 0) (F := .proper) .treeTurn

theorem Leads.treeTurns (h : g.Leads text) (form : TreeForm) (n : Nat) :
    (iterate (fun () => return if ← g.treeTurn form then .again () else .done ()) n () :
      Parse Unit).Advances text :=
  Advances.iterate (fun _ => (treeTurn h form).bind fun _ => .pure _) n ()

theorem Leads.treeContents (h : g.Leads text) (form : TreeForm) :
    (g.treeContents form).Advances text :=
  .of_orderly h (k := 0) (F := .proper) .treeContents

theorem Leads.treeCloser {closer : Kind} (h : g.Leads text) (hcloser : closer.isStandIn = true)
    (opener : Kind) (range : Range) : (Grammar.treeCloser opener closer range).Advances text :=
  .of_orderly h (k := 0) (f := true) (F := .proper) (.treeCloser hcloser)

/-- Behind the closer of a repetition a mark is read. -/
theorem Leads.repetitionEnd (h : g.Leads text) (b : Bool) :
    (if b = true then repetitionMark else pure ()).Advances text := by
  cases b
  · exact .pure _
  · exact .of_orderly h (k := 0) (f := true) (F := .proper) .repetitionMark

end Leads

/-- A grammar that reports nothing only of groups and repetitions that are well-formed. -/
structure SoundTrees (form : TreeForm) (source : String) (g : Grammar) : Prop where
  leads : g.Leads source.toList
  group : ∀ {σ s s' n ts}, σ.source = source → s.At source.toList ts → s.kind.isOpen = true →
    g.parse (.tokenTree form) σ s = some (n, s') → s'.report = s.report →
      s.ReadsGroup form source s' n ts
  repetition : ∀ {σ s s' n ts}, σ.source = source → s.At source.toList ts → s.kind = .dollar →
    s.ahead 1 = .openParen → g.parse (.repetition form) σ s = some (n, s') →
      s'.report = s.report → s.ReadsRepetition form source s' n ts

namespace SoundTrees

variable {g : Grammar} (hg : g.SoundTrees form source)

include hg

theorem element (hσ : σ.source = source) (h : s.At source.toList ts) (hs : ¬ EndsHere ts)
    (hrun : g.treeElement form s σ s = some ((), s')) (hr : s'.report = s.report) :
    s.ReadsElement form source s' ts := by
  have hkind := h.kind
  rw [EndsHere, ← hkind, not_or, Bool.not_eq_true] at hs
  obtain ⟨u, ts, rfl, hu⟩ := h.exists_cons hs.1
  have hgroup (ho : s.kind.isOpen = true)
      (hrun : Parse.child (g.parse (.tokenTree form)) σ s = some ((), s')) :
      s.ReadsElement form source s' (u :: ts) := by
    obtain ⟨n, t, hparse, hpush⟩ := bind_eq_some.1 hrun
    obtain ⟨-, rfl⟩ := Prod.mk.inj (Option.some.inj hpush)
    exact (hg.group hσ h ho hparse hr).element
  generalize hm : g.treeElement form s = m at hrun
  unfold treeElement at hm
  split at hm <;> subst hm
  · next hk => exact hgroup (by rw [hk]; rfl) hrun
  · next hk => exact hgroup (by rw [hk]; rfl) hrun
  · next hk => exact hgroup (by rw [hk]; rfl) hrun
  · next hk =>
    rw [hk] at hu
    split at hrun
    · next hahead =>
      obtain ⟨n, t, hparse, hpush⟩ := bind_eq_some.1 hrun
      obtain ⟨-, rfl⟩ := Prod.mk.inj (Option.some.inj hpush)
      exact (hg.repetition hσ h hk (eq_of_beq hahead) hparse hr).element
    · next hahead =>
      rw [h.ahead (by rw [hu]; rfl) σ, beq_iff_eq] at hahead
      exact h.readsElement_token (by rw [hu]; rfl) (by rw [hu]; rfl) (by rw [hu]; rfl)
        (fun _ => hahead) (fun _ hk => by rw [hu] at hk; exact nomatch hk) hrun
  · next hk =>
    rw [hk] at hu
    rw [h.ahead (by rw [hu]; rfl) σ] at hrun
    split at hrun
    · next hahead =>
      have hcolon := eq_of_beq (Bool.and_eq_true_iff.1 hahead).2
      cases ts with
      | nil => exact nomatch hcolon
      | cons c ts => exact h.readsElement_binding hσ hu hcolon hrun hr
    · next hahead =>
      refine h.readsElement_token (by rw [hu]; rfl) (by rw [hu]; rfl) (by rw [hu]; rfl)
        (fun hk => by rw [hu] at hk; exact nomatch hk) (fun hb _ hcolon => hahead ?_) hrun
      rw [hb, hcolon]
      rfl
  · next hk =>
    rw [hk] at hu
    rw [h.ahead (by rw [hu]; rfl) σ] at hrun
    split at hrun
    · next hahead =>
      cases ts with
      | nil => exact nomatch hahead
      | cons w ts =>
        obtain ⟨t, hrun', hat, hbrings⟩ := h.lifetime form σ hu hahead
        obtain ⟨-, rfl⟩ := Prod.mk.inj (Option.some.inj (hrun'.symm.trans hrun))
        have hword : (w.kind == .identifier || w.kind.isWord) = true := hahead
        have hinert : ∀ v ∈ [u, w], v.kind.isInert = true :=
          List.forall_mem_cons.2 ⟨by rw [hu]; rfl, by simpa using isInert_of_word hword⟩
        exact Session.At.readsElement_inert hat hbrings hinert
    · exact h.readsElement_token (by rw [hu]; rfl) (by rw [hu]; rfl) (by rw [hu]; rfl)
        (fun hk => by rw [hu] at hk; exact nomatch hk)
        (fun _ hk => by rw [hu] at hk; exact nomatch hk) hrun
  · next hparen hbracket hbrace hdollar hname hquote =>
    have hopen := isOpen_eq_false hparen hbracket hbrace
    split at hrun
    · next hl =>
      rw [← hu] at hl
      obtain ⟨vs, rest, t, rfl, hvs, hrun', hat, hbrings⟩ := h.literal form σ hl
      obtain ⟨-, rfl⟩ := Prod.mk.inj (Option.some.inj (hrun'.symm.trans hrun))
      have hinert : ∀ v ∈ u :: vs, v.kind.isInert = true :=
        List.forall_mem_cons.2 ⟨isInert_of_startsLiteral hl, fun v hv => by rw [hvs v hv]; rfl⟩
      exact Session.At.readsElement_inert hat hbrings hinert
    · next hl =>
      rw [← hu] at hl hopen hs hdollar hname
      exact h.readsElement_token (takesSuffix_eq_false hl) hopen hs.2
        (fun hk => absurd hk hdollar) (fun _ hk => absurd hk hname) hrun

/-- A turn ends the contents, or it reads an element. -/
theorem turn {b : Bool} (hσ : σ.source = source) (h : s.At source.toList ts)
    (hrun : g.treeTurn form σ s = some (b, s')) (hr : s'.report = s.report) :
    (b = false ∧ s' = s.flushed σ ∧ EndsHere ts) ∨ b = true ∧ s.ReadsElement form source s' ts := by
  have hat := h.flushed (σ := σ)
  unfold treeTurn at hrun
  rw [bind_of_run (flush_run σ s), bind_of_run (a := s.flushed σ) (t := s.flushed σ) rfl] at hrun
  have hstops : ((s.flushed σ).isAt .endOfFile || (s.flushed σ).kind.isClose) = true ↔
      EndsHere ts := by
    rw [EndsHere, ← h.kind, Bool.or_eq_true]
    exact or_congr beq_iff_eq Iff.rfl
  split at hrun
  · next hk =>
    obtain ⟨rfl, rfl⟩ := pure_eq_some.1 hrun
    exact .inl ⟨rfl, rfl, hstops.1 hk⟩
  · next hk =>
    obtain ⟨_, t, helement, hpure⟩ := bind_eq_some.1 hrun
    obtain ⟨rfl, rfl⟩ := pure_eq_some.1 hpure
    obtain ⟨us, rest, bs, hts, hat', hbrings, hmore⟩ :=
      hg.element hσ hat (fun hno => hk (hstops.2 hno)) helement hr
    exact .inr ⟨rfl, us, rest, bs, hts, hat', (h.brings_flushed form σ).trans hbrings, hmore⟩

/-- Turn by turn, elements are read up to a closer or the end. -/
theorem turns (hσ : σ.source = source) (n : Nat) : ∀ {s ts}, s.At source.toList ts →
    iterate (fun () => return if ← g.treeTurn form then .again () else .done ()) n () σ s =
      some ((), s') → s'.report = s.report → s.ReadsContents form source s' ts := by
  induction n with
  | zero => exact fun _ h => nomatch h
  | succ n ih =>
    intro s ts h hrun hr
    have hturn : Advances source.toList
        (do return if ← g.treeTurn form then .again () else .done () : Parse (Step Unit Unit)) :=
      (Leads.treeTurn hg.leads form).bind fun _ => .pure _
    rcases iterate_succ hrun with hlast | ⟨_, t, hagain, hrest⟩
    · obtain ⟨b, t, hb, hpure⟩ := bind_eq_some.1 hlast
      obtain ⟨hstep, rfl⟩ := pure_eq_some.1 hpure
      rcases hg.turn hσ h hb hr with ⟨-, rfl, hstops⟩ | ⟨rfl, -⟩
      · exact ⟨[], ts, [], rfl, hstops, .nil, h.flushed, h.brings_flushed form σ⟩
      · exact nomatch hstep
    · have hfirst := hturn σ s t _ h.sound hagain
      have hsecond := Leads.treeTurns hg.leads form n σ t s' () hfirst.sound hrest
      have hsame : t.report = s.report :=
        hfirst.report.antisymm (Eq.subst (motive := Report.Grows t.report) hr hsecond.report)
      obtain ⟨b, t', hb, hpure⟩ := bind_eq_some.1 hagain
      obtain ⟨hstep, rfl⟩ := pure_eq_some.1 hpure
      rcases hg.turn hσ h hb hsame with ⟨rfl, -, -⟩ | ⟨-, us, rest, bs, rfl, hat, hbrings, hmore⟩
      · exact nomatch hstep
      · obtain ⟨vs, rest, cs, rfl, hstops, hvs, hat', hbrings'⟩ :=
          ih hat hrest (hr.trans hsame.symm)
        exact ⟨us ++ vs, rest, bs ++ cs, (List.append_assoc _ _ _).symm, hstops,
          hmore vs cs (List.prefix_append _ _) hvs, hat', hbrings.trans hbrings'⟩

/-- The contents of a tree. -/
theorem contents (hσ : σ.source = source) (h : s.At source.toList ts)
    (hrun : g.treeContents form σ s = some ((), s')) (hr : s'.report = s.report) :
    s.ReadsContents form source s' ts := by
  rw [treeContents_eq] at hrun
  obtain ⟨_, _, hread, hrun⟩ := bind_eq_some.1 hrun
  obtain ⟨rfl, rfl⟩ := Prod.mk.inj (Option.some.inj hread)
  exact hg.turns hσ _ h hrun hr

/-- A group is read over its delimiters and what is between them. -/
theorem delimitedTree {n : Node} (hσ : σ.source = source) (h : s.At source.toList ts)
    (ho : s.kind.isOpen = true) (hrun : g.delimitedTree form σ s = some (n, s'))
    (hr : s'.report = s.report) : s.ReadsGroup form source s' n ts := by
  obtain ⟨closer, hcloser⟩ := Option.ne_none_iff_exists'.1 (Kind.closer?_ne_none ho)
  have hclose := isClose_of_closer? hcloser
  have hend : s.kind ≠ .endOfFile := fun hk => by rw [hk] at ho; exact Bool.false_ne_true ho
  obtain ⟨o, ts, rfl, hok⟩ := h.exists_cons hend
  obtain ⟨t₁, hopen, hat₁, -, hbrings₁⟩ := (h.withDraft (.ofKind form.groupKind)).consumes_delimiter
    form σ (by rw [hok, Kind.isDelimiter, ho]; rfl)
  obtain ⟨u, hbody, rfl, rfl⟩ := node_eq_some.1 hrun
  have hkind : Parse.kind σ (s.withDraft (.ofKind form.groupKind)) =
      some (s.kind, s.withDraft (.ofKind form.groupKind)) := rfl
  rw [bind_of_run hkind, hcloser] at hbody
  obtain ⟨range, _, hrange, hbody⟩ := bind_eq_some.1 hbody
  obtain ⟨-, rfl⟩ := Prod.mk.inj (Option.some.inj hrange)
  rw [bind_of_run hopen] at hbody
  have hclosing := Leads.treeCloser hg.leads (Kind.isStandIn_of_closer? hcloser) s.kind range
  have hreport₁ : u.report = t₁.report := Eq.trans hr hbrings₁.report.symm
  obtain ⟨_, t₂, hinside, hsame₂, hbody, hr₂⟩ := (Leads.treeContents hg.leads form).silent
    (fun _ => hclosing.bind fun _ => .pure _) hat₁.sound hbody hreport₁
  obtain ⟨us, rest, bs, rfl, -, hderives, hat₂, hbrings₂⟩ := hg.contents hσ hat₁ hinside hsame₂
  obtain ⟨b, _, hcloses, hpure⟩ := bind_eq_some.1 hbody
  obtain ⟨-, rfl⟩ := pure_eq_some.1 hpure
  obtain ⟨c, rest, rfl, rfl⟩ := hat₂.treeCloser_silent
    (fun hk => by rw [hk] at hclose; exact Bool.false_ne_true hclose) hcloses hr₂
  obtain ⟨t₃, hcloses', hat₃, hend₃, hbrings₃⟩ := hat₂.treeCloser form σ hclose s.kind range
  obtain ⟨-, rfl⟩ := Prod.mk.inj (Option.some.inj (hcloses'.symm.trans hcloses))
  have hadds : (Draft.ofKind form.groupKind).Adds form bs [o.range, c.range] t₃.draft := by
    simpa [Session.withDraft] using ((hbrings₁.trans hbrings₂).trans hbrings₃).adds
  exact ⟨o, us, c, rest, bs, rfl, hok ▸ hcloser, hderives, hat₃.withDraft _, hend₃,
    ⟨hr, .refl _⟩, hadds.group _⟩

/-- A repetition is read over its `$`, its delimiters, what is between them, and its mark. -/
theorem repeated {n : Node} (hσ : σ.source = source) (h : s.At source.toList ts)
    (hd : s.kind = .dollar) (ho : s.ahead 1 = .openParen)
    (hrun : g.repetition form σ s = some (n, s')) (hr : s'.report = s.report) :
    s.ReadsRepetition form source s' n ts := by
  obtain ⟨d, ts, rfl, hdk⟩ := h.exists_cons (by rw [hd]; decide)
  rw [hd] at hdk
  rw [h.ahead (by rw [hdk]; rfl) σ] at ho
  obtain ⟨o, ts, rfl⟩ : ∃ o us, ts = o :: us := by
    cases ts with
    | nil => exact nomatch ho
    | cons o us => exact ⟨o, us, rfl⟩
  have hok : o.kind = .openParen := ho
  obtain ⟨t₀, hdollar, hat₀, hbrings₀⟩ :=
    (h.withDraft (.ofKind form.repetitionKind)).consumes_itself form σ none (by rw [hdk]; rfl)
      (by rw [hdk]; rfl)
  obtain ⟨t₁, hopen, hat₁, -, hbrings₁⟩ := hat₀.consumes_delimiter form σ (by rw [hok]; rfl)
  obtain ⟨u, hbody, rfl, rfl⟩ := node_eq_some.1 hrun
  rw [bind_of_run (show consume σ _ = some ((), t₀) from hdollar)] at hbody
  obtain ⟨range, _, hrange, hbody⟩ := bind_eq_some.1 hbody
  obtain ⟨-, rfl⟩ := Prod.mk.inj (Option.some.inj hrange)
  rw [bind_of_run hopen] at hbody
  have hclosing : (Grammar.treeCloser .openParen .closeParen range).Advances source.toList :=
    Leads.treeCloser hg.leads rfl _ _
  have hending := Leads.repetitionEnd hg.leads
  have hreport₁ : u.report = t₁.report := Eq.trans hr (hbrings₀.trans hbrings₁).report.symm
  obtain ⟨_, t₂, hinside, hsame₂, hbody, hr₂⟩ := (Leads.treeContents hg.leads form).silent
    (fun _ => hclosing.bind hending) hat₁.sound hbody hreport₁
  obtain ⟨us, rest, bs, rfl, -, hderives, hat₂, hbrings₂⟩ := hg.contents hσ hat₁ hinside hsame₂
  obtain ⟨b, t₃, hcloses, hsame₃, hmark, hr₃⟩ := hclosing.silent hending hat₂.sound hbody hr₂
  obtain ⟨c, rest, rfl, hck⟩ := hat₂.treeCloser_silent (by decide) hcloses hsame₃
  obtain ⟨t₃', hcloses', hat₃, -, hbrings₃⟩ :=
    hat₂.treeCloser form σ (by rw [hck]; rfl) .openParen range
  rw [hck] at hcloses'
  obtain ⟨rfl, rfl⟩ := Prod.mk.inj (Option.some.inj (hcloses'.symm.trans hcloses))
  obtain ⟨mark, rest, rfl, hm⟩ := hat₃.repetitionMark_silent hmark hr₃
  obtain ⟨u', hmark', hat₄, hbrings₄⟩ := hat₃.repetitionMark form σ hm
  obtain ⟨-, rfl⟩ := Prod.mk.inj (Option.some.inj (hmark'.symm.trans hmark))
  have hadds : (Draft.ofKind form.repetitionKind).Adds form bs [o.range, c.range] u'.draft := by
    simpa [Session.withDraft] using
      ((((hbrings₀.trans hbrings₁).trans hbrings₂).trans hbrings₃).trans hbrings₄).adds
  exact ⟨d, o, us, c, mark, rest, bs, rfl, hdk, hok, hck, hm, hderives, hat₄.withDraft _,
    ⟨hr, .refl _⟩, hadds.repetition _⟩

/-- At the limit of nesting something is reported, so a group of which nothing is was read. -/
theorem grouped {n : Node} (hσ : σ.source = source) (h : s.At source.toList ts)
    (ho : s.kind.isOpen = true) (hrun : g.tokenTree form σ s = some (n, s'))
    (hr : s'.report = s.report) : s.ReadsGroup form source s' n ts := by
  have hat := h.flushed (σ := σ)
  unfold tokenTree at hrun
  rw [bind_of_run (flush_run σ s), guarded_eq] at hrun
  split at hrun
  · obtain ⟨o, us, c, rest, bs, hts, hoc, hderives, hat', hend, hbrings, hbrackets, hkind⟩ :=
      hg.delimitedTree (σ := { σ with depth := σ.depth + 1 }) hσ hat ho hrun hr
    exact ⟨o, us, c, rest, bs, hts, hoc, hderives, hat', hend,
      (h.brings_flushed form σ).trans hbrings, hbrackets, hkind⟩
  · obtain ⟨t, hreport, -, honward⟩ := skipNested_limited hat.sound hrun
    obtain ⟨d, hd⟩ : ∃ d, t.report = s.report.add d := by
      obtain ⟨-, rfl⟩ := Prod.mk.inj (Option.some.inj hreport)
      exact ⟨_, rfl⟩
    have hgrows := honward.report
    rw [hd, hr] at hgrows
    exact absurd hgrows (Report.not_grows_add _ _)

end SoundTrees

/-- **Nothing is reported only of what is well-formed**, to whatever depth groups are read. -/
theorem sound_upTo (form : TreeForm) (source : String) (depth : Nat) :
    (Grammar.upTo depth).SoundTrees form source := by
  induction depth with
  | zero => exact ⟨leads_upTo _ _, fun _ _ _ h => (nomatch h), fun _ _ _ _ h => (nomatch h)⟩
  | succ depth ih =>
    refine ⟨leads_upTo _ _, fun hσ h ho hrun hr => ?_, fun hσ h hd ho hrun hr => ?_⟩
    · obtain ⟨_, hrun⟩ := opening_eq_some hrun
      refine ih.grouped ?_ h ho hrun hr
      exact hσ
    · obtain ⟨_, hrun⟩ := opening_eq_some hrun
      refine ih.repeated ?_ h hd ho hrun hr
      exact hσ

end Grammar

end ConcreteSyntax
