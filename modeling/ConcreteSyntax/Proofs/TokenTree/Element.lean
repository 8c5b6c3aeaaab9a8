import ConcreteSyntax.Proofs.Grammar.TokenTree
import ConcreteSyntax.Proofs.TokenTree.Brackets
import ConcreteSyntax.Proofs.TokenTree.Position

/-! # The elements of a tree that hold no others

What reading a token, a literal with its suffix, a lifetime or a binding does where the text is
lexically valid: nothing is reported, no bracket is added, and the session stands behind it. A
binding that names no fragment is the only one of them that is reported
(`Session.At.binding_silent`).

Behind the contents of a group stands its closer, behind a repetition its mark. Both are read
without a report if they are there, and only then. -/

namespace ConcreteSyntax

open Parse
open TokenTree (headKind NamesFragment)

variable {form : TreeForm} {text : List Char} {σ : Setting}

theorem Kind.not_takesSuffix_of_word {k : Kind} (h : (k == .identifier || k.isWord) = true) :
    k.takesSuffix = false := by
  cases k <;> first | rfl | exact nomatch h

/-! ### Reports -/

/-- What was added to a report is not taken back. -/
theorem Report.not_grows_add (r : Report) (d : Diagnostic) : ¬ (r.add d).Grows r := by
  intro h
  have hlength := h.front.length_le
  simp only [add, toList, Array.toList_push, List.length_append, List.length_singleton] at hlength
  omega

theorem Parse.reportHere_run {s : Session} (message : Message) (arguments : List String) :
    ∃ d, reportHere message arguments σ s = some ((), { s with report := s.report.add d }) :=
  ⟨_, rfl⟩

/-- Something else was expected where nothing is wrong with the token itself. -/
theorem Parse.reportExpected_run {s : Session} (what : String)
    (h : s.scanner.token.faults = []) : ∃ d, reportExpected what σ s =
      some ((), { s with report := s.report.add d }) := by
  have hfaulty : isFaulty σ s = some (false, s) := by
    show some (!s.scanner.token.faults.isEmpty, s) = _
    rw [h]
    rfl
  have hfound : ∃ found, foundText σ s = some (found, s) := by
    by_cases hk : s.kind = .endOfFile
    · refine ⟨_, bind_eq_some.2 ⟨true, s, ?_, rfl⟩⟩
      rw [isAt_run, Session.isAt, hk]
      rfl
    · refine ⟨_, bind_eq_some.2 ⟨false, s, ?_, rfl⟩⟩
      rw [isAt_run, Session.isAt, beq_eq_false_iff_ne.2 hk]
  obtain ⟨found, hfound⟩ := hfound
  exact ⟨_, bind_eq_some.2 ⟨false, s, hfaulty, bind_eq_some.2 ⟨found, s, hfound, rfl⟩⟩⟩

/-! ### What is added -/

namespace Session

/-- Nothing was reported, and these brackets and these delimiters went to the open draft. -/
structure Brings (form : TreeForm) (bs : List Bracket) (ds : List Range) (s s' : Session) :
    Prop where
  report : s'.report = s.report
  adds : s.draft.Adds form bs ds s'.draft

theorem Brings.trans {bs bs' : List Bracket} {ds ds' : List Range} {s s' s'' : Session}
    (h : s.Brings form bs ds s') (h' : s'.Brings form bs' ds' s'') :
    s.Brings form (bs ++ bs') (ds ++ ds') s'' :=
  ⟨h'.report.trans h.report, h.adds.trans h'.adds⟩

namespace At

variable {s t : Session} {ts us : List Token} {u : Token}

theorem brings_flushed (h : s.At text ts) (form : TreeForm) (σ : Setting) :
    s.Brings form [] [] (s.flushed σ) := by
  refine ⟨rfl, ?_⟩
  show s.draft.Adds form [] []
    (if σ.options.keepComments then s.draft.extend s.comments else s.draft)
  split
  · refine Draft.adds_bare fun c hc => ?_
    obtain ⟨comment, hcomment, rfl⟩ := List.mem_map.1 hc
    obtain ⟨hlaid, hkind⟩ := h.sound.leading.of_mem hcomment
    exact Node.bare_ofComment hlaid hkind
  · exact .refl _

theorem brings_taken (h : s.At text ts) (form : TreeForm) (σ : Setting) (next : Admitted) :
    s.Brings form [] [] (s.taken σ next) := by
  refine ⟨?_, (h.brings_flushed form σ).adds⟩
  show s.report.addAll (s.scanner.token.faults.map _) = s.report
  rw [h.faults]
  simp [Report.addAll]

/-- The current token goes to the open draft. -/
theorem consumes (h : s.At text (u :: ts)) {label : Option Field} {as? : Option Kind}
    {next : Admitted} {ds : List Range} (hnext : (s.taken σ next).At text ts)
    (hadds : ∀ d : Draft, d.Adds form [] ds (d.pushChild label (.ofToken u as?))) :
    ∃ s', consumeWith label as? next σ s = some ((), s') ∧ s'.At text ts ∧
      s'.consumedEnd = u.range.stop ∧ s.Brings form [] ds s' := by
  have htoken := h.token
  have htaken := h.brings_taken form σ next
  have hpush := hadds (s.taken σ next).draft
  rw [← htoken] at hpush ⊢
  refine ⟨(s.taken σ next).withDraft ((s.taken σ next).draft.pushChild label
    (.ofToken s.scanner.token as?)), (consumeWith_run label as? next σ s).trans ?_,
    hnext.withDraft _, rfl, htaken.report, htaken.adds.trans hpush⟩
  rw [if_neg h.ne_end]
  rfl

/-- A token that is no delimiter. -/
theorem consumes_plain (h : s.At text (u :: ts)) (form : TreeForm) (label : Option Field)
    (as? : Option Kind) {next : Admitted} (hnext : (s.taken σ next).At text ts)
    (hk : (as?.getD u.kind).isToken = true) (hd : (as?.getD u.kind).isDelimiter = false) :
    ∃ s', consumeWith label as? next σ s = some ((), s') ∧ s'.At text ts ∧
      s'.consumedEnd = u.range.stop ∧ s.Brings form [] [] s' := by
  have hlaid := h.sound.scanner.laid
  rw [h.token] at hlaid
  exact h.consumes hnext fun d =>
    Draft.adds_push label (Node.brackets_ofToken hlaid hk) (Node.isDelimiter_ofToken hd)

/-- A token that stays what it is. -/
theorem consumes_itself (h : s.At text (u :: ts)) (form : TreeForm) (σ : Setting)
    (label : Option Field) (hsuffix : u.kind.takesSuffix = false)
    (hd : u.kind.isDelimiter = false) :
    ∃ s', consumeWith label none .usual σ s = some ((), s') ∧ s'.At text ts ∧
      s.Brings form [] [] s' := by
  obtain ⟨s', hrun, hat, -, hbrings⟩ := h.consumes_plain form label none
    (h.taken_usual (σ := σ) hsuffix) (h.kind_cons ▸ h.isToken) hd
  exact ⟨s', hrun, hat, hbrings⟩

/-- A word that becomes a leaf of another kind. -/
theorem consumes_word (h : s.At text (u :: ts)) (form : TreeForm) (σ : Setting)
    (label : Option Field) {k : Kind} (hw : (u.kind == .identifier || u.kind.isWord) = true)
    (hk : k.isToken = true) (hd : k.isDelimiter = false) :
    ∃ s', consumeWith label (some k) .usual σ s = some ((), s') ∧ s'.At text ts ∧
      s.Brings form [] [] s' := by
  obtain ⟨s', hrun, hat, -, hbrings⟩ := h.consumes_plain form label (some k)
    (h.taken_usual (σ := σ) (Kind.not_takesSuffix_of_word hw)) hk hd
  exact ⟨s', hrun, hat, hbrings⟩

/-- A delimiter. -/
theorem consumes_delimiter (h : s.At text (u :: ts)) (form : TreeForm) (σ : Setting)
    (hd : u.kind.isDelimiter = true) :
    ∃ s', consume σ s = some ((), s') ∧ s'.At text ts ∧
      s'.consumedEnd = u.range.stop ∧ s.Brings form [] [u.range] s' := by
  have hplain : u.kind.takesSuffix = false ∧ u.kind.isToken = true ∧
      Node.literalKind? u true = none := by
    unfold Kind.isDelimiter at hd
    unfold Node.literalKind?
    generalize u.kind = k at hd
    cases k <;> first | exact ⟨rfl, rfl, rfl⟩ | exact nomatch hd
  have hleaf : Node.ofToken u none = .leaf u.kind u.range { error := !u.faults.isEmpty } := by
    simp [Node.ofToken, hplain.2.2]
  refine h.consumes (h.taken_usual hplain.1) fun d => ?_
  rw [hleaf]
  exact Draft.adds_delimiter (TreeForm.isTree_of_isToken hplain.2.1) hd

end At

/-! ### Nodes -/

/-- A node goes to the open draft. -/
theorem Brings.child {bs cs : List Bracket} {ds : List Range} {s t : Session} {n : Node}
    (h : s.Brings form bs ds t) (hn : n.brackets form = cs) (hd : n.kind.isDelimiter = false) :
    s.Brings form (bs ++ cs) ds (t.withDraft (t.draft.push n)) := by
  have hadds := h.adds.trans (Draft.adds_push none hn hd)
  rw [List.append_nil] at hadds
  exact ⟨h.report, hadds⟩

/-- A node over what was read into a draft of its own, if it is no tree itself. -/
theorem Brings.node {kind : Kind} {bs : List Bracket} {ds : List Range} {s t : Session}
    (h : (s.withDraft (.ofKind kind)).Brings form bs ds t) (hk : form.isTree kind = false)
    (hd : kind.isDelimiter = false) :
    s.Brings form bs []
      ((t.withDraft s.draft).withDraft (s.draft.push (t.draft.finish t.consumedEnd))) := by
  have hsame : s.Brings form [] [] (t.withDraft s.draft) := ⟨h.report, .refl _⟩
  have hbrackets := h.adds.brackets_finish t.consumedEnd
  rw [hk] at hbrackets
  refine hsame.child hbrackets ?_
  rw [h.adds.kind_finish]
  exact hd

/-! ### Literals -/

/-- A program that goes on to behind the suffix at the front of some tokens, if there is one. -/
def PassesSuffix (form : TreeForm) (text : List Char) (σ : Setting) (s : Session) (ts : List Token)
    (m : Parse Unit) : Prop :=
  ∃ vs rest s', ts = vs ++ rest ∧ (∀ v ∈ vs, v.kind = .literalSuffix) ∧ m σ s = some ((), s') ∧
    s'.At text rest ∧ s.Brings form [] [] s'

namespace At

variable {s : Session} {ts : List Token} {u v : Token}

/-- A suffix is taken where one follows. -/
theorem suffix (h : s.At text ts) (form : TreeForm) (σ : Setting) :
    s.PassesSuffix form text σ ts (consumeIf .literalSuffix) := by
  by_cases hk : s.kind = .literalSuffix
  · obtain ⟨v, rest, rfl, hv⟩ := h.exists_cons (by rw [hk]; decide)
    rw [hk] at hv
    obtain ⟨s', hrun, hat, hbrings⟩ := h.consumes_itself form σ none (by rw [hv]; rfl)
      (by rw [hv]; rfl)
    refine ⟨[v], rest, s', rfl, by simpa using hv, ?_, hat, hbrings⟩
    refine bind_eq_some.2 ⟨true, s, ?_, hrun⟩
    rw [isAt_run, Session.isAt, hk]
    rfl
  · refine ⟨[], ts, s, rfl, List.forall_mem_nil _, ?_, h, rfl, .refl _⟩
    refine bind_eq_some.2 ⟨false, s, ?_, rfl⟩
    rw [isAt_run, Session.isAt, beq_eq_false_iff_ne.2 hk]

/-- The digits of a number. -/
theorem digits (h : s.At text (u :: ts)) (form : TreeForm) (σ : Setting)
    (hk : u.kind.takesSuffix = true) :
    ∃ s', consumeNumber .afterLiteral σ s = some ((), s') ∧ s'.At text ts ∧
      s.Brings form [] [] s' := by
  have hlaid := h.sound.scanner.laid
  have htaken := h.brings_taken form σ .afterLiteral
  have hplain : u.kind.isToken = true ∧ u.kind.isDelimiter = false := by
    rcases Kind.eq_of_takesSuffix hk with hk | hk | hk | hk | hk <;> rw [hk] <;> exact ⟨rfl, rfl⟩
  refine ⟨_, consumeNumber_run .afterLiteral σ h.ne_end, (h.taken_literal hk).withDraft _,
    htaken.report, htaken.adds.trans ?_⟩
  rw [h.token] at hlaid ⊢
  show Draft.Adds form _ [] [] (withNumber (s.taken σ .afterLiteral).draft (.ofToken u none))
  unfold withNumber
  split
  · exact Draft.adds_push none (Node.brackets_ofToken hlaid hplain.1)
      (Node.isDelimiter_ofToken hplain.2)
  · exact Draft.adds_unpacked _ _ hlaid none

/-- A literal between quotes. -/
theorem quotedLiteral (h : s.At text (u :: ts)) (hk : u.kind.isCompositeLiteral = true) :
    s.PassesSuffix form text σ ts (Parse.child Parse.quotedLiteral) := by
  have hlaid := h.sound.scanner.laid
  have hsuffix : u.kind.takesSuffix = true ∧ u.kind.isToken = true ∧
      u.kind.isDelimiter = false := by
    unfold Kind.isCompositeLiteral at hk
    split at hk
    case h_4 => exact nomatch hk
    all_goals next hu => rw [hu]; exact ⟨rfl, rfl, rfl⟩
  have hat := h.taken_literal (σ := σ) hsuffix.1
  have htaken := h.brings_taken form σ .afterLiteral
  have hbrackets : (Node.ofToken s.scanner.token none).brackets form = [] :=
    Node.brackets_ofToken hlaid (by rw [h.token]; exact hsuffix.2.1)
  have hdelimiter : (Node.ofToken s.scanner.token none).kind.isDelimiter = false :=
    Node.isDelimiter_ofToken (by rw [h.token]; exact hsuffix.2.2)
  by_cases hnext : (s.taken σ .afterLiteral).kind = .literalSuffix
  · obtain ⟨v, rest, rfl, hv⟩ := hat.exists_cons (by rw [hnext]; decide)
    rw [hnext] at hv
    have hunpacked : (unpacked σ s).At text (v :: rest) := hat.withDraft _
    have hsecond := hunpacked.brings_taken form σ .usual
    have hrest := hunpacked.taken_usual (σ := σ) (by rw [hv]; rfl)
    have hlaid' := hunpacked.sound.scanner.laid
    rw [hunpacked.token] at hlaid'
    have hdraft : (Draft.ofKind (Node.ofToken s.scanner.token none).kind).Adds form [] []
        (((unpacked σ s).taken σ .usual).draft.push
          (.ofToken (unpacked σ s).scanner.token none)) := by
      rw [hunpacked.token]
      exact ((Draft.adds_unpacked _ _ hlaid none).trans hsecond.adds).trans
        (Draft.adds_push none (Node.brackets_ofToken hlaid' (by rw [Option.getD_none, hv]; rfl))
          (Node.isDelimiter_ofToken (by rw [Option.getD_none, hv]; rfl)))
    have hpieced : (Node.ofToken s.scanner.token none).kind.isPieced = true := by
      rcases Node.ofToken_cases s.scanner.token none with ⟨kind, hkind, he⟩ | ⟨-, hno⟩
      · rw [he]
        exact hkind
      · rw [h.token, hk] at hno
        exact nomatch hno
    have hnode := hdraft.brackets_finish ((unpacked σ s).taken σ .usual).consumedEnd
    rw [TreeForm.isTree_of_isPieced hpieced] at hnode
    have hkind := hdraft.kind_finish ((unpacked σ s).taken σ .usual).consumedEnd
    have hsame : s.Brings form [] [] { (unpacked σ s).taken σ .usual with
        draft := (s.taken σ .afterLiteral).draft } :=
      ⟨hsecond.report.trans htaken.report, htaken.adds⟩
    refine ⟨[v], rest, _, rfl, by simpa using hv,
      bind_eq_some.2 ⟨_, _, quotedLiteral_suffixed h.ne_end hnext, rfl⟩, hrest.withDraft _, ?_⟩
    exact hsame.child hnode (by rw [hkind]; exact Kind.isDelimiter_of_isPieced hpieced)
  · refine ⟨[], ts, _, rfl, List.forall_mem_nil _,
      bind_eq_some.2 ⟨_, _, quotedLiteral_bare h.ne_end hnext, rfl⟩, hat.withDraft _, ?_⟩
    exact htaken.child hbrackets hdelimiter

/-- A number. -/
theorem number (h : s.At text (u :: ts)) (kind : Kind) (hk : u.kind.takesSuffix = true)
    (hkind : kind.isPieced = true) :
    s.PassesSuffix form text σ ts (Parse.child (Parse.number kind)) := by
  obtain ⟨t, hdigits, hat, hbrings⟩ := (h.withDraft (.ofKind kind)).digits form σ hk
  obtain ⟨vs, rest, t', rfl, hvs, hsuffix, hat', hbrings'⟩ := hat.suffix form σ
  have hbody : (do consumeNumber .afterLiteral; consumeIf .literalSuffix : Parse Unit) σ
      (s.withDraft (.ofKind kind)) = some ((), t') := bind_eq_some.2 ⟨(), t, hdigits, hsuffix⟩
  exact ⟨vs, rest, _, rfl, hvs, bind_eq_some.2 ⟨_, _, node_run hbody, rfl⟩,
    (hat'.withDraft _).withDraft _, (hbrings.trans hbrings').node
      (TreeForm.isTree_of_isPieced hkind) (Kind.isDelimiter_of_isPieced hkind)⟩

/-- A word that is a literal. -/
theorem booleanLiteral (h : s.At text (u :: ts)) (hk : u.kind = .trueKw ∨ u.kind = .falseKw) :
    s.PassesSuffix form text σ ts (Parse.child (Parse.node .booleanLiteral consume)) := by
  have hplain : u.kind.takesSuffix = false ∧ u.kind.isDelimiter = false := by
    rcases hk with hk | hk <;> rw [hk] <;> exact ⟨rfl, rfl⟩
  obtain ⟨t, hbody, hat, hbrings⟩ := (h.withDraft (.ofKind .booleanLiteral)).consumes_itself form σ
    none hplain.1 hplain.2
  have hno : form.isTree .booleanLiteral = false := by cases form <;> rfl
  exact ⟨[], ts, _, rfl, List.forall_mem_nil _, bind_eq_some.2 ⟨_, _, node_run hbody, rfl⟩,
    (hat.withDraft _).withDraft _, hbrings.node hno rfl⟩

/-- Any literal, and a suffix that touches it. -/
theorem literal (h : s.At text (u :: ts)) (form : TreeForm) (σ : Setting)
    (hk : u.kind.startsLiteral = true) :
    s.PassesSuffix form text σ ts (Parse.child Parse.literal) := by
  have hat := h.flushed (σ := σ)
  have hkind : Parse.kind σ (s.flushed σ) = some (u.kind, s.flushed σ) :=
    congrArg (fun k => some (k, s.flushed σ)) hat.kind
  -- the comments before the literal may have been moved already
  have hflushed {m : Parse Node} (hm : Parse.literal σ s = m σ (s.flushed σ))
      (hread : (s.flushed σ).PassesSuffix form text σ ts (Parse.child m)) :
      s.PassesSuffix form text σ ts (Parse.child Parse.literal) := by
    obtain ⟨vs, rest, s', hts, hvs, hrun, hat', hbrings⟩ := hread
    obtain ⟨n, t, hrun, hpush⟩ := bind_eq_some.1 hrun
    exact ⟨vs, rest, s', hts, hvs, bind_eq_some.2 ⟨n, t, hm.trans hrun, hpush⟩, hat',
      (h.brings_flushed form σ).trans hbrings⟩
  unfold Kind.startsLiteral at hk
  split at hk
  case h_8 => exact nomatch hk
  case h_1 hu =>
    refine hflushed ?_ (hat.number .integerLiteral (by rw [hu]; rfl) rfl)
    exact (bind_of_run (flush_run σ s)).trans ((bind_of_run hkind).trans (by rw [hu]))
  case h_2 hu =>
    refine hflushed ?_ (hat.number .floatLiteral (by rw [hu]; rfl) rfl)
    exact (bind_of_run (flush_run σ s)).trans ((bind_of_run hkind).trans (by rw [hu]))
  case h_6 hu =>
    refine hflushed ?_ (hat.booleanLiteral (.inl hu))
    exact (bind_of_run (flush_run σ s)).trans ((bind_of_run hkind).trans (by rw [hu]))
  case h_7 hu =>
    refine hflushed ?_ (hat.booleanLiteral (.inr hu))
    exact (bind_of_run (flush_run σ s)).trans ((bind_of_run hkind).trans (by rw [hu]))
  all_goals
    next hu =>
    refine hflushed ?_ (hat.quotedLiteral (by rw [hu]; rfl))
    exact (bind_of_run (flush_run σ s)).trans ((bind_of_run hkind).trans (by rw [hu]))

/-! ### Lifetimes and bindings -/

/-- A quote and a name. -/
theorem lifetime {q w : Token} (h : s.At text (q :: w :: ts)) (form : TreeForm) (σ : Setting)
    (hq : q.kind = .quote) (hw : (w.kind == .identifier || w.kind.isWord) = true) :
    ∃ s', Parse.child Parse.lifetime σ s = some ((), s') ∧ s'.At text ts ∧
      s.Brings form [] [] s' := by
  have hflushed := h.brings_flushed form σ
  have hdraft := (h.flushed (σ := σ)).withDraft (.ofKind .lifetime)
  obtain ⟨t, hquote, hat, hbrings⟩ := hdraft.consumes_itself form σ none (by rw [hq]; rfl)
    (by rw [hq]; rfl)
  obtain ⟨t', hname, hat', hbrings'⟩ :=
    hat.consumes_word form σ none (k := .identifier) hw rfl rfl
  have hbody : (do
      expect .quote
      let current ← Parse.kind
      if current == .identifier || current.isWord then consumeAs .identifier
      else if current == .underscore then consume
      else
        reportExpected "identifier"
        pushMissing .identifier : Parse Unit) σ ((s.flushed σ).withDraft (.ofKind .lifetime)) =
      some ((), t') := by
    refine bind_eq_some.2 ⟨(), t, bind_eq_some.2 ⟨true, _, ?_, hquote⟩,
      bind_eq_some.2 ⟨w.kind, t, congrArg (fun k => some (k, t)) hat.kind, ?_⟩⟩
    · rw [isAt_run, Session.isAt, hdraft.kind]
      show some (q.kind == .quote, _) = _
      rw [hq]
      rfl
    · rw [if_pos hw]
      exact hname
  have hno : form.isTree .lifetime = false := by cases form <;> rfl
  have hnode := (hbrings.trans hbrings').node hno rfl
  exact ⟨_, bind_eq_some.2 ⟨_, _, bind_eq_some.2 ⟨(), _, flush_run σ s, node_run hbody⟩, rfl⟩,
    (hat'.withDraft _).withDraft _, hflushed.trans hnode⟩

/-- The name of a binding and the colon. -/
theorem bindingName {n c : Token} (h : s.At text (n :: c :: ts)) (form : TreeForm) (σ : Setting)
    (hn : n.kind = .metavariable) (hc : c.kind = .colon) :
    ∃ t t', consumeField .name σ s = some ((), t) ∧ consume σ t = some ((), t') ∧
      t'.At text ts ∧ s.Brings form [] [] t' := by
  obtain ⟨t, hname, hat, hbrings⟩ := h.consumes_itself form σ (some .name) (by rw [hn]; rfl)
    (by rw [hn]; rfl)
  obtain ⟨t', hcolon, hat', hbrings'⟩ := hat.consumes_itself form σ none (by rw [hc]; rfl)
    (by rw [hc]; rfl)
  exact ⟨t, t', hname, hcolon, hat', hbrings.trans hbrings'⟩

/-- A binding. -/
theorem binding {n c w : Token} (h : s.At text (n :: c :: w :: ts)) (form : TreeForm)
    (σ : Setting) (hn : n.kind = .metavariable) (hc : c.kind = .colon)
    (hw : (w.kind == .identifier || w.kind.isWord) = true)
    (hspecifier : Fragment.isSpecifier (w.text σ.source) = true) :
    ∃ s', Parse.child Grammar.binding σ s = some ((), s') ∧ s'.At text ts ∧
      s.Brings form [] [] s' := by
  obtain ⟨t, t', hname, hcolon, hat, hbrings⟩ :=
    (h.withDraft (.ofKind .tokenBindingPattern)).bindingName form σ hn hc
  obtain ⟨u, hword, hat', hbrings'⟩ :=
    hat.consumes_word form σ (some .type) (k := .fragmentSpecifier) hw rfl rfl
  have hkind : Parse.kind σ t' = some (w.kind, t') := congrArg (fun k => some (k, t')) hat.kind
  have htext : tokenText σ t' = some (w.text σ.source, t') :=
    congrArg (fun w : Token => some (w.text σ.source, t')) hat.token
  have hno : form.isTree .tokenBindingPattern = false := by cases form <;> rfl
  have hnode := (hbrings.trans hbrings').node hno rfl
  refine ⟨_, bind_eq_some.2 ⟨_, _, node_run (bind_eq_some.2 ⟨(), t, hname, bind_eq_some.2
    ⟨(), t', hcolon, bind_eq_some.2 ⟨_, t', hkind, ?_⟩⟩⟩), rfl⟩,
    (hat'.withDraft _).withDraft _, hnode⟩
  rw [if_pos hw]
  refine bind_eq_some.2 ⟨_, t', htext, ?_⟩
  rw [if_pos hspecifier]
  exact hword

/-- Nothing is reported of a binding only if it names a fragment. -/
theorem binding_silent {n c : Token} {s' : Session} (h : s.At text (n :: c :: ts))
    (hn : n.kind = .metavariable) (hc : c.kind = .colon)
    (hrun : Parse.child Grammar.binding σ s = some ((), s')) (hr : s'.report = s.report) :
    NamesFragment σ.source ts := by
  obtain ⟨t, t', hname, hcolon, hat, hbrings⟩ :=
    (h.withDraft (.ofKind .tokenBindingPattern)).bindingName .pattern σ hn hc
  obtain ⟨n, u, hnode, hpush⟩ := bind_eq_some.1 hrun
  obtain ⟨-, rfl⟩ := Prod.mk.inj (Option.some.inj hpush)
  obtain ⟨v, hbody, -, rfl⟩ := node_eq_some.1 hnode
  have hkind : Parse.kind σ t' = some (t'.kind, t') := rfl
  rw [bind_of_run hname, bind_of_run hcolon, bind_of_run hkind] at hbody
  have hno (d : Diagnostic) (hd : (t'.report.add d).Grows v.report) : False := by
    have hsame : v.report = t'.report :=
      (show v.report = s.report from hr).trans hbrings.report.symm
    rw [hsame] at hd
    exact Report.not_grows_add _ d hd
  split at hbody
  · next hw =>
    obtain ⟨w, rest, rfl, hwk⟩ := hat.exists_cons (Kind.ne_endOfFile_of_word hw)
    rw [← hwk] at hw
    have htext : tokenText σ t' = some (w.text σ.source, t') :=
      congrArg (fun w : Token => some (w.text σ.source, t')) hat.token
    rw [bind_of_run htext] at hbody
    split at hbody
    · next hspecifier => exact .word hw hspecifier
    · exfalso
      obtain ⟨d, hreport⟩ := reportHere_run (σ := σ) (s := t') .unknownFragment [w.text σ.source]
      have hleaf := leaf_run (some .fragmentSpecifier) σ
        (s := { t' with report := t'.report.add d }) hat.ne_end
      rw [bind_of_run hreport, bind_of_run hleaf] at hbody
      obtain ⟨-, rfl⟩ := Prod.mk.inj (Option.some.inj hbody)
      exact hno d (Report.grows_addAll _ _)
  · exfalso
    obtain ⟨d, hreport⟩ := reportExpected_run (σ := σ) "fragment specifier" hat.faults
    rw [bind_of_run hreport] at hbody
    obtain ⟨-, rfl⟩ := Prod.mk.inj (Option.some.inj hbody)
    exact hno d (.refl _)

end At

end Session

section Ends

open TokenTree (Marks)

variable {s s' : Session} {ts us : List Token}

namespace Session.At

/-! ### Closers -/

/-- A closer that is there. -/
theorem treeCloser {c : Token} (h : s.At text (c :: ts)) (form : TreeForm) (σ : Setting)
    (hc : c.kind.isClose = true) (opener : Kind) (range : Range) :
    ∃ s', Grammar.treeCloser opener c.kind range σ s = some (true, s') ∧ s'.At text ts ∧
      s'.consumedEnd = c.range.stop ∧ s.Brings form [] [c.range] s' := by
  obtain ⟨s', hrun, hat, hend, hbrings⟩ := h.consumes_delimiter form σ
    (by rw [Kind.isDelimiter, hc, Bool.or_true])
  have hkind : Parse.kind σ s = some (c.kind, s) := congrArg (fun k => some (k, s)) h.kind
  refine ⟨s', bind_eq_some.2 ⟨c.kind, s, hkind, ?_⟩, hat, hend, hbrings⟩
  rw [beq_self_eq_true, if_pos rfl]
  exact bind_eq_some.2 ⟨(), s', hrun, rfl⟩

/-- Nothing is reported only if it is there. -/
theorem treeCloser_silent {opener closer : Kind} {range : Range} {b : Bool} (h : s.At text ts)
    (hc : closer ≠ .endOfFile) (hrun : Grammar.treeCloser opener closer range σ s = some (b, s'))
    (hr : s'.report = s.report) : ∃ c us, ts = c :: us ∧ c.kind = closer := by
  have hkind : Parse.kind σ s = some (s.kind, s) := rfl
  unfold Grammar.treeCloser at hrun
  rw [bind_of_run hkind] at hrun
  split at hrun
  · next hk =>
    have hk := eq_of_beq hk
    obtain ⟨c, us, rfl, hck⟩ := h.exists_cons (by rw [hk]; exact hc)
    exact ⟨c, us, rfl, hck.trans hk⟩
  · exfalso
    have hreport : ∃ d, Grammar.reportInPlace opener closer range s.kind σ s =
        some ((), { s with report := s.report.add d }) := by
      unfold Grammar.reportInPlace
      split
      · exact ⟨_, rfl⟩
      · exact reportHere_run _ _
    obtain ⟨d, hreport⟩ := hreport
    rw [bind_of_run hreport] at hrun
    obtain ⟨-, rfl⟩ := Prod.mk.inj (Option.some.inj hrun)
    exact Report.not_grows_add s.report d (Eq.subst (motive := Report.Grows _) hr (.refl _))

/-! ### Marks -/

/-- A mark that is there, behind a separator or not. -/
theorem repetitionMark {mark : List Token} (h : s.At text (mark ++ ts)) (form : TreeForm)
    (σ : Setting) (hm : Marks mark) :
    ∃ s', Grammar.repetitionMark σ s = some ((), s') ∧ s'.At text ts ∧ s.Brings form [] [] s' := by
  have hplain {k : Kind} (hop : k.isRepetitionMark = true) :
      k.takesSuffix = false ∧ k.isDelimiter = false := by
    unfold Kind.isRepetitionMark at hop
    split at hop
    case h_4 => exact nomatch hop
    all_goals exact ⟨rfl, rfl⟩
  cases hm with
  | @mark op hop =>
    obtain ⟨hsuffix, hdelimiter⟩ := hplain hop
    obtain ⟨s', hrun, hat, hbrings⟩ := At.consumes_itself h form σ none hsuffix hdelimiter
    have hkind : Parse.kind σ s = some (op.kind, s) := congrArg (fun k => some (k, s)) h.kind
    refine ⟨s', bind_eq_some.2 ⟨op.kind, s, hkind, bind_eq_some.2 ⟨(), s, ?_,
      bind_eq_some.2 ⟨op.kind, s, hkind, ?_⟩⟩⟩, hat, hbrings⟩
    · rw [hop]
      rfl
    · rw [hop]
      exact hrun
  | @separated separator op hmark hdollar hopen hclose hop =>
    obtain ⟨hsuffix, hdelimiter⟩ := hplain hop
    have hseparator : s.kind = separator.kind := h.kind
    have hat := At.taken_separator (σ := σ) h (.inl hop)
    obtain ⟨t, hrun, hat, -, hbrings⟩ := At.consumes_plain h form none none hat
      (hseparator ▸ h.isToken) (by rw [Option.getD_none, Kind.isDelimiter, hopen, hclose]; rfl)
    obtain ⟨s', hrun', hat', hbrings'⟩ := hat.consumes_itself form σ none hsuffix hdelimiter
    have hkind : Parse.kind σ s = some (separator.kind, s) :=
      congrArg (fun k => some (k, s)) hseparator
    have hkind' : Parse.kind σ t = some (op.kind, t) := congrArg (fun k => some (k, t)) hat.kind
    have hend : separator.kind ≠ .endOfFile := hseparator ▸ At.ne_end h
    have hno : separator.kind.endsRepetition = false := by
      simp [Kind.endsRepetition, hend, hdollar, hopen, hclose]
    refine ⟨s', bind_eq_some.2 ⟨separator.kind, s, hkind, bind_eq_some.2 ⟨(), t, ?_,
      bind_eq_some.2 ⟨op.kind, t, hkind', ?_⟩⟩⟩, hat', hbrings.trans hbrings'⟩
    · rw [hmark, hno]
      exact hrun
    · rw [hop]
      exact hrun'

/-- A separator is taken unless a mark or the end of what may be repeated stands in its place. If a
mark follows, it was one. -/
theorem separator_silent {t : Session} (h : s.At text ts)
    (hrun : provided (!(s.kind.isRepetitionMark || s.kind.endsRepetition)) consume σ s =
      some ((), t)) : t.report = s.report ∧
        (t.kind.isRepetitionMark = true → ∃ mark us, ts = mark ++ us ∧ Marks mark) := by
  by_cases hmark : s.kind.isRepetitionMark = true
  · rw [hmark] at hrun
    obtain ⟨-, rfl⟩ := pure_eq_some.1 hrun
    refine ⟨rfl, fun _ => ?_⟩
    obtain ⟨op, us, rfl, hop⟩ := h.exists_cons fun hk => by rw [hk] at hmark; exact nomatch hmark
    exact ⟨[op], us, rfl, .mark (hop ▸ hmark)⟩
  rw [Bool.eq_false_iff.2 hmark] at hrun
  by_cases hends : s.kind.endsRepetition = true
  · rw [hends] at hrun
    obtain ⟨-, rfl⟩ := pure_eq_some.1 hrun
    exact ⟨rfl, fun hop => absurd hop hmark⟩
  rw [Bool.eq_false_iff.2 hends] at hrun
  simp only [Kind.endsRepetition, Bool.or_eq_true, beq_iff_eq, not_or, Bool.not_eq_true] at hends
  obtain ⟨⟨⟨hend, hdollar⟩, hopen⟩, hclose⟩ := hends
  obtain ⟨separator, us, rfl, hk⟩ := h.exists_cons hend
  have htake := (consumeWith_run none none .usual σ s).symm.trans hrun
  rw [if_neg hend] at htake
  obtain ⟨-, rfl⟩ := Prod.mk.inj (Option.some.inj htake)
  refine ⟨(h.brings_taken .arguments σ .usual).report, fun hop => ?_⟩
  change (s.taken σ .usual).kind.isRepetitionMark = true at hop
  have hat := h.taken_separator (σ := σ) (.inr hop)
  obtain ⟨op, us, rfl, hop'⟩ := hat.exists_cons fun hk' => by rw [hk'] at hop; exact nomatch hop
  rw [← hk] at hmark hdollar hopen hclose
  exact ⟨[separator, op], us, rfl,
    .separated (Bool.eq_false_iff.2 hmark) hdollar hopen hclose (hop' ▸ hop)⟩

/-- Nothing is reported only if a mark is there. -/
theorem repetitionMark_silent (h : s.At text ts)
    (hrun : Grammar.repetitionMark σ s = some ((), s')) (hr : s'.report = s.report) :
    ∃ mark us, ts = mark ++ us ∧ Marks mark := by
  obtain ⟨_, _, hkind, hrun⟩ := bind_eq_some.1 hrun
  obtain ⟨rfl, rfl⟩ := Prod.mk.inj (Option.some.inj hkind)
  obtain ⟨_, t, hseparator, hrun⟩ := bind_eq_some.1 hrun
  obtain ⟨hsame, hmark⟩ := h.separator_silent hseparator
  obtain ⟨_, _, hkind, hrun⟩ := bind_eq_some.1 hrun
  obtain ⟨rfl, rfl⟩ := Prod.mk.inj (Option.some.inj hkind)
  split at hrun
  · next hop => exact hmark hop
  · exfalso
    obtain ⟨d, hreport⟩ := reportHere_run (σ := σ) (s := t) .repetitionOperator []
    rw [bind_of_run hreport] at hrun
    obtain ⟨-, rfl⟩ := Prod.mk.inj (Option.some.inj hrun)
    refine Report.not_grows_add s.report d (Eq.subst (motive := Report.Grows _) hr ?_)
    rw [← hsame]
    exact .refl _

end Session.At

end Ends

end ConcreteSyntax
