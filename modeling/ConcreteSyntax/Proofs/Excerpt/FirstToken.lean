import ConcreteSyntax.Grammar.Reading
import ConcreteSyntax.Proofs.Reading.Take

/-! # The first token of a statement

Where the last token ended is asked for only where something is missing or empty. A statement takes
its first token before that, so it reads the same whatever ended before it (`Parse.Takes`): on the
way to its first token it only looks around, reports, and changes the open draft (`Parse.Passes`,
`Parse.Idles`). -/

namespace ConcreteSyntax

/-- The session with the last token ending elsewhere. -/
def Session.endedAt (s : Session) (offset : Nat) : Session := { s with consumedEnd := offset }

/-- A token at which an operand that does not begin here leaves everything as it is. -/
def Kind.endsOperand (k : Kind) : Bool :=
  k == .endOfFile || k.isClose || k == .semicolon || k == .comma || k == .fatArrow

namespace Parse

variable {α β : Type} {σ : Setting} {s t : Session} {m : Parse α} {r : α}

/-- The outcome does not depend on where the last token ended. -/
def Takes (σ : Setting) (s : Session) (m : Parse α) : Prop :=
  ∀ offset, m σ (s.endedAt offset) = m σ s

/-- The program leads to another session, wherever the last token ended. -/
structure Passes (σ : Setting) (s : Session) (m : Parse α) (r : α) (t : Session) : Prop where
  run : m σ s = some (r, t)
  anywhere : ∀ offset, ∃ offset', m σ (s.endedAt offset) = some (r, t.endedAt offset')

/-- The program stays at its token and does not ask where the last one ended. -/
def Idles (m : Parse α) : Prop :=
  ∀ σ s, ∃ r t, t.scanner = s.scanner ∧ m σ s = some (r, t) ∧
    ∀ offset, m σ (s.endedAt offset) = some (r, t.endedAt offset)

/-- The program only looks at its token and at what follows it. -/
def Looks (m : Parse α) : Prop :=
  ∀ σ (s : Session), ∃ r, ∀ t : Session, t.scanner = s.scanner → m σ t = some (r, t)

/-! ### Looking around -/

namespace Looks

theorem pure (r : α) : Looks (Pure.pure r : Parse α) := fun _ _ => ⟨r, fun _ _ => rfl⟩

theorem tokenText : Looks Parse.tokenText := fun σ s =>
  ⟨s.scanner.tokenText σ.source, fun t h => by rw [← h]; rfl⟩

theorem bind {K : α → Parse β} (hm : Looks m) (hK : ∀ r, Looks (K r)) : Looks (m >>= K) := by
  intro σ s
  obtain ⟨r, hrun⟩ := hm σ s
  obtain ⟨r', hrun'⟩ := hK r σ s
  exact ⟨r', fun t h => bind_eq_some.2 ⟨r, t, hrun t h, hrun' t h⟩⟩

theorem look {K : Session → Parse α} (hK : ∀ s, Looks (K s))
    (hscanner : ∀ s t : Session, s.scanner = t.scanner → K s = K t) : Looks (get >>= K) := by
  intro σ s
  obtain ⟨r, hrun⟩ := hK s σ s
  refine ⟨r, fun t h => ?_⟩
  show K t σ t = _
  rw [hscanner t s h]
  exact hrun t h

theorem isAtItem : Looks Parse.isAtItem := by
  refine look (fun s => ?_) fun s t h => ?_
  · split
    all_goals first | exact .pure _ | exact .bind .tokenText fun _ => .pure _
  · cases s; cases t; cases h; rfl

theorem isAtExpression : Looks Parse.isAtExpression :=
  fun σ s => ⟨s.kind.startsExpression σ.restriction, fun t h => by
    rw [show s.kind = t.kind from congrArg Scanner.kind h.symm]; rfl⟩

end Looks

/-! ### On the way to a token -/

namespace Passes

theorem bind {K : α → Parse β} {r' : β} {u : Session} (hm : Passes σ s m r t)
    (hK : Passes σ t (K r) r' u) : Passes σ s (m >>= K) r' u := by
  refine ⟨bind_eq_some.2 ⟨r, t, hm.run, hK.run⟩, fun offset => ?_⟩
  obtain ⟨_, hrun⟩ := hm.anywhere offset
  obtain ⟨offset', hrun'⟩ := hK.anywhere _
  exact ⟨offset', bind_eq_some.2 ⟨r, _, hrun, hrun'⟩⟩

theorem pure : Passes σ s (Pure.pure r : Parse α) r s := ⟨rfl, fun offset => ⟨offset, rfl⟩⟩

theorem kind {K : Kind → Parse α} (h : Passes σ s (K s.kind) r t) :
    Passes σ s (Parse.kind >>= K) r t := ⟨h.run, h.anywhere⟩

/-- What depends on the scanner only passes. -/
theorem of_scanner (h : ∀ u : Session, u.scanner = s.scanner → m σ u = some (r, u)) :
    Passes σ s m r s :=
  ⟨h s rfl, fun offset => ⟨offset, h (s.endedAt offset) rfl⟩⟩

end Passes

theorem passes_flush : Passes σ s flush () (s.flushed σ) :=
  ⟨flush_run σ s, fun offset => ⟨_, flush_run σ (s.endedAt offset)⟩⟩

theorem passes_setKind {kind : Kind} :
    Passes σ s (setKind kind) () (s.withDraft (s.draft.setKind kind)) :=
  ⟨rfl, fun offset => ⟨offset, rfl⟩⟩

theorem passes_split {first : Kind} :
    Passes σ s (split first) () { s with scanner := s.scanner.split first } :=
  ⟨rfl, fun offset => ⟨offset, rfl⟩⟩

namespace Idles

theorem bind {K : α → Parse β} (hm : Idles m) (hK : ∀ r, Idles (K r)) : Idles (m >>= K) := by
  intro σ s
  obtain ⟨r, t, ht, hrun, hany⟩ := hm σ s
  obtain ⟨r', u, hu, hrun', hany'⟩ := hK r σ t
  exact ⟨r', u, hu.trans ht, bind_eq_some.2 ⟨r, t, hrun, hrun'⟩,
    fun offset => bind_eq_some.2 ⟨r, _, hany offset, hany' offset⟩⟩

theorem choose {c : Bool} {A B : Parse α} (yes : Idles A) (no : Idles B) :
    Idles (if c = true then A else B) := by
  cases c
  exacts [no, yes]

theorem pure (r : α) : Idles (Pure.pure r : Parse α) := fun _ s => ⟨r, s, rfl, rfl, fun _ => rfl⟩

theorem isAt {kind : Kind} : Idles (Parse.isAt kind) := fun _ _ => ⟨_, _, rfl, rfl, fun _ => rfl⟩

theorem offset : Idles Parse.offset := fun _ _ => ⟨_, _, rfl, rfl, fun _ => rfl⟩

theorem isFaulty : Idles Parse.isFaulty := fun _ s =>
  ⟨!s.scanner.token.faults.isEmpty, s, rfl, rfl, fun _ => rfl⟩

theorem tokenText : Idles Parse.tokenText := fun _ _ => ⟨_, _, rfl, rfl, fun _ => rfl⟩

theorem tokenRange : Idles Parse.tokenRange := fun _ _ => ⟨_, _, rfl, rfl, fun _ => rfl⟩

theorem ahead {n : Nat} : Idles (Parse.ahead n) := fun _ _ => ⟨_, _, rfl, rfl, fun _ => rfl⟩

theorem options : Idles Parse.options := fun _ _ => ⟨_, _, rfl, rfl, fun _ => rfl⟩

theorem modify {f : Session → Session} (hscanner : ∀ s, (f s).scanner = s.scanner)
    (hf : ∀ s offset, f (s.endedAt offset) = (f s).endedAt offset) :
    Idles (MonadState.modifyGet fun s => ((), f s) : Parse Unit) :=
  fun _ s => ⟨(), f s, hscanner s, rfl, fun offset => congrArg (fun t => some ((), t)) (hf s offset)⟩

theorem note {remark : Remark} : Idles (Parse.note remark) := modify (fun _ => rfl) fun _ _ => rfl

theorem reportHere {message : Message} {arguments : List String} :
    Idles (Parse.reportHere message arguments) :=
  .bind .tokenRange fun _ => .bind (fun σ s => ⟨σ, s, rfl, rfl, fun _ => rfl⟩) fun _ =>
    modify (fun _ => rfl) fun _ _ => rfl

theorem reportUnexpected : Idles Parse.reportUnexpected :=
  .bind .isFaulty fun _ => .choose (.pure _) (.bind .tokenText fun _ => .reportHere)

theorem reportExpected {what : String} : Idles (Parse.reportExpected what) :=
  .bind .isFaulty fun _ => .choose (.pure _)
    (.bind (.bind .isAt fun _ => .choose (.pure _) .tokenText) fun _ => .reportHere)

theorem countBrace {kind : Kind} : Idles (Parse.countBrace kind) :=
  .choose (modify (fun _ => rfl) fun _ _ => rfl) (.pure _)

end Idles

/-! ### Taking a token -/

namespace Takes

theorem bind {K : α → Parse β} (h : Takes σ s m) : Takes σ s (m >>= K) :=
  fun offset => congrArg (Option.bind · _) (h offset)

theorem after {K : α → Parse β} (hm : Passes σ s m r t) (hK : Takes σ t (K r)) :
    Takes σ s (m >>= K) := by
  intro offset
  obtain ⟨offset', hrun⟩ := hm.anywhere offset
  show Option.bind (m σ (s.endedAt offset)) _ = Option.bind (m σ s) _
  rw [hrun, hm.run]
  exact hK offset'

theorem idly {K : α → Parse β} (hm : Idles m)
    (hK : ∀ r t, t.scanner = s.scanner → Takes σ t (K r)) : Takes σ s (m >>= K) := by
  obtain ⟨r, t, ht, hrun, hany⟩ := hm σ s
  exact after ⟨hrun, fun offset => ⟨offset, hany offset⟩⟩ (hK r t ht)

theorem flush {K : Unit → Parse β} (h : Takes σ (s.flushed σ) (K ())) :
    Takes σ s (Parse.flush >>= K) :=
  after passes_flush h

theorem look {K : Session → Parse α} (h : Takes σ s (K s))
    (hK : ∀ offset, K (s.endedAt offset) = K s) : Takes σ s (get >>= K) := by
  intro offset
  show K (s.endedAt offset) σ (s.endedAt offset) = K s σ s
  rw [hK]
  exact h offset

theorem kind {K : Kind → Parse α} (h : ∀ c, s.kind = c → Takes σ s (K c)) :
    Takes σ s (Parse.kind >>= K) := h s.kind rfl

theorem take {as? : Option Kind} {next : Admitted} (h : s.kind ≠ .endOfFile) :
    Takes σ s (Parse.take as? next) := by
  intro offset
  rw [take_run, take_run, if_neg h, if_neg (show (s.endedAt offset).kind ≠ _ from h)]
  rfl

theorem consumeWith {label : Option Field} {as? : Option Kind} {next : Admitted}
    (h : s.kind ≠ .endOfFile) : Takes σ s (Parse.consumeWith label as? next) := bind (take h)

theorem consume (h : s.kind ≠ .endOfFile) : Takes σ s Parse.consume := consumeWith h

theorem consumeAs {kind : Kind} (h : s.kind ≠ .endOfFile) : Takes σ s (Parse.consumeAs kind) :=
  consumeWith h

theorem leaf {as? : Option Kind} (h : s.kind ≠ .endOfFile) : Takes σ s (Parse.leaf as?) :=
  bind (take h)

theorem collect {d : Draft} {body : Parse Unit} (h : Takes σ (s.withDraft d) body) :
    Takes σ s (Parse.collect d body) := by
  have hinner : Takes σ (s.withDraft d) (body >>= fun _ => do
      let filled := (← get).draft
      modify fun u => { u with draft := s.draft }
      return filled) := bind h
  exact hinner

theorem resume {d : Draft} {body : Parse Unit} (h : Takes σ (s.withDraft d) body) :
    Takes σ s (Parse.resume d body) :=
  bind (collect h)

theorem node {kind : Kind} {body : Parse Unit} (h : Takes σ (s.withDraft (.ofKind kind)) body) :
    Takes σ s (Parse.node kind body) :=
  resume h

theorem field {label : Field} {body : Parse Node} (h : Takes σ s body) :
    Takes σ s (Parse.field label body) :=
  bind h

theorem child {body : Parse Node} (h : Takes σ s body) : Takes σ s (Parse.child body) := bind h

/-- A part that is read at one kind of token only. -/
theorem ifAt {kind : Kind} {body : Parse Unit} {K : Unit → Parse α}
    (yes : s.kind = kind → Takes σ s body) (no : s.kind ≠ kind → Takes σ s (K ())) :
    Takes σ s (Parse.ifAt kind body >>= K) := by
  by_cases hk : s.kind = kind
  · refine bind (after (r := true) (t := s) ⟨?_, fun offset => ⟨offset, ?_⟩⟩ (yes hk))
    · rw [isAt_run, Session.isAt, beq_iff_eq.2 hk]
    · rw [isAt_run, Session.isAt, beq_iff_eq.2 (show (s.endedAt offset).kind = _ from hk)]
  · have hrun (u : Session) (hu : u.kind ≠ kind) : Parse.ifAt kind body σ u = some ((), u) := by
      refine bind_eq_some.2 ⟨false, u, ?_, rfl⟩
      rw [isAt_run, Session.isAt, beq_eq_false_iff_ne.2 hu]
    exact after ⟨hrun s hk, fun offset => ⟨offset, hrun (s.endedAt offset) hk⟩⟩ (no hk)

theorem isAt {kind : Kind} {A B : Parse α} (yes : s.kind = kind → Takes σ s A)
    (no : s.kind ≠ kind → Takes σ s B) :
    Takes σ s (Parse.isAt kind >>= fun b => if b = true then A else B) := by
  by_cases hk : s.kind = kind
  · refine after (r := true) (t := s) ⟨?_, fun offset => ⟨offset, ?_⟩⟩ (yes hk)
    · rw [isAt_run, Session.isAt, beq_iff_eq.2 hk]
    · rw [isAt_run, Session.isAt, beq_iff_eq.2 (show (s.endedAt offset).kind = _ from hk)]
  · refine after (r := false) (t := s) ⟨?_, fun offset => ⟨offset, ?_⟩⟩ (no hk)
    · rw [isAt_run, Session.isAt, beq_eq_false_iff_ne.2 hk]
    · rw [isAt_run, Session.isAt, beq_eq_false_iff_ne.2 (show (s.endedAt offset).kind ≠ _ from hk)]

theorem choose {c : Bool} {A B : Parse α} (yes : c = true → Takes σ s A)
    (no : c = false → Takes σ s B) : Takes σ s (if c = true then A else B) := by
  cases c
  exacts [no rfl, yes rfl]

theorem skipped {body : Parse Unit} {K : Unit → Parse β} (h : Takes σ s (K ())) :
    Takes σ s (provided false body >>= K) := h

theorem consumeIf {kind : Kind} {K : Unit → Parse α} (hk : kind ≠ .endOfFile)
    (no : s.kind ≠ kind → Takes σ s (K ())) : Takes σ s (Parse.consumeIf kind >>= K) :=
  ifAt (fun h => consume (h ▸ hk)) no

theorem expect {kind : Kind} (hk : s.kind = kind) (hend : kind ≠ .endOfFile) :
    Takes σ s (Parse.expect kind) :=
  isAt (fun h => consume (h ▸ hend)) fun h => absurd hk h

theorem iterate {turn : β → Parse (Step β α)} {x : β} (h : Takes σ s (turn x)) (n : Nat) :
    Takes σ s (Parse.iterate turn n x) := by
  cases n with
  | zero => exact fun _ => rfl
  | succ n =>
    intro offset
    exact congrArg (Option.bind · _) (h offset)

theorem loop {turn : β → Parse (Step β α)} {x : β} (h : Takes σ s (turn x)) :
    Takes σ s (Parse.loop turn x) := fun offset => iterate h σ.turns offset

theorem repeatWhile {turn : Parse Bool} (h : Takes σ s turn) : Takes σ s (Parse.repeatWhile turn) :=
  loop (bind h)

theorem skipGroup (h : s.kind ≠ .endOfFile) (hclose : s.kind.isClose = false) :
    Takes σ s Parse.skipGroup := by
  have hend : ((s.withDraft (.ofKind .error)).kind.isClose ||
      (s.withDraft (.ofKind .error)).kind == .endOfFile) = false := by
    show (s.kind.isClose || s.kind == .endOfFile) = false
    rw [hclose, beq_eq_false_iff_ne.2 h]
    rfl
  have hfirst : (s.withDraft (.ofKind .error)).kind ≠ .endOfFile := h
  refine node (kind fun c hc => choose (fun hyes => ?_) fun _ => loop (kind fun c hc => choose ?_ ?_))
  · rw [← hc, hend] at hyes
    exact nomatch hyes
  · exact fun hyes => absurd (hc.trans (beq_iff_eq.1 hyes)) hfirst
  · exact fun _ => bind (consume hfirst)

theorem guarded {body : Parse Node} (h : s.kind ≠ .endOfFile) (hclose : s.kind.isClose = false)
    (inside : ∀ {σ}, Takes σ s body) : Takes σ s (Parse.guarded body) := by
  intro offset
  show (if σ.depth < σ.options.maxDepth then _ else _ : Parse Node) σ (s.endedAt offset) =
    (if σ.depth < σ.options.maxDepth then _ else _ : Parse Node) σ s
  split
  · exact inside offset
  · refine idly (m := reportLimit) ?_ (fun _ t ht => ?_) offset
    · exact .bind .options fun _ => .bind .reportHere fun _ => .bind .offset fun _ => .note
    · have hkind : t.kind = s.kind := congrArg Scanner.kind ht
      exact skipGroup (hkind ▸ h) (hkind ▸ hclose)

theorem opening {nonterminal : Nonterminal} {body : Parse Node} (inside : ∀ {σ}, Takes σ s body) :
    Takes σ s (Parse.opening nonterminal body) := by
  intro offset
  show (if σ.watches = true then _ else _ : Parse Node) σ (s.endedAt offset) =
    (if σ.watches = true then _ else _ : Parse Node) σ s
  split
  · show (if σ.opened.contains (nonterminal, s.offset) = true then _ else _ : Parse Node) σ
        (s.endedAt offset) =
      (if σ.opened.contains (nonterminal, s.offset) = true then _ else _ : Parse Node) σ s
    split
    · rfl
    · exact inside offset
  · exact inside offset

/-! ### Names, literals and paths -/

theorem segment {kind : Kind} (h : s.kind.startsSegment = true) : Takes σ s (Parse.segment kind) := by
  refine Takes.kind fun c hc => ?_
  have hend : s.kind ≠ .endOfFile := fun he => by simp [he, Kind.startsSegment] at h
  rw [hc] at h
  unfold Kind.startsSegment at h
  split at h
  iterate 6 exact leaf hend
  exact nomatch h

theorem literal (h : s.kind.startsLiteral = true) : Takes σ s Parse.literal := by
  refine flush (Takes.kind fun c hc => ?_)
  have hend : (s.flushed σ).kind ≠ .endOfFile := fun he => by
    simp [show s.kind = _ from he, Kind.startsLiteral] at h
  have hnumber {kind : Kind} : Takes σ (s.flushed σ) (Parse.number kind) := node (bind (bind (take hend)))
  rw [show s.kind = c from hc] at h
  unfold Kind.startsLiteral at h
  split at h
  · exact hnumber
  · exact hnumber
  iterate 3 exact bind (take hend)
  iterate 2 exact node (consume hend)
  exact nomatch h

theorem quotedName {kind : Kind} (h : s.kind = .quote) : Takes σ s (Parse.quotedName kind) :=
  node (bind (expect h nofun))

/-- The first part of a mark that is split is no end either. -/
theorem split_ne {scanner : Scanner} {first : Kind} (h : scanner.kind ≠ .endOfFile)
    (hfirst : first ≠ .endOfFile) : (scanner.split first).kind ≠ .endOfFile := by
  have hresized (bytes : Nat) : (if bytes < scanner.token.length then scanner.resize first bytes
      else scanner).kind ≠ .endOfFile := by
    split
    · exact hfirst
    · exact h
  exact hresized _

/-- A mark is split before its first part is taken. -/
theorem splitting {kind first : Kind} {K : Unit → Parse α} (hk : s.kind ≠ .endOfFile)
    (hfirst : first ≠ .endOfFile) (hK : ∀ {t : Session}, t.kind ≠ .endOfFile → Takes σ t (K ())) :
    Takes σ s (Parse.ifAt kind (Parse.split first) >>= K) := by
  by_cases h : s.kind = kind
  · have hpass : Passes σ s (Parse.ifAt kind (Parse.split first)) ()
        { s with scanner := s.scanner.split first } := by
      have hrun (u : Session) (hu : u.kind = kind) : Parse.ifAt kind (Parse.split first) σ u =
          some ((), { u with scanner := u.scanner.split first }) := by
        refine bind_eq_some.2 ⟨true, u, ?_, rfl⟩
        rw [isAt_run, Session.isAt, beq_iff_eq.2 hu]
      exact ⟨hrun s h, fun offset => ⟨offset, hrun (s.endedAt offset) h⟩⟩
    exact after hpass (hK (split_ne hk hfirst))
  · exact ifAt (fun h' => absurd h' h) fun _ => hK hk

variable {g : Grammar}

theorem bracketedType (h : s.kind ≠ .endOfFile) : Takes σ s g.bracketedType :=
  node (splitting h nofun fun ht => bind (consume ht))

theorem pathScope {K : Option Draft → Parse α} (hend : s.kind ≠ .endOfFile)
    (none : s.kind.startsAngle = false → s.kind ≠ .colonColon → Takes σ s (K none)) :
    Takes σ s (g.pathScope >>= K) := by
  by_cases hangle : s.kind.startsAngle = true
  · refine bind (Takes.kind fun c hc => choose (fun _ => bind (bracketedType hend)) fun h => ?_)
    exact absurd h (by rw [← hc, hangle]; nofun)
  · by_cases hcolon : s.kind = .colonColon
    · refine bind (Takes.kind fun c hc => choose (fun h => absurd (hc ▸ h) hangle) fun _ => choose ?_ ?_)
      · exact fun _ => bind (collect (consume hend))
      · exact fun h => absurd (beq_iff_eq.2 (hc ▸ hcolon)) (by rw [h]; nofun)
    · have hangle : s.kind.startsAngle = false := Bool.eq_false_iff.2 hangle
      refine after (r := Option.none) (t := s) ?_ (none hangle hcolon)
      have hrun (u : Session) (hu : u.kind = s.kind) : g.pathScope σ u = some (Option.none, u) := by
        refine bind_eq_some.2 ⟨u.kind, u, rfl, ?_⟩
        rw [hu, hangle, beq_eq_false_iff_ne.2 hcolon]
        rfl
      exact ⟨hrun s rfl, fun offset => ⟨offset, hrun (s.endedAt offset) rfl⟩⟩

theorem valuePath (h : s.kind.startsPath = true ∨ s.kind.startsAngle = true) :
    Takes σ s g.valuePath := by
  have hend : s.kind ≠ .endOfFile := fun he => by
    simp [he, Kind.startsPath, Kind.startsSegment, Kind.startsAngle] at h
  refine flush (pathScope hend fun hangle hcolon => ?_)
  refine loop (bind (m := Parse.segmentIn none .identifier) (segment ?_))
  change s.kind.startsAngle = false at hangle
  change s.kind ≠ .colonColon at hcolon
  show s.kind.startsSegment = true
  simpa [Kind.startsPath, hangle, hcolon] using h

/-! ### Expressions -/

theorem labeled (h : s.kind = .quote) : Takes σ s g.labeled :=
  bind (collect (bind (child (quotedName h))))

theorem block (h : s.kind = .openBrace) : Takes σ s g.block := by
  have hend : s.kind ≠ .endOfFile := by rw [h]; nofun
  have hbody {σ : Setting} : Takes σ ((s.flushed σ).withDraft (.ofKind .block)) g.blockBody := by
    refine isAt (fun _ => ?_) fun hno => absurd h hno
    exact idly .tokenRange fun _ t ht =>
      bind (consume fun he => hend ((congrArg Scanner.kind ht).symm.trans he))
  exact flush (guarded hend (by exact h ▸ rfl) (node hbody))

theorem noExpression (h : s.kind.endsOperand = false) : Takes σ s Grammar.noExpression := by
  have hends := h
  simp only [Kind.endsOperand, Bool.or_eq_false_iff, beq_eq_false_iff_ne] at hends
  refine idly .reportExpected fun _ t ht => Takes.kind fun c hc => choose (fun hyes => ?_) fun _ => ?_
  · have hkind : t.kind = s.kind := congrArg Scanner.kind ht
    rw [← hc, hkind] at hyes
    exact nomatch hyes.symm.trans h
  · have hkind : t.kind = s.kind := congrArg Scanner.kind ht
    exact skipGroup (hkind ▸ hends.1.1.1.1) (hkind ▸ hends.1.1.1.2)

/-- A primary expression takes its first token, if blocks do. -/
theorem primary (hblock : ∀ {σ s}, s.kind = .openBrace → Takes σ s (g.parse .block))
    (h : s.kind.endsOperand = false) : Takes σ s g.primary := by
  have hends := h
  simp only [Kind.endsOperand, Bool.or_eq_false_iff, beq_eq_false_iff_ne] at hends
  have hend : s.kind ≠ .endOfFile := hends.1.1.1.1
  have htake {d : Draft} {K : Unit → Parse Unit} :
      Takes σ (s.withDraft d) (Parse.consume >>= K) := bind (consume hend)
  refine look ?_ fun offset => rfl
  split
  case h_1 | h_2 | h_3 | h_4 | h_5 | h_6 | h_7 => next hk => exact literal (by rw [hk]; rfl)
  case h_8 => exact leaf hend
  case h_9 | h_10 | h_11 | h_12 | h_13 | h_14 | h_15 | h_16 | h_17 =>
    next hk => exact bind (valuePath (by rw [hk]; decide))
  case h_18 =>
    refine node (idly .ahead fun _ t ht => ?_)
    have hend : t.kind ≠ .endOfFile := fun he => hend ((congrArg Scanner.kind ht).symm.trans he)
    refine choose (fun _ => after passes_setKind (bind (consume hend))) fun _ => ?_
    exact idly .tokenRange fun _ u hu =>
      bind (consume fun he => hend ((congrArg Scanner.kind hu).symm.trans he))
  case h_19 =>
    exact node (idly .tokenRange fun _ t ht =>
      bind (consume fun he => hend ((congrArg Scanner.kind ht).symm.trans he)))
  case h_20 => next hk => exact hblock hk
  case h_21 => next hk => exact labeled hk
  case h_22 => exact choose (fun _ => node htake) fun _ => noExpression h
  case h_23 => exact node htake
  case h_24 => exact choose (fun _ => node htake) fun _ => noExpression h
  case h_25 => exact node htake
  case h_26 => exact node htake
  case h_27 | h_28 | h_29 => exact node (after passes_setKind htake)
  case h_30 =>
    refine idly (fun σ s => ⟨σ.restriction, s, rfl, rfl, fun _ => rfl⟩) fun _ t ht => ?_
    have hkind : t.kind = s.kind := congrArg Scanner.kind ht
    exact choose (fun _ => node (bind (consume (hkind ▸ hend)))) fun _ => noExpression (hkind ▸ h)
  case h_31 => exact noExpression h

theorem closure (h : s.kind = .asyncKw ∨ s.kind = .moveKw ∨ s.kind = .pipe ∨ s.kind = .pipePipe) :
    Takes σ s g.closure := by
  have hend : s.kind ≠ .endOfFile := by rcases h with h | h | h | h <;> rw [h] <;> nofun
  refine node (consumeIf nofun fun hasync => consumeIf nofun fun hmove => flush (bind (field ?_)))
  refine node (isAt (fun _ => ?_) fun hpipes => ?_)
  · exact after passes_split (bind (consume (split_ne hend nofun)))
  · refine bind (expect ?_ nofun)
    exact ((h.resolve_left hasync).resolve_left hmove).resolve_right hpipes

/-- An expression before any infix operator takes its first token, if blocks do. -/
theorem prefixed (hblock : ∀ {σ s}, s.kind = .openBrace → Takes σ s (g.parse .block))
    (h : s.kind.endsOperand = false) : Takes σ s g.prefixed := by
  have hends := h
  simp only [Kind.endsOperand, Bool.or_eq_false_iff, beq_eq_false_iff_ne] at hends
  have hend : s.kind ≠ .endOfFile := hends.1.1.1.1
  have htake {d : Draft} {K : Unit → Parse Unit} :
      Takes σ (s.withDraft d) (Parse.consume >>= K) := bind (consume hend)
  refine look ?_ fun offset => rfl
  split
  case h_1 | h_2 | h_3 => exact node htake
  case h_4 | h_5 =>
    refine node (isAt (fun _ => ?_) fun _ => htake)
    exact after passes_split (bind (consume (split_ne hend nofun)))
  case h_6 | h_7 => exact node htake
  case h_8 | h_9 | h_10 => next hk => exact closure (by simp [hk])
  case h_11 => next hk => exact choose (fun _ => closure (.inl hk)) fun _ => bind (primary hblock h)
  case h_12 | h_13 | h_14 => exact node htake
  case h_15 => exact node htake
  case h_16 => exact bind (primary hblock h)

theorem expressionFrom {min : Precedence}
    (hblock : ∀ {σ s}, s.kind = .openBrace → Takes σ s (g.parse .block))
    (h : s.kind.endsOperand = false) : Takes σ s (g.expressionFrom min) := by
  have hends := h
  simp only [Kind.endsOperand, Bool.or_eq_false_iff, beq_eq_false_iff_ne] at hends
  exact flush (guarded hends.1.1.1.1 hends.1.1.1.2 (bind (prefixed hblock h)))

end Takes

end Parse

open Parse

/-- A grammar whose expressions take the token that they begin with. -/
structure Grammar.TakesFirst (g : Grammar) : Prop where
  block : ∀ {σ s}, s.kind = .openBrace → Takes σ s (g.parse .block)
  expression : ∀ {σ s}, s.kind.endsOperand = false → Takes σ s (g.parse (.expression .closure))
  blockLike : ∀ {σ s}, s.kind.endsOperand = false → Takes σ s (g.parse .blockLike)

theorem Grammar.takesFirst_upTo (n : Nat) : (Grammar.upTo n).TakesFirst := by
  induction n with
  | zero => exact ⟨fun _ _ => rfl, fun _ _ => rfl, fun _ _ => rfl⟩
  | succ n ih =>
    refine ⟨fun h => .opening (.block h), fun h => .opening (.expressionFrom ih.block h), fun h => ?_⟩
    have hends := h
    simp only [Kind.endsOperand, Bool.or_eq_false_iff, beq_eq_false_iff_ne] at hends
    exact .opening (.guarded hends.1.1.1.1 hends.1.1.1.2 (.primary ih.block h))

namespace Parse.Takes

variable {σ : Setting} {s : Session} {g : Grammar}

/-! ### Items -/

/-- Whether a contextual word stands here. -/
theorem passes_isAtWord (σ : Setting) (s : Session) (word : String) :
    Passes σ s (isAtWord word)
      (decide (s.kind = .identifier ∧ s.scanner.tokenText σ.source = word)) s := by
  have hrun (u : Session) (hu : u.scanner = s.scanner) : isAtWord word σ u =
      some (decide (s.kind = .identifier ∧ s.scanner.tokenText σ.source = word), u) := by
    have hkind : u.kind = s.kind := congrArg Scanner.kind hu
    have htext : tokenText σ u = some (s.scanner.tokenText σ.source, u) := by
      rw [← hu]
      rfl
    by_cases hk : s.kind = .identifier
    · refine bind_eq_some.2 ⟨true, u, by rw [isAt_run, Session.isAt, hkind, hk]; rfl, ?_⟩
      refine bind_eq_some.2 ⟨_, u, htext, ?_⟩
      simp only [hk, true_and]
      rfl
    · refine bind_eq_some.2 ⟨false, u, ?_, by simp [hk]; rfl⟩
      rw [isAt_run, Session.isAt, hkind, beq_eq_false_iff_ne.2 hk]
  exact ⟨hrun s rfl, fun offset => ⟨offset, hrun (s.endedAt offset) rfl⟩⟩

theorem atWord {word : String} {K : Bool → Parse α} (hk : s.kind = .identifier)
    (hword : s.scanner.tokenText σ.source = word) (h : Takes σ s (K true)) :
    Takes σ s (isAtWord word >>= K) :=
  after (passes_isAtWord σ s word) (by rwa [decide_eq_true ⟨hk, hword⟩])

theorem notAtWord {word : String} {K : Bool → Parse α} (hk : s.kind ≠ .identifier)
    (h : Takes σ s (K false)) : Takes σ s (isAtWord word >>= K) :=
  after (passes_isAtWord σ s word) (by rwa [decide_eq_false fun h => hk h.1])

/-- A modifier of a function stands here. -/
def AtModifier (σ : Setting) (s : Session) : Prop :=
  s.kind ∈ [.constKw, .asyncKw, .unsafeKw, .externKw] ∨
    s.kind = .identifier ∧ s.scanner.tokenText σ.source = "default"

theorem externModifier (h : s.kind ≠ .endOfFile) : Takes σ s Parse.externModifier :=
  flush (node (bind (consume h)))

theorem functionModifiers (h : AtModifier σ s) : Takes σ s Parse.functionModifiers := by
  refine flush (node (repeatWhile (Takes.kind fun c hc => ?_)))
  change s.kind = c at hc
  have hend : s.kind ≠ .endOfFile := by
    rintro he
    simp [AtModifier, he] at h
  simp only [AtModifier, List.mem_cons, List.not_mem_nil, or_false] at h
  rcases h with (h | h | h | h) | ⟨h, hword⟩ <;> rw [h] at hc <;> subst hc
  iterate 3 exact bind (consume hend)
  · exact bind (child (externModifier hend))
  · exact atWord h hword (bind (consumeAs hend))

theorem passes_isAtFunctionModifier (σ : Setting) (s : Session) :
    ∃ b, Passes σ s Grammar.isAtFunctionModifier b s ∧ (b = true ↔ AtModifier σ s) := by
  by_cases hk : s.kind ∈ [.constKw, .asyncKw, .unsafeKw, .externKw]
  · have hrun (u : Session) (hu : u.kind = s.kind) :
        Grammar.isAtFunctionModifier σ u = some (true, u) := by
      refine bind_eq_some.2 ⟨true, u, ?_, rfl⟩
      show some (List.contains _ u.kind, u) = _
      rw [hu, List.contains_iff_mem.2 hk]
    exact ⟨true, ⟨hrun s rfl, fun offset => ⟨offset, hrun (s.endedAt offset) rfl⟩⟩, by simp [AtModifier, hk]⟩
  · have hrun {b : Bool} {u u' : Session} (hu : u.kind = s.kind)
        (h : isAtWord "default" σ u = some (b, u')) :
        Grammar.isAtFunctionModifier σ u = some (b, u') := by
      refine bind_eq_some.2 ⟨false, u, ?_, h⟩
      show some (List.contains _ u.kind, u) = _
      rw [hu, Bool.eq_false_iff.2 fun hmem => hk (List.contains_iff_mem.1 hmem)]
    have hword := passes_isAtWord σ s "default"
    refine ⟨_, ⟨hrun rfl hword.run, fun offset => ?_⟩, by simp [AtModifier, hk]⟩
    obtain ⟨offset', h⟩ := hword.anywhere offset
    exact ⟨offset', hrun rfl h⟩

theorem functionItem (h : s.kind = .fnKw ∨ AtModifier σ s) : Takes σ s g.functionItem := by
  refine after passes_setKind ?_
  obtain ⟨b, hpass, hb⟩ := passes_isAtFunctionModifier σ (s.withDraft (s.draft.setKind .functionItem))
  refine after hpass ?_
  change b = true ↔ AtModifier σ s at hb
  cases b with
  | true => exact bind (child (functionModifiers (hb.1 rfl)))
  | false => exact skipped (bind (expect (h.resolve_right fun h => nomatch hb.2 h) nofun))

theorem passes_consumeDefault (h : s.kind ≠ .identifier) : Passes σ s consumeDefault () s := by
  have hword := passes_isAtWord σ s "default"
  rw [decide_eq_false fun hword => h hword.1] at hword
  refine ⟨bind_eq_some.2 ⟨_, _, hword.run, rfl⟩, fun offset => ?_⟩
  obtain ⟨offset', hrun⟩ := hword.anywhere offset
  exact ⟨offset', bind_eq_some.2 ⟨_, _, hrun, rfl⟩⟩

/-- What may begin with `default` takes this word or what comes next. -/
theorem afterDefault {K : Unit → Parse Unit}
    (h : s.kind ≠ .identifier ∧ Takes σ s (K ()) ∨
      s.kind = .identifier ∧ s.scanner.tokenText σ.source = "default") :
    Takes σ s (Parse.consumeDefault >>= K) := by
  rcases h with ⟨h, hK⟩ | ⟨h, hword⟩
  · exact after (passes_consumeDefault h) hK
  · exact bind (atWord h hword (consumeAs (by rw [h]; nofun)))

theorem constItem (h : s.kind = .constKw ∨ s.kind = .identifier ∧ s.scanner.tokenText σ.source = "default") :
    Takes σ s g.constItem := by
  refine after passes_setKind (afterDefault (h.imp_left fun h => ⟨?_, bind (consume ?_)⟩)) <;>
  · show s.kind ≠ _
    rw [h]
    nofun

theorem typeItem (h : s.kind = .typeKw ∨ s.kind = .identifier ∧ s.scanner.tokenText σ.source = "default") :
    Takes σ s g.typeItem := by
  refine after passes_setKind (afterDefault (h.imp_left fun h => ⟨?_, bind (consume ?_)⟩)) <;>
  · show s.kind ≠ _
    rw [h]
    nofun

theorem implItem (h : s.kind = .unsafeKw ∨ s.kind = .implKw ∨
    s.kind = .identifier ∧ s.scanner.tokenText σ.source = "default") : Takes σ s g.implItem := by
  refine after passes_setKind (afterDefault ((or_assoc.2 h).imp_left fun h => ⟨?_, ?_⟩))
  · rcases h with h | h <;>
    · show s.kind ≠ _
      rw [h]
      nofun
  · exact consumeIf nofun fun hno => bind (expect (h.resolve_left hno) nofun)

theorem traitItem (h : s.kind = .unsafeKw ∨ s.kind = .traitKw ∨
    s.kind = .identifier ∧ s.scanner.tokenText σ.source = "auto") : Takes σ s g.traitItem := by
  refine after passes_setKind (consumeIf nofun fun hno => ?_)
  rcases h.resolve_left hno with h | ⟨h, hword⟩
  · refine @notAtWord _ _ _ "auto" _ (show s.kind ≠ _ from ?_) (skipped (bind (expect h nofun)))
    rw [h]
    nofun
  · exact atWord h hword (bind (consumeAs (show s.kind ≠ _ from by rw [h]; nofun)))

theorem foreignModItem (h : s.kind = .unsafeKw ∨ s.kind = .externKw) :
    Takes σ s g.foreignModItem := by
  refine after passes_setKind (consumeIf nofun fun hno => bind (child (externModifier ?_)))
  show s.kind ≠ _
  rw [h.resolve_left hno]
  nofun

/-- An item whose first token says which item it is. -/
theorem keyword {kind : Kind} {rest : Unit → Parse Unit} (h : s.kind ≠ .endOfFile) :
    Takes σ s (setKind kind >>= fun _ => Parse.consume >>= rest) :=
  after passes_setKind (bind (consume h))

/-- An item that a contextual word begins. -/
theorem contextual {kind as : Kind} {rest : Unit → Parse Unit} (h : s.kind ≠ .endOfFile) :
    Takes σ s (setKind kind >>= fun _ => Parse.consumeAs as >>= rest) :=
  after passes_setKind (bind (consumeAs h))

theorem passes_tokenText (σ : Setting) (s : Session) :
    Passes σ s tokenText (s.scanner.tokenText σ.source) s := ⟨rfl, fun offset => ⟨offset, rfl⟩⟩

theorem itemAtUnsafe (h : s.kind = .unsafeKw) : Takes σ s (g.itemAtUnsafe s) := by
  have hfunction : Takes σ s g.functionItem := functionItem (.inr (by simp [AtModifier, h]))
  unfold Grammar.itemAtUnsafe
  split
  · exact implItem (.inl h)
  · exact traitItem (.inl h)
  · refine after ⟨rfl, fun offset => ⟨offset, rfl⟩⟩ (choose (fun _ => traitItem (.inl h)) fun _ => hfunction)
  · exact choose (fun _ => foreignModItem (.inl h)) fun _ => hfunction
  · exact hfunction

theorem itemAtExtern (h : s.kind = .externKw) : Takes σ s (g.itemAtExtern s) := by
  refine choose (fun _ => keyword (by rw [h]; nofun)) fun _ => choose (fun _ => foreignModItem (.inr h)) ?_
  exact fun _ => functionItem (.inr (by simp [AtModifier, h]))

theorem itemAtDefault (h : s.kind = .identifier) (hword : s.scanner.tokenText σ.source = "default") :
    Takes σ s (g.itemAtDefault s) := by
  have hfunction : Takes σ s g.functionItem := functionItem (.inr (.inr ⟨h, hword⟩))
  unfold Grammar.itemAtDefault
  split
  · exact implItem (.inr (.inr ⟨h, hword⟩))
  · exact typeItem (.inr ⟨h, hword⟩)
  · exact choose (fun _ => hfunction) fun _ => constItem (.inr ⟨h, hword⟩)
  · exact hfunction

/-- Whether a contextual word begins an item. -/
theorem word_of_isAtItem (hk : s.kind = .identifier) (h : isAtItem σ s = some (true, s)) :
    s.scanner.tokenText σ.source = "union" ∧ s.ahead 1 = .identifier ∨
    s.scanner.tokenText σ.source = "auto" ∧ s.ahead 1 = .traitKw ∨
    s.scanner.tokenText σ.source = "macro_rules" ∧ s.ahead 1 = .bang ∨
    s.scanner.tokenText σ.source = "default" := by
  obtain ⟨_, _, hget, h⟩ := bind_eq_some.1 h
  obtain ⟨rfl, rfl⟩ := Prod.mk.inj (Option.some.inj hget)
  simp only [hk] at h
  obtain ⟨_, _, htext, h⟩ := bind_eq_some.1 h
  obtain ⟨rfl, rfl⟩ := Prod.mk.inj (Option.some.inj htext)
  have hmatch := (pure_eq_some.1 h).1
  split at hmatch
  · next hword => exact .inl ⟨hword, beq_iff_eq.1 hmatch⟩
  · next hword => exact .inr (.inl ⟨hword, beq_iff_eq.1 hmatch⟩)
  · next hword => exact .inr (.inr (.inr hword))
  · next hword => exact .inr (.inr (.inl ⟨hword, beq_iff_eq.1 hmatch⟩))
  · cases hmatch

/-- An item takes its first token, where one begins. -/
theorem itemForm (h : isAtItem σ s = some (true, s)) (hpub : s.kind ≠ .pubKw) (hpound : s.kind ≠ .pound) :
    Takes σ s g.itemForm := by
  refine look ?_ fun offset => rfl
  split
  case h_1 hk => exact functionItem (.inl hk)
  case h_2 hk => exact functionItem (.inr (by simp [AtModifier, hk]))
  case h_3 hk =>
    exact choose (fun _ => functionItem (.inr (by simp [AtModifier, hk]))) fun _ => constItem (.inl hk)
  case h_4 hk => exact itemAtUnsafe hk
  case h_5 hk => exact itemAtExtern hk
  case h_6 hk | h_7 hk | h_8 hk | h_12 hk | h_13 hk => exact keyword (by rw [hk]; nofun)
  case h_9 hk => exact traitItem (.inr (.inl hk))
  case h_10 hk => exact implItem (.inr (.inl hk))
  case h_11 hk => exact typeItem (.inl hk)
  case h_14 hk =>
    have hend : s.kind ≠ .endOfFile := by rw [hk]; nofun
    refine after (passes_tokenText σ s) ?_
    rcases word_of_isAtItem hk h with ⟨hword, hnext⟩ | ⟨hword, hnext⟩ | ⟨hword, hnext⟩ | hword <;> rw [hword]
    · exact choose (fun _ => contextual hend) fun hno => absurd (beq_iff_eq.2 hnext) (by rw [hno]; nofun)
    · exact choose (fun _ => traitItem (.inr (.inr ⟨hk, hword⟩))) fun hno =>
        absurd (beq_iff_eq.2 hnext) (by rw [hno]; nofun)
    · exact choose (fun _ => contextual hend) fun hno => absurd (beq_iff_eq.2 hnext) (by rw [hno]; nofun)
    · exact itemAtDefault hk hword
  case h_15 =>
    have hrun : isAtItem σ s = some (false, s) := by
      refine bind_eq_some.2 ⟨s, s, rfl, congrFun (congrFun (?_ : _ = (pure false : Parse Bool)) σ) s⟩
      split
      all_goals first | contradiction | rfl
    exact nomatch h.symm.trans hrun

/-- Visibility takes its first token. -/
theorem visibility (h : s.kind ≠ .endOfFile) : Takes σ s Parse.visibility :=
  flush (node (bind (consume h)))

theorem attributeItem (h : s.kind ≠ .endOfFile) : Takes σ s g.attributeItem :=
  flush (node (bind (consume h)))

theorem letDeclaration (h : s.kind ≠ .endOfFile) : Takes σ s g.letDeclaration :=
  node (bind (consume h))

theorem recoverStatement (h : s.kind ≠ .endOfFile) (hclose : s.kind ≠ .closeBrace) :
    Takes σ s Parse.recoverStatement := by
  refine idly .offset fun _ t ht => idly .note fun _ u hu => idly .reportUnexpected fun _ v hv => ?_
  have hkind : v.kind = s.kind := congrArg Scanner.kind (hv.trans (hu.trans ht))
  refine flush (child (node (repeatWhile (Takes.kind fun c hc => choose (fun hyes => ?_) fun _ => ?_))))
  · rw [← hc, Bool.or_eq_true, beq_iff_eq, beq_iff_eq] at hyes
    exact (hyes.elim (h <| hkind.symm.trans ·) (hclose <| hkind.symm.trans ·)).elim
  · refine idly .countBrace fun _ w hw => bind (consume ?_)
    show w.kind ≠ _
    rw [Session.kind, hw]
    exact fun he => h (hkind.symm.trans he)

/-- An item takes its first token, where one begins. -/
theorem item (h : ∀ t : Session, t.scanner = s.scanner → Parse.isAtItem σ t = some (true, t))
    (hleading : s.scanner.leading = []) (hend : s.kind ≠ .endOfFile) : Takes σ s g.item := by
  have hscanner : (s.flushed σ).scanner = s.scanner := by rw [Session.flushed, ← hleading]
  refine flush (isAt (fun _ => bind (child (attributeItem hend))) fun hpound => ?_)
  refine after (r := true) (t := s.flushed σ) ⟨h _ hscanner, fun offset => ⟨offset, ?_⟩⟩
    (bind (child (node ?_)))
  · exact h ((s.flushed σ).endedAt offset) hscanner
  · refine ifAt (fun hpub => child (visibility (by rw [hpub]; decide))) fun hpub => ?_
    exact itemForm (h _ hscanner) hpub hpound

/-- What may begin an expression may begin an operand. -/
theorem endsOperand_of_startsExpression {restriction : Restriction} {k : Kind}
    (h : k.startsExpression restriction = true) : k.endsOperand = false := by
  by_contra hends
  rw [Bool.not_eq_false] at hends
  simp only [Kind.endsOperand, Bool.or_eq_true, beq_iff_eq] at hends
  rcases hends with (((rfl | hclose) | rfl) | rfl) | rfl
  case inl.inl.inl.inr =>
    unfold Kind.isClose at hclose
    split at hclose
    all_goals first | exact Bool.false_ne_true hclose | exact Bool.false_ne_true h
  all_goals exact Bool.false_ne_true h

theorem statementExpression (hg : g.TakesFirst) (h : s.kind.endsOperand = false) :
    Takes σ s g.statementExpression :=
  flush (look (choose (fun _ => bind (hg.blockLike h)) fun _ => bind (hg.expression h)) fun _ => rfl)

theorem expressionStatement (hg : g.TakesFirst) (h : s.kind.endsOperand = false) :
    Takes σ s g.expressionStatement :=
  bind (statementExpression hg h)

/-- A statement takes its first token, or nothing begins here and nothing happens. -/
theorem statement (hg : g.TakesFirst) (h : s.kind ≠ .endOfFile) :
    Takes σ s g.statement ∨ Passes σ s g.statement () (s.flushed σ) := by
  by_cases hsemicolon : s.kind = .semicolon
  · refine .inl (flush (Takes.kind fun c hc => ?_))
    rw [← hc, show (s.flushed σ).kind = s.kind from rfl, hsemicolon]
    exact child (node (consume h))
  by_cases hlet : s.kind = .letKw
  · refine .inl (flush (Takes.kind fun c hc => ?_))
    rw [← hc, show (s.flushed σ).kind = s.kind from rfl, hlet]
    exact child (letDeclaration h)
  obtain ⟨isItem, hitem⟩ := Looks.isAtItem σ (s.flushed σ)
  cases isItem with
  | true =>
    refine .inl (flush (Takes.kind fun c hc => ?_))
    split
    · contradiction
    · contradiction
    · exact after (.of_scanner hitem) (bind (item hitem rfl h))
  | false =>
    have hstarts (t : Session) (ht : t.scanner = (s.flushed σ).scanner) :
        isAtExpression σ t = some (s.kind.startsExpression σ.restriction, t) := by
      have hkind : t.kind = (s.flushed σ).kind := congrArg Scanner.kind ht
      rw [← show t.kind = s.kind from hkind]
      rfl
    by_cases hexpression : s.kind.startsExpression σ.restriction = true
    · rw [hexpression] at hstarts
      refine .inl (flush (Takes.kind fun c hc => ?_))
      split
      · contradiction
      · contradiction
      · refine after (.of_scanner hitem) (after (.of_scanner hstarts) ?_)
        exact expressionStatement hg (endsOperand_of_startsExpression hexpression)
    · rw [Bool.eq_false_iff.2 hexpression] at hstarts
      refine .inr (passes_flush.bind (.kind ?_))
      split
      · contradiction
      · contradiction
      · exact .bind (.of_scanner hitem) (.bind (.of_scanner hstarts) .pure)

/-- A member of a row takes its first token. -/
theorem rowMember (hg : g.TakesFirst) {row : Grammar.Row} (hrow : row.itemsOnly = false)
    (h : s.kind ≠ .endOfFile) (hclose : s.kind ≠ .closeBrace) : Takes σ s (g.rowMember row) := by
  refine after (r := s.offset) (t := s) ⟨rfl, fun offset => ⟨offset, rfl⟩⟩ ?_
  have hrowStatement : g.rowStatement row = g.statement := by
    unfold Grammar.rowStatement
    rw [hrow]
    rfl
  rw [hrowStatement]
  rcases statement (σ := σ) hg h with htakes | hpasses
  · exact bind htakes
  · refine after hpasses (look (choose (fun _ => recoverStatement h hclose) fun hno => ?_) fun _ => rfl)
    have hsame : ((s.flushed σ).offset == s.offset) = true := beq_iff_eq.2 rfl
    rw [hsame, Bool.true_and, Bool.not_eq_false', Session.isAt, beq_iff_eq] at hno
    exact absurd hno h

theorem absorbBrace {K : Bool → Parse α} (h : s.kind ≠ .endOfFile)
    (hK : Takes σ s (K false)) : Takes σ s (Parse.absorbBrace >>= K) := by
  by_cases hopen : (s.openBraces > 0 && s.isAt .closeBrace) = true
  · refine bind (look (choose (fun _ => ?_) fun hno => absurd hopen (hno ▸ nofun)) fun _ => rfl)
    exact idly (.modify (fun _ => rfl) fun _ _ => rfl) fun _ t ht => idly .note fun _ u hu =>
      bind (consume fun he => h ((congrArg Scanner.kind (hu.trans ht)).symm.trans he))
  · have hrun (t : Session) (ht : (t.openBraces > 0 && t.isAt .closeBrace) =
        (s.openBraces > 0 && s.isAt .closeBrace)) : Parse.absorbBrace σ t = some (false, t) := by
      refine bind_eq_some.2 ⟨t, t, rfl, ?_⟩
      rw [ht, Bool.eq_false_iff.2 hopen]
      rfl
    exact after ⟨hrun s rfl, fun offset => ⟨offset, hrun (s.endedAt offset) rfl⟩⟩ hK

/-- A turn of the rows of a text takes its first token. -/
theorem rowTurn (hg : g.TakesFirst) {row : Grammar.Row} (hrow : row.itemsOnly = false)
    (hbraces : row.inBraces = false) (h : s.kind ≠ .endOfFile) : Takes σ s (g.rowTurn row) := by
  refine flush (Takes.kind fun c hc => ?_)
  split
  · next hk => exact absurd hc h
  · refine absorbBrace h ?_
    rw [hbraces]
    refine idly .reportUnexpected fun _ t ht => bind (child (node (consume fun he => h ?_)))
    have hkind : t.kind = (s.flushed σ).kind := congrArg Scanner.kind ht
    exact hkind.symm.trans he
  · next hclose => exact bind (rowMember hg hrow h (hc ▸ hclose))

end Parse.Takes

end ConcreteSyntax
