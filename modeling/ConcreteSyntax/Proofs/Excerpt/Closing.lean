import ConcreteSyntax.Proofs.Excerpt.Type

/-! # Readings that close

Behind the mark that ends an item no more of the text need follow, and what stands there may differ
in the text and in the whole. A program closes (`Parse.Closes`) if the last token that it takes is
such a mark: where it reports nothing, it leads a session that kept step to one that stands right
behind the same mark (`Session.Landed`), although it is not fair any more. -/

namespace ConcreteSyntax

open Lexeme (contextual?)

/-- What goes on with a block, or with the statement that it ends. -/
def Kind.continuesBlock : Kind → Bool
  | .dot | .question | .semicolon | .elseKw => true
  | _ => false

/-- What stands behind the text goes on with no block at its end. -/
def Excerpt.EndsBlocks (E : Excerpt) : Prop :=
  ∀ place : Cursor, place.In E.text → (Scanner.facing .usual place).kind = .endOfFile →
    (Scanner.facing .usual (E.move place)).kind.continuesBlock = false

namespace Session

/-- The sessions stand right behind the same mark, with what it closed. -/
structure Landed (E : Excerpt) (pre : List Child) (before : Nat) (t t' : Session) : Prop
    extends t.Even E pre t' where
  behind : ∃ place : Cursor, place.In E.text ∧ before < place.offset ∧
    t.scanner = .facing .usual place ∧ t'.scanner = .facing .usual (E.move place)

/-- Where a reading comes to an end: at a fair session, or, if it closes, at the end of the text with
nothing reported. -/
def Stops (closes : Bool) (E : Excerpt) (t : Session) : Prop :=
  match closes with
  | false => t.Fair E
  | true => t.report.toList = [] ∧ t.scanner.token.faults = [] ∧ t.kind = .endOfFile

/-- What the sessions have in common where a reading comes to an end. -/
def Meets (closes : Bool) (E : Excerpt) (pre : List Child) (before : Nat) (t t' : Session) : Prop :=
  match closes with
  | false => before ≤ t.offset ∧ t.Alike E pre t'
  | true => t.Landed E pre before t'

variable {E : Excerpt} {pre pre' : List Child} {before : Nat} {t t' : Session} {closes : Bool}

theorem Landed.withDraft {d d' : Draft} (h : t.Landed E pre before t')
    (hd : d.After E.shift pre' d') : (t.withDraft d).Landed E pre' before (t'.withDraft d') where
  toEven := h.toEven.withDraft hd
  behind := h.behind

theorem Meets.even (h : t.Meets closes E pre before t') : t.Even E pre t' := by
  cases closes
  exacts [h.2.toEven, h.toEven]

theorem Meets.withDraft {d d' : Draft} (h : t.Meets closes E pre before t')
    (hd : d.After E.shift pre' d') : (t.withDraft d).Meets closes E pre' before (t'.withDraft d') := by
  cases closes
  exacts [⟨h.1, h.2.withDraft hd⟩, Landed.withDraft h hd]

theorem stops_withDraft {d : Draft} : (t.withDraft d).Stops closes E ↔ t.Stops closes E := by
  cases closes <;> exact Iff.rfl

end Session

namespace Parse

variable {α α' β β' : Type}

/-- The program keeps step, and if it `closes`, up to behind the mark that it ends with. -/
abbrev Closes (closes : Bool) (E : Excerpt) (pre : List Child) (a : Option Kind) (φ : α → α')
    (m : Parse α) (m' : Parse α') : Prop :=
  Follows E pre a φ (fun _ t => t.Stops closes E) (Session.Meets closes E pre) m m'

/-- A program that only adds to the open draft. -/
structure Settles (E : Excerpt) (pre : List Child) (φ : α → α') (m : Parse α) (m' : Parse α') :
    Prop where
  settle (σ σ' : Setting) (s : Session) : ∃ r d, m σ s = some (r, s.withDraft d) ∧
    ∀ {s'}, s.Even E pre s' → ∃ d', m' σ' s' = some (φ r, s'.withDraft d') ∧ d.After E.shift pre d'

namespace Follows

variable {E : Excerpt} {pre : List Child} {a : Option Kind} {φ : α → α'} {ψ : β → β'}
  {m : Parse α} {m' : Parse α'} {closes : Bool}

/-- What need not close keeps step. -/
theorem tracks (h : Closes false E pre a φ m m') : Tracks E pre a φ m m' := h

/-! ### What follows the last mark -/

theorem settles_pure (r : α) : Settles E pre φ (Pure.pure r) (Pure.pure (φ r)) :=
  ⟨fun _ _ s => ⟨r, s.draft, rfl, fun {s'} h => ⟨s'.draft, rfl, h.draft⟩⟩⟩

theorem settles_pushChild {label : Option Field} {n : Node} : Settles E pre id
    (Parse.modifyDraft (·.pushChild label n))
    (Parse.modifyDraft (·.pushChild label (n.shift E.shift))) :=
  ⟨fun _ _ s => ⟨(), s.draft.pushChild label n, rfl, fun {s'} h =>
    ⟨s'.draft.pushChild label (n.shift E.shift), rfl, h.draft.pushChild label n⟩⟩⟩

theorem settles_finish {d : Draft} : Settles E pre (Node.shift E.shift) (Parse.finish d)
    (Parse.finish (d.shift E.shift)) :=
  ⟨fun _ _ s => ⟨d.finish s.consumedEnd, s.draft, rfl, fun {s'} h => ⟨s'.draft, by
    rw [← Draft.finish_shift, ← h.consumedEnd]
    rfl, h.draft⟩⟩⟩

theorem settles_bind {K : α → Parse β} {K' : α' → Parse β'} (first : Settles E pre φ m m')
    (rest : ∀ r, Settles E pre ψ (K r) (K' (φ r))) : Settles E pre ψ (m >>= K) (m' >>= K') := by
  refine ⟨fun σ σ' s => ?_⟩
  obtain ⟨x, d, hm, hfirst⟩ := first.settle σ σ' s
  obtain ⟨r, e, hK, hrest⟩ := (rest x).settle σ σ' (s.withDraft d)
  refine ⟨r, e, bind_eq_some.2 ⟨x, _, hm, hK⟩, fun heven => ?_⟩
  obtain ⟨d', hm', hd⟩ := hfirst heven
  obtain ⟨e', hK', he⟩ := hrest (heven.withDraft hd)
  exact ⟨e', bind_eq_some.2 ⟨_, _, hm', hK'⟩, he⟩

/-- A node that is built of what was read. -/
theorem settles_node {kind : Kind} {body body' : Parse Unit} (inside : Settles E [] id body body') :
    Settles E pre (Node.shift E.shift) (Parse.node kind body) (Parse.node kind body') := by
  have hcollect : Settles E pre (Draft.shift E.shift) (Parse.collect (.ofKind kind) body)
      (Parse.collect ((Draft.ofKind kind).shift E.shift) body') := by
    refine ⟨fun σ σ' s => ?_⟩
    obtain ⟨r, d, hbody, hsettle⟩ := inside.settle σ σ' (s.withDraft (.ofKind kind))
    refine ⟨d, s.draft, collect_eq_some.2 ⟨_, hbody, rfl, rfl⟩, fun {s'} heven => ⟨s'.draft, ?_, heven.draft⟩⟩
    obtain ⟨d', hbody', hd⟩ := hsettle (heven.withDraft (.of_shift _))
    exact collect_eq_some.2 ⟨_, hbody', hd.eq_shift, rfl⟩
  rw [Draft.shift_ofKind] at hcollect
  exact settles_bind hcollect fun _ => settles_finish

/-- A program that closes, and what is done with what it read. -/
theorem settling {K : α → Parse β} {K' : α' → Parse β'} (first : Closes closes E pre a φ m m')
    (rest : ∀ r, Settles E pre ψ (K r) (K' (φ r))) :
    Closes closes E pre a ψ (m >>= K) (m' >>= K') := by
  refine ⟨fun {σ σ' s t r} hσ ha h he => ?_⟩
  obtain ⟨x, u, hm, hK⟩ := bind_eq_some.1 h
  obtain ⟨y, d, hK₁, hsettle⟩ := (rest x).settle σ σ' u
  obtain ⟨rfl, rfl⟩ := Prod.mk.inj (Option.some.inj (hK₁.symm.trans hK))
  obtain ⟨hs, hgo⟩ := first.follow hσ ha hm (Session.stops_withDraft.1 he)
  refine ⟨hs, fun halike => ?_⟩
  obtain ⟨u', hm', hmeets⟩ := hgo halike
  obtain ⟨d', hK', hd⟩ := hsettle (hmeets _ le_rfl).even
  exact ⟨_, bind_eq_some.2 ⟨_, u', hm', hK'⟩, fun before hbefore => (hmeets _ hbefore).withDraft hd⟩

theorem closing_collect {d : Draft} {body body' : Parse Unit}
    (inside : Closes closes E [] a id body body') :
    Closes closes E pre a (Draft.shift E.shift) (Parse.collect d body)
      (Parse.collect (d.shift E.shift) body') := by
  refine ⟨fun {σ σ' s t r} hσ ha h he => ?_⟩
  obtain ⟨u, hbody, rfl, rfl⟩ := collect_eq_some.1 h
  obtain ⟨hs, hgo⟩ := inside.follow (s := s.withDraft d) hσ ha hbody (Session.stops_withDraft.1 he)
  refine ⟨hs, fun {s'} halike => ?_⟩
  obtain ⟨u', hbody', hmeets⟩ := hgo (halike.withDraft (.of_shift d))
  refine ⟨u'.withDraft s'.draft, ?_, fun before hbefore => (hmeets _ hbefore).withDraft halike.draft⟩
  exact collect_eq_some.2 ⟨u', hbody', (hmeets _ le_rfl).even.draft.eq_shift, rfl⟩

theorem closing_node {kind : Kind} {body body' : Parse Unit}
    (inside : Closes closes E [] a id body body') :
    Closes closes E pre a (Node.shift E.shift) (Parse.node kind body) (Parse.node kind body') := by
  have hcollect : Closes closes E pre a (Draft.shift E.shift) (Parse.collect (.ofKind kind) body)
      (Parse.collect ((Draft.ofKind kind).shift E.shift) body') := closing_collect inside
  rw [Draft.shift_ofKind] at hcollect
  exact .settling hcollect fun _ => settles_finish

theorem closing_resume {d : Draft} {body body' : Parse Unit}
    (inside : Closes closes E [] a id body body') :
    Closes closes E pre a (Node.shift E.shift) (Parse.resume d body)
      (Parse.resume (d.shift E.shift) body') :=
  .settling (closing_collect inside) fun _ => settles_finish

theorem closing_field {label : Field} {body body' : Parse Node}
    (inside : Closes closes E pre a (Node.shift E.shift) body body') :
    Closes closes E pre a id (Parse.field label body) (Parse.field label body') :=
  .settling inside fun _ => settles_pushChild

theorem closing_child {body body' : Parse Node}
    (inside : Closes closes E pre a (Node.shift E.shift) body body') :
    Closes closes E pre a id (Parse.child body) (Parse.child body') :=
  .settling inside fun _ => settles_pushChild

/-! ### Marks -/

theorem closing_take {c : Kind} (hc : c.isEnd = true) {as? : Option Kind} :
    Closes closes E pre (some c) (Option.map (Node.shift E.shift)) (Parse.take as?)
      (Parse.take as?) := by
  cases closes with
  | false => exact .takeUsual
  | true =>
    refine ⟨fun {σ σ' s t r} hσ ha h he => ?_⟩
    have hend : s.kind.isEnd = true := (ha c rfl).symm ▸ hc
    have hne : s.kind ≠ .endOfFile := by
      intro heof
      rw [heof] at hend
      exact nomatch hend
    rw [take_run, if_neg hne] at h
    obtain ⟨rfl, rfl⟩ := Prod.mk.inj (Option.some.inj h)
    obtain ⟨hreport, hfaults⟩ := Session.faultless_of_taken he.1
    refine ⟨.inr ⟨hreport, .ends hend⟩, fun {s'} halike => ⟨s'.taken σ' .usual, ?_, fun before hbefore => ?_⟩⟩
    · rw [take_run, if_neg (by rwa [halike.kind]), halike.placed.token.ofToken]
      rfl
    · have hsound := halike.sound.scanner
      have hstart : s.offset = s.scanner.start.offset := congrArg Range.start hsound.range
      refine ⟨halike.taken_even hσ ⟨rfl, rfl⟩ (.inr hfaults), s.scanner.here, hsound.here, ?_, ?_, ?_⟩
      · have hlt := hsound.lt hne
        omega
      · exact Scanner.scan_eq .usual s.scanner
      · rw [← halike.placed.here]
        exact Scanner.scan_eq .usual s'.scanner

theorem closing_consume {c : Kind} (hc : c.isEnd = true) :
    Closes closes E pre (some c) id Parse.consume Parse.consume :=
  .settling (closing_take hc) fun r => by
    cases r with
    | some n => exact settles_pushChild
    | none => exact settles_pure ()

/-! ### Complaints -/

/-- A program that always complains closes nothing. -/
theorem closing_error (h : Tracks E pre a φ m m') (herror : Complains m) :
    Closes closes E pre a φ m m' := by
  cases closes with
  | false => exact h
  | true =>
    refine ⟨fun {σ σ' s t r} hσ ha h he => ?_⟩
    rcases herror σ s t r h with hreport | hfaults
    exacts [absurd he.1 hreport, absurd he.2.1 hfaults]

/-! ### Marks that are expected -/

theorem closing_expect {c : Kind} (hc : c.isEnd = true) :
    Closes closes E pre a id (Parse.expect c) (Parse.expect c) :=
  .isAt (closing_consume hc) <| closing_error (.bind .reportHere fun _ => .pushMissing) <|
    .settling .reportHere fun _ => .pushMissing

theorem closing_guarded {body body' : Parse Node}
    (inside : Closes closes E pre a (Node.shift E.shift) body body') :
    Closes closes E pre a (Node.shift E.shift) (Parse.guarded body) (Parse.guarded body') := by
  refine .ask fun hσ => ?_
  rw [hσ.depth, hσ.options]
  split
  · refine within (fun h => ?_) inside
    exact ⟨h.file, h.options, by rw [h.depth], h.restriction, h.remembers, h.unwatched, h.source,
      h.source'⟩
  · exact closing_error .skipNested .skipNested

/-- A `}` that closes a `{` that was skipped closes what it stands in. -/
theorem closing_absorbBrace {B B' : Parse Unit} (hB : Tracks E pre a id B B') (herror : Complains B) :
    Closes closes E pre a id (Parse.absorbBrace >>= fun b => if b = true then Pure.pure () else B)
      (Parse.absorbBrace >>= fun b => if b = true then Pure.pure () else B') := by
  let taking (offset : Nat) : Parse Unit := do
    modify fun s => { s with openBraces := s.openBraces - 1 }
    Parse.note (.absorbedBrace offset)
    Parse.consume
  let absorbing (B : Parse Unit) (offset : Session → Nat) (s : Session) : Parse Unit :=
    if (s.openBraces > 0 && s.isAt .closeBrace) = true then taking (offset s) else B
  have hrun (B : Parse Unit) : (Parse.absorbBrace >>= fun b => if b = true then Pure.pure () else B) =
      get >>= absorbing B (·.offset) := by
    unfold Parse.absorbBrace
    rw [bind_assoc]
    refine congrArg (get >>= ·) (funext fun s => ?_)
    show (if _ then _ else _ : Parse Bool) >>= _ = if _ then _ else _
    split
    · simp only [taking, bind_assoc, pure_bind, if_true, bind_pure_unit]
    · rfl
  rw [hrun B, hrun B']
  refine .look (absorbing B' (·.offset + E.shift)) (fun s hs => ?_) fun {s s'} _ _ halike => ?_
  · by_cases hopen : (s.openBraces > 0 && s.isAt .closeBrace) = true
    · show Follows E pre _ _ _ _ (if _ then _ else _) (if _ then _ else _)
      rw [if_pos hopen, if_pos hopen]
      have hkind : s.kind = .closeBrace := eq_of_beq (Bool.and_eq_true_iff.1 hopen).2
      refine .bindAt (b := some .closeBrace) .closeBrace (fun {σ s t r} hk h c hc => ?_) fun _ =>
        .bindAt (b := some .closeBrace) .note (fun {σ s t r} hk h c hc => ?_) fun _ => closing_consume rfl
      · obtain ⟨-, rfl⟩ := Prod.mk.inj (Option.some.inj h)
        exact (hk _ rfl).trans (hkind.trans (Option.some.inj hc))
      · obtain ⟨-, rfl⟩ := Prod.mk.inj (Option.some.inj h)
        exact hk c hc
    · show Follows E pre _ _ _ _ (if _ then _ else _) (if _ then _ else _)
      rw [if_neg hopen, if_neg hopen]
      exact closing_error (.known hs hB) herror
  · show (if _ then _ else _ : Parse Unit) = if _ then _ else _
    simp only [halike.openBraces, halike.isAt, halike.offset]

theorem closing_close {range : Range} : Closes closes E pre a id (Parse.close .openBrace range)
    (Parse.close .openBrace (range.shift E.shift)) := by
  refine .isAt (closing_consume rfl) <| closing_error (.bind .reportUnclosed fun _ => .pushMissing) ?_
  exact .settling (.bind fun _ => .choose .reportAt .reportHere) fun _ => .pushMissing

theorem closing_missingGroup {opener closer : Kind} : Closes closes E pre a id
    (Parse.missingGroup opener closer) (Parse.missingGroup opener closer) :=
  closing_error .missingGroup <| .settling .reportHere fun _ => fun _ _ => ⟨(), _, rfl⟩

/-! ### Choices that tell the token -/

/-- A change of the open draft keeps the token. -/
theorem kind_of_modifyDraft {f : Draft → Draft} {σ : Setting} {s t : Session} {r : Unit}
    (ha : ∀ c, a = some c → s.kind = c) (h : Parse.modifyDraft f σ s = some (r, t)) :
    ∀ c, a = some c → t.kind = c := by
  obtain ⟨-, rfl⟩ := Prod.mk.inj (Option.some.inj h)
  exact ha

theorem chooseThat {c : Bool} {A B : Parse α} {A' B' : Parse α'} {Ends : α → Session → Prop}
    {Meets : Nat → Session → Session → Prop} (yes : c = true → Follows E pre a φ Ends Meets A A')
    (no : c = false → Follows E pre a φ Ends Meets B B') :
    Follows E pre a φ Ends Meets (if c = true then A else B) (if c = true then A' else B') := by
  cases c
  exacts [no rfl, yes rfl]

/-! ### What a block may be followed by -/

/-- A choice behind what closes. At the end of the text nothing goes on with it, and in the whole
what stands there does not either. -/
theorem closing_past {P : α → Prop} {p : Kind → Bool} {Ends : β → Session → Prop}
    {A : α → Parse β} {A' : α' → Parse β'} {B : α → Kind → Parse β} {B' : α' → Kind → Parse β'}
    (hE : E.EndsBlocks) (hp : ∀ c, p c = true → c.continuesBlock = true)
    (hstops : ∀ {r t}, Ends r t → t.Stops true E) (tracks : Tracks E pre a φ m m')
    (closes : Follows E pre a φ (fun r t => P r ∧ t.Stops true E) (Session.Meets true E pre) m m')
    (yes : ∀ r c, p c = true →
      Follows E pre (some c) ψ Ends (Session.Meets true E pre) (A r) (A' (φ r)))
    (no : ∀ r c, p c = false → ¬ P r →
      Follows E pre (some c) ψ Ends (Session.Meets true E pre) (B r c) (B' (φ r) c))
    (settles : ∀ r c c', P r → Settles E pre ψ (B r c) (B' (φ r) c')) :
    Follows E pre a ψ Ends (Session.Meets true E pre)
      (m >>= fun r => Parse.kind >>= fun c => if p c = true then A r else B r c)
      (m' >>= fun r => Parse.kind >>= fun c => if p c = true then A' r else B' r c) := by
  refine ⟨fun {σ σ' s t r} hσ ha h he => ?_⟩
  obtain ⟨x, u, hm, hrest⟩ := bind_eq_some.1 h
  have hchoice (h : p u.kind = true ∨ ¬ P x) : Follows E pre (some u.kind) ψ Ends
      (Session.Meets true E pre) (Parse.kind >>= fun c => if p c = true then A x else B x c)
      (Parse.kind >>= fun c => if p c = true then A' (φ x) else B' (φ x) c) :=
    .kind fun c hc => .chooseThat (yes x c) fun hno => no x c hno <| h.resolve_left <| by
      rw [← hc _ rfl, hno]
      exact Bool.false_ne_true
  by_cases hx : P x
  · cases hpu : p u.kind with
    | true => exact tracks.before (hchoice (.inl hpu)) hσ ha hm (fun _ => Option.some.inj) hrest he
    | false =>
      have hB : B x u.kind σ u = some (r, t) := by
        have h : (if p u.kind = true then A x else B x u.kind) σ u = some (r, t) := hrest
        rwa [hpu] at h
      obtain ⟨y, d, hrun, -⟩ := (settles x u.kind u.kind hx).settle σ σ' u
      obtain ⟨rfl, rfl⟩ := Prod.mk.inj (Option.some.inj (hrun.symm.trans hB))
      have hstopped : u.Stops true E := Session.stops_withDraft.1 (hstops he)
      obtain ⟨hs, hclose⟩ := closes.follow hσ ha hm ⟨hx, hstopped⟩
      refine ⟨hs, fun halike => ?_⟩
      obtain ⟨u', hm', hmeets⟩ := hclose halike
      -- the token behind the mark goes on with nothing
      have hplain : p u'.kind = false := by
        obtain ⟨place, hplace, -, hscanner, hscanner'⟩ := (hmeets _ le_rfl).behind
        have hcontinues := hE place hplace (hscanner ▸ hstopped.2.2)
        refine Bool.eq_false_iff.2 fun hu => ?_
        rw [← hscanner'] at hcontinues
        exact absurd (hp _ hu) (Bool.eq_false_iff.1 hcontinues)
      obtain ⟨y', d', hrun', hsettle⟩ := (settles x u.kind u'.kind hx).settle σ σ' u
      obtain ⟨rfl, hd⟩ := Prod.mk.inj (Option.some.inj (hrun'.symm.trans hB))
      obtain ⟨e, hB', he⟩ := hsettle (hmeets _ le_rfl).even
      refine ⟨u'.withDraft e, bind_eq_some.2 ⟨_, u', hm', ?_⟩, fun before hbefore => ?_⟩
      · show (if p u'.kind = true then A' (φ x) else B' (φ x) u'.kind) σ' u' = _
        rw [hplain]
        exact hB'
      · rw [← hd]
        exact (hmeets _ hbefore).withDraft he
  · exact tracks.before (hchoice (.inr hx)) hσ ha hm (fun _ => Option.some.inj) hrest he

/-! ### Lists -/

section Lists

variable {form : ListForm} {element element' : Parse Unit}

/-- A list that is closed by the mark that ends an item. -/
theorem closing_listRest (hcloser : form.closer.isEnd = true)
    (helement : ∀ {a}, Tracks E pre a id element element') :
    Follows E pre a id (fun closed t => closed = true ∧ t.Stops true E) (Session.Meets true E pre)
      (Parse.listRest form element) (Parse.listRest form element') := by
  refine .loopTo id (fun _ => .listTurn helement) fun _ => .bind .flush fun _ => .kind fun c _ => ?_
  by_cases hc : c = form.closer
  · rw [if_pos (beq_iff_eq.2 hc), if_pos (beq_iff_eq.2 hc)]
    have hconsume : Closes true E pre (some c) id Parse.consume Parse.consume :=
      closing_consume (hc ▸ hcloser)
    have hclosed : Closes true E pre (some c) (mapStep id id)
        (Parse.consume >>= fun _ => Pure.pure (Step.done true : Step Unit Bool))
        (Parse.consume >>= fun _ => Pure.pure (Step.done true : Step Unit Bool)) :=
      .settling hconsume fun _ => settles_pure (Step.done true)
    exact hclosed.ending fun ⟨_, _, _, hstops⟩ => hstops
  · rw [if_neg (mt beq_iff_eq.1 hc), if_neg (mt beq_iff_eq.1 hc)]
    -- without its closer a list is not closed
    refine .never fun {σ s r t} h ⟨closed, hr, hclosed, _⟩ => ?_
    subst hr hclosed
    split at h
    · exact nomatch (pure_eq_some.1 h).1
    · obtain ⟨goes, _, -, h⟩ := bind_eq_some.1 h
      cases goes <;> exact nomatch (pure_eq_some.1 h).1

theorem closing_list (hcloser : form.closer.isEnd = true)
    (helement : ∀ {a}, Tracks E [] a id element element') :
    Closes closes E [] a id (Parse.list form element) (Parse.list form element') := by
  cases closes with
  | false => exact .list helement
  | true =>
    refine .isAt (.bind .tokenRange fun range => .bind .consume fun _ => ?_) closing_missingGroup
    refine ⟨fun {σ σ' s t r} hσ ha h he => ?_⟩
    obtain ⟨closed, u, hrest, h⟩ := bind_eq_some.1 h
    cases closed with
    | true =>
      obtain ⟨-, rfl⟩ := pure_eq_some.1 h
      obtain ⟨hs, hgo⟩ := (closing_listRest hcloser helement).follow hσ ha hrest ⟨rfl, he⟩
      refine ⟨hs, fun halike => ?_⟩
      obtain ⟨t', hrest', ht⟩ := hgo halike
      exact ⟨t', bind_eq_some.2 ⟨true, t', hrest', rfl⟩, ht⟩
    | false =>
      obtain ⟨_, _, -, h⟩ := bind_eq_some.1 h
      have hcomplains : Complains (do
          Parse.reportAt range .unclosed [form.opener.name]
          Parse.failDraft) :=
        .settling .reportAt fun _ => .modifyDraft
      rcases hcomplains _ _ _ _ h with hreport | hfaults
      exacts [absurd he.1 hreport, absurd he.2.1 hfaults]

end Lists

/-- A loop whose last turn closes. -/
theorem closing_repeatWhile {turn turn' : Parse Bool} (hturn : ∀ {a}, Tracks E pre a id turn turn')
    (hlast : ∀ {a}, Follows E pre a id (fun again t => again = false ∧ t.Stops closes E)
      (Session.Meets closes E pre) turn turn') :
    Closes closes E pre a id (Parse.repeatWhile turn) (Parse.repeatWhile turn') := by
  refine .loopTo id (fun _ => .bind hturn fun b => by cases b <;> exact .pure _) fun _ => ?_
  refine ⟨fun {σ σ' s t r} hσ ha h he => ?_⟩
  obtain ⟨_, hr, hstops⟩ := he
  obtain ⟨again, u, hrun, h⟩ := bind_eq_some.1 h
  cases again with
  | true =>
    rw [hr] at h
    exact nomatch (pure_eq_some.1 h).1
  | false =>
    obtain ⟨rfl, rfl⟩ := pure_eq_some.1 h
    obtain ⟨hs, hgo⟩ := hlast.follow hσ ha hrun ⟨rfl, hstops⟩
    refine ⟨hs, fun halike => ?_⟩
    obtain ⟨t', hrun', ht⟩ := hgo halike
    exact ⟨t', bind_eq_some.2 ⟨false, t', hrun', rfl⟩, ht⟩

theorem closing_treeCloser {opener closer : Kind} (hcloser : closer.isEnd = true) {range : Range} :
    Closes closes E pre a id (Grammar.treeCloser opener closer range)
      (Grammar.treeCloser opener closer (range.shift E.shift)) := by
  refine .kind fun c _ => ?_
  by_cases hc : c = closer
  · rw [if_pos (beq_iff_eq.2 hc), if_pos (beq_iff_eq.2 hc)]
    have hconsume : Closes closes E pre (some c) id Parse.consume Parse.consume :=
      closing_consume (hc ▸ hcloser)
    exact .settling hconsume fun _ => settles_pure true
  · rw [if_neg (mt beq_iff_eq.1 hc), if_neg (mt beq_iff_eq.1 hc)]
    refine closing_error (.bind .reportInPlace fun _ => .bind .pushMissing fun _ => .pure _) ?_
    exact .settling (.choose .reportAt .reportHere) fun _ _ _ => ⟨false, _, rfl⟩

end Follows

end Parse

open Parse

/-- What expressions that end with a block, and so their statements, begin with. -/
def Kind.startsBlockLike : Kind → Bool
  | .openBrace | .ifKw | .matchKw | .whileKw | .loopKw | .forKw => true
  | .quote | .unsafeKw | .constKw | .asyncKw => true
  | _ => false

theorem Session.startsBlockLike_of_isAtBlockLike {s : Session} (h : s.isAtBlockLike = true) :
    s.kind.startsBlockLike = true := by
  unfold isAtBlockLike at h
  split at h
  case h_11 => exact absurd h Bool.false_ne_true
  all_goals next hk => rw [hk]; rfl

/-- A grammar for the whole whose nonterminals track those of one for the text, blocks and lists of
items up to behind their brace, and what may go on behind it if nothing there does. -/
structure Grammar.Closes (closes : Bool) (E : Excerpt) (g g' : Grammar) : Prop where
  tracks : g.Tracks E g'
  block {pre : List Child} {a : Option Kind} :
    Parse.Closes closes E pre a (Node.shift E.shift) (g.parse .block) (g'.parse .block)
  declarationList {pre : List Child} {a : Option Kind} : Parse.Closes closes E pre a
    (Node.shift E.shift) (g.parse .declarationList) (g'.parse .declarationList)
  elseIf {pre : List Child} {a : Option Kind} (hE : E.EndsBlocks) :
    Parse.Closes closes E pre a (Node.shift E.shift) (g.parse .elseIf) (g'.parse .elseIf)
  blockLike {pre : List Child} {c : Kind} (hE : E.EndsBlocks) (hc : c.startsBlockLike = true) :
    Parse.Closes closes E pre (some c) (Node.shift E.shift) (g.parse .blockLike) (g'.parse .blockLike)

theorem Grammar.Tracks.closes {E : Excerpt} {g g' : Grammar} (h : g.Tracks E g') :
    g.Closes false E g' :=
  ⟨h, h, h, fun _ => h, fun _ _ => h⟩

end ConcreteSyntax
