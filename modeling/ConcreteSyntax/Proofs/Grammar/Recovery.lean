import ConcreteSyntax.Proofs.Reading.Rules

/-! # Recovery is orderly

Skipping, closing and lists. A list moves on with every entry: an element that takes nothing is
followed by recovery, and recovery skips a token where neither the closer nor an end stands
(`listEntry_lt`). -/

namespace ConcreteSyntax

open Parse

/-- A token that skipping begins with: no closer, and not the end. -/
def Kind.isSkipped (c : Kind) : Bool := !(c.isClose || c == .endOfFile)

/-- A mark that the grammar may make of another one. -/
def Kind.isReshaped (c : Kind) : Bool := [Kind.amp, .lt, .pipe, .gtEq, .shr, .shrEq].contains c

theorem Kind.isReshaped_of_mem {c c' : Kind} (h : c' ∈ c.reshapes) : c'.isReshaped = true := by
  have hall : ∀ c' ∈ c.reshapes, c'.isReshaped = true := by
    unfold Kind.reshapes
    split <;> decide +revert
  exact hall c' h

/-- A token that stays in its place stays what it is, unless a mark is made of it. -/
theorem Session.Onward.kind_ne {text : List Char} {s s' : Session} (h : s.Onward text s')
    (heq : s'.offset = s.offset) {c : Kind} (hc : c.isReshaped = false) (hs : s.kind ≠ c) :
    s'.kind ≠ c := by
  rintro rfl
  rcases h.steady heq with hk | hk
  · exact hs hk.symm
  · exact nomatch (Kind.isReshaped_of_mem hk).symm.trans hc

/-- The delimiters of a list may be missing, and no mark that the grammar makes of another one closes
or ends the list. -/
structure Parse.ListForm.Steady (form : ListForm) : Prop where
  opener : form.opener.isStandIn = true
  closer : form.closer.isReshaped = false
  closes : form.closer.isStandIn = true
  ends : ∀ c ∈ form.ends, c.isReshaped = false

theorem Kind.ne_endOfFile_of_isStandIn {c : Kind} (h : c.isStandIn = true) : c ≠ .endOfFile := by
  rintro rfl
  exact nomatch h

theorem Parse.ListForm.Steady.not_reshaped {form : ListForm} (hf : form.Steady) {c : Kind}
    (hc : c.isReshaped = true) : c ≠ form.closer ∧ form.breaksAt c = false := by
  refine ⟨?_, ?_⟩
  · rintro rfl
    exact nomatch hc.symm.trans hf.closer
  · refine Bool.or_eq_false_iff.2 ⟨beq_eq_false_iff_ne.2 ?_, Bool.eq_false_iff.2 fun hends => ?_⟩
    · rintro rfl
      exact nomatch hc
    · exact nomatch hc.symm.trans (hf.ends c (List.contains_iff_mem.1 hends))

namespace Orderly

variable {text : List Char} {g : Grammar} {k : Nat} {f : Bool} {h : Hand} {a : Option Kind}
  {m o : Bool} {F : Standing}

/-! ### Groups and nesting -/

/-- One token is skipped, unless the text ends. -/
theorem skipNext {c : Option Kind} {nesting : Nat} {again : Nat → Stage} {done : Unit → Stage}
    (hagain : ∀ n, again n = ⟨.empty, none, false, true, F⟩)
    (hdone : Stage.Serves ⟨.empty, none, true, true, F⟩ (done ()))
    (hend : c = none ∨ c = some .endOfFile →
      Stage.Serves ⟨.empty, some .endOfFile, false, true, F⟩ (done ())) :
    Orderly text g k f ⟨.empty, c, false, true, F⟩ (Parse.skipNext nesting)
      (afterTurn again done) := by
  refine .kind fun c' hc' => ?_
  split
  · next he =>
    obtain rfl := eq_of_beq he
    refine .pure (hend ?_)
    cases c with
    | none => exact .inl rfl
    | some c => exact .inr (congrArg some (hc' c rfl).symm)
  · next he =>
    refine .bind (.consumeAt (by simpa using he)) fun _ => ?_
    -- how many groups are open plays no part
    suffices hturn : ∀ n : Nat, Orderly text g k f ⟨.empty, none, true, true, F⟩
        (Pure.pure (if n == 0 then .done () else .again n)) (afterTurn again done) from hturn _
    intro n
    split
    · exact .pure hdone
    · refine .pure ?_
      rw [afterTurn, hagain]
      exact .refl _

theorem skipGroup :
    Orderly text g k f ⟨.empty, a, m, true, F⟩ Parse.skipGroup
      fun n => ⟨.node n, none, m, true, F⟩ := by
  refine .errorNode <| .kind fun c _ => ?_
  split
  · exact .pure .forget
  · exact .turns (fun _ => .empty) (R := fun _ => .empty) fun _ =>
      .skipNext (fun _ => rfl) .halt fun _ => .forget

/-- Where no closer and no end stands, a token is skipped. -/
theorem skipGroupAt {c : Kind} (hc : c.isSkipped = true) :
    Orderly text g k f ⟨.empty, some c, m, true, F⟩ Parse.skipGroup
      fun n => ⟨.node n, none, true, true, F⟩ := by
  refine .errorNode <| .kind fun c' hc' => ?_
  obtain rfl := hc' c rfl
  rw [if_neg (by simpa [Kind.isSkipped] using hc)]
  refine .unmoved <| .loop (fun _ => ⟨.empty, none, false, true, .failed⟩) rfl (fun _ => rfl)
    (.skipNext (fun _ => rfl) (.refl _) fun h => ?_) fun _ =>
      .skipNext (fun _ => rfl) .halt fun _ => .forget
  rcases h with h | h
  · exact nomatch h
  · exact absurd hc (by rw [Option.some.inj h]; decide)

/-- A part that is read a level deeper. -/
theorem deeper {body : Parse Node}
    (hp : Orderly text g k f ⟨.empty, a, m, o, F⟩ body fun n => ⟨.node n, none, m, o, F⟩) :
    Orderly text g k f ⟨.empty, a, m, o, F⟩ (Parse.guarded body)
      fun n => ⟨.node n, none, m, o, F⟩ :=
  .guarded trivial hp (.forgive .skipGroup)

/-- A part that takes the current token, read a level deeper. -/
theorem deeperAt {c : Kind} {body : Parse Node} (hc : c.isSkipped = true)
    (hp : Orderly text g k f ⟨.empty, some c, m, o, F⟩ body
      fun n => ⟨.node n, none, true, o, F⟩) :
    Orderly text g k f ⟨.empty, some c, m, o, F⟩ (Parse.guarded body)
      fun n => ⟨.node n, none, true, o, F⟩ :=
  .guarded trivial hp (.forgive (.skipGroupAt hc))

/-! ### Braces that were skipped -/

theorem countBrace {c : Kind} :
    Orderly text g k f ⟨h, a, m, o, F⟩ (Parse.countBrace c) fun _ => ⟨h, a, m, o, F⟩ := by
  unfold Parse.countBrace
  split
  · exact .beside (aside_openBraces (· + 1))
  · exact .pure (.refl _)

theorem absorbBrace :
    Orderly text g k f ⟨.empty, a, m, o, F⟩ Parse.absorbBrace
      fun b => ⟨.empty, if b then none else a, b, o, F⟩ := by
  refine .look (fun _ _ => rfl) fun s ha => ?_
  split
  · next hs =>
    have hk : s.kind ≠ .endOfFile := by
      rw [eq_of_beq (Bool.and_eq_true_iff.1 hs).2]
      nofun
    exact .bind (.beside (aside_openBraces (· - 1))) fun _ => .bind (.beside (aside_note _)) fun _ =>
      .bind (.consumeAt hk) fun _ => .pure (.refl _)
  · refine .pure (.less ?_ nofun id (.same _))
    cases a with
    | none => exact .inl rfl
    | some c => exact .inr (congrArg some (ha c rfl))

/-! ### Up to a terminator -/

theorem skipUntil {terminator : Kind} :
    Orderly text g k f ⟨.empty, none, false, o, F⟩ (Parse.skipUntil terminator)
      fun b => ⟨.empty, none, b, o, F⟩ := by
  refine .kind fun c _ => ?_
  split
  · exact .pure .forget
  · next hc =>
    have hk : c ≠ .endOfFile := by
      rintro rfl
      exact hc rfl
    exact .bind .countBrace fun _ => .bind (.consumeAt hk) fun _ =>
      .pure (.less (.inl rfl) (fun _ => rfl) id (.same _))

theorem skipUntilAt {c terminator : Kind} (hc : c ≠ .endOfFile) (hb : c ≠ .closeBrace) :
    Orderly text g k f ⟨.empty, some c, m, o, F⟩ (Parse.skipUntil terminator)
      fun _ => ⟨.empty, none, true, o, F⟩ := by
  refine .kind fun c' hc' => ?_
  obtain rfl := hc' c rfl
  rw [if_neg (by simp [hc, hb])]
  exact .bind .countBrace fun _ => .bind (.consumeAt hc) fun _ => .pure .forget

theorem recoverUntil {terminator : Kind} :
    Orderly text g k f ⟨.empty, a, m, o, F⟩ (Parse.recoverUntil terminator)
      fun _ => ⟨.empty, none, m, o, F⟩ :=
  .bind (.beside aside_offset) fun _ => .bind (.beside (aside_note _)) fun _ =>
    .forgive <| .bind (.report aside_reportUnexpected) fun _ => .bind .flush fun _ =>
    .child <| .errorNode <| .repeatWhile .skipUntil

/-- A token is skipped, unless it is a `}`. -/
theorem recoverUntilAt {c terminator : Kind} (hc : c ≠ .endOfFile) (hb : c ≠ .closeBrace) :
    Orderly text g k f ⟨.empty, some c, m, o, F⟩ (Parse.recoverUntil terminator)
      fun _ => ⟨.empty, none, true, o, F⟩ :=
  .bind (.beside aside_offset) fun _ => .bind (.beside (aside_note _)) fun _ =>
    .forgive <| .bind (.report aside_reportUnexpected) fun _ => .bind .flush fun _ =>
    .child <| .errorNode <| .repeatWhileAt (.skipUntilAt hc hb) .skipUntil

/-! ### Delimiters -/

theorem aside_reportUnclosed {opener closer : Kind} {range : Range} :
    (reportUnclosed opener closer range).Aside true :=
  .bind (aside_isAt _) fun atEnd => by
    cases atEnd
    · exact aside_errorHere (by decide) rfl _
    · exact aside_errorAt (by decide) rfl _ _

/-- Whatever closes a group may be missing. -/
theorem isStandIn_closer (opener : Kind) : (opener.closer?.getD .closeParen).isStandIn = true := by
  unfold Kind.closer?
  split
  all_goals rfl

theorem close {opener : Kind} {range : Range} :
    Orderly text g k f ⟨.empty, a, m, o, F⟩ (Parse.close opener range)
      fun _ => ⟨.empty, none, m, o, F⟩ :=
  .isAt .consume <| .forget <| .forgive <| .bind (.report aside_reportUnclosed) fun _ =>
    .pushMissing (isStandIn_closer opener)

theorem missingGroup {opener closer : Kind} (ho : opener.isStandIn = true)
    (hc : closer.isStandIn = true) :
    Orderly text g k f ⟨.empty, a, m, o, F⟩ (Parse.missingGroup opener closer)
      fun _ => ⟨.empty, none, m, o, F⟩ :=
  .forget <| .forgive <| .bind (.report (aside_errorHere (by decide) rfl _)) fun _ =>
    .bind (.pushMissing ho) fun _ => .pushMissing hc

/-! ### Lists -/

section Lists

variable {form : ListForm} {element : Parse Unit}

theorem missingComma :
    Orderly text g k f ⟨.empty, a, m, o, F⟩ Parse.missingComma fun _ => ⟨.empty, none, m, o, F⟩ :=
  .forget <| .forgive <| .bind (.report (aside_errorHere (by decide) rfl _)) fun _ =>
    .pushMissing rfl

theorem afterElement {before : Nat} :
    Orderly text g k f ⟨.empty, a, m, o, F⟩ (Parse.afterElement form before)
      fun _ => ⟨.empty, none, m, o, F⟩ := by
  refine .look (fun _ _ => rfl) fun s _ => ?_
  split
  · exact .bind .consume fun _ => .pure .forget
  · split
    · exact .pure .forget
    · split
      · exact .pure .forget
      · exact .bind (.provided .missingComma) fun _ => .pure .forget

theorem listElement
    (he : Orderly text g k f ⟨.empty, none, false, o, F⟩ element
      fun _ => ⟨.empty, none, false, o, F⟩) :
    Orderly text g k f ⟨.empty, a, m, o, F⟩ (Parse.listElement form element)
      fun _ => ⟨.empty, none, false, o, F⟩ :=
  .bind (.beside aside_offset) fun _ => .bind (.unmoved he.anywhere) fun _ => .afterElement

theorem skipInList :
    Orderly text g k f ⟨.empty, none, false, o, F⟩ (Parse.skipInList form)
      fun b => ⟨.empty, none, b, o, F⟩ := by
  refine .look (fun _ _ => rfl) fun s _ => ?_
  split
  · exact .pure .forget
  · next hs =>
    split
    · exact .pure .forget
    · have hk : s.kind ≠ .endOfFile := by
        intro hk
        exact hs (by simp [ListForm.breaksAt, hk])
      exact .bind .countBrace fun _ => .bind (.consumeAt hk) fun _ => .pure .forget

theorem placeSkipped {skipped : Draft} :
    Orderly text g k f ⟨.draft skipped .failed, a, m, true, .proper⟩
      (Parse.placeSkipped form skipped) fun _ => ⟨.empty, none, false, true, .proper⟩ := by
  unfold Parse.placeSkipped
  split
  · next hj => exact .pure ⟨.nothing skipped hj, .inl rfl, nofun, id, .same _⟩
  · refine .kind fun c _ => ?_
    split
    · have hfair : Stage.Serves ⟨.draft skipped .failed, some c, m, true, .proper⟩
          ⟨.draft skipped .fair, some c, m, true, .proper⟩ :=
        ⟨.explained skipped (.owed rfl), .inr rfl, id, id, .same _⟩
      exact .bind (.before hfair (.finish nofun)) fun _ => .bind .push fun _ => .pure .halt
    · exact .bind .pushAll fun _ => .pure .halt

theorem recoverInList :
    Orderly text g k f ⟨.empty, a, m, o, .proper⟩ (Parse.recoverInList form)
      fun _ => ⟨.empty, none, false, o, .proper⟩ :=
  have hbegins : Standing.failed.Begins .error := .inr rfl
  .bind (.beside aside_offset) fun _ => .bind (.beside (aside_note _)) fun _ =>
    .forgive <| .bind (.report aside_reportUnexpected) fun _ =>
    .bind (.collect hbegins (.repeatWhile .skipInList)) fun _ => .placeSkipped

/-- Where a token has to be skipped, recovery in a list skips one. -/
theorem recoverInList_lt (hg : g.Leads text) {σ : Setting} {s s' : Session} {r : Bool}
    (hs : s.Sound text) (hc : s.kind ≠ form.closer) (hb : form.breaksAt s.kind = false)
    (hrun : Parse.recoverInList form σ s = some (r, s')) : s.offset < s'.offset := by
  obtain ⟨_, s₁, h₁, hrun⟩ := bind_eq_some.1 hrun
  obtain ⟨_, s₂, h₂, hrun⟩ := bind_eq_some.1 hrun
  obtain ⟨_, s₃, h₃, hrun⟩ := bind_eq_some.1 hrun
  obtain ⟨junk, s₄, h₄, hrun⟩ := bind_eq_some.1 hrun
  obtain ⟨t, hloop, -, rfl⟩ := collect_eq_some.1 h₄
  have hb₃ := ((aside_offset.beside h₁).trans ((aside_note _).beside h₂)).trans
    (aside_reportUnexpected.beside h₃)
  have hs₃ := (hb₃.onward hs).sound
  have hkind : s₃.kind = s.kind := congrArg Scanner.kind hb₃.scanner
  have hs₄ := hs₃.withDraft (.ofKind .error)
  have howed : s₃.Owed := hb₃.owed rfl
  -- the first turn skips a token, as the draft is still empty
  have hfirst {b u} (h : Parse.skipInList form σ (s₃.withDraft (.ofKind .error)) = some (b, u)) :
      b = true := by
    obtain ⟨_, _, h₁, h⟩ := bind_eq_some.1 h
    obtain ⟨rfl, rfl⟩ := Prod.mk.inj (Option.some.inj h₁)
    have hk : (s₃.withDraft (.ofKind .error)).kind = s.kind := hkind
    rw [Session.isAt, hk, beq_eq_false_iff_ne.2 hc, hb, if_neg (by decide),
      if_neg (by simp [Session.withDraft, Draft.ofKind, Draft.isEmpty])] at h
    obtain ⟨_, _, -, h⟩ := bind_eq_some.1 h
    obtain ⟨_, _, -, h⟩ := bind_eq_some.1 h
    exact (pure_eq_some.1 h).1.symm
  have hskip : Orderly text g 0 true ⟨.empty, none, false, true, .failed⟩ (Parse.skipInList form)
      fun b => ⟨.empty, none, b, true, .failed⟩ := .skipInList
  have hlt : (s₃.withDraft (.ofKind .error)).offset < t.offset :=
    repeatWhile_lt hg hskip hs₄ (fun _ => howed) hfirst hloop
  change s₃.offset < t.offset at hlt
  have hloop' : Orderly text g 0 true ⟨.empty, none, false, true, .failed⟩
      (Parse.repeatWhile (Parse.skipInList form)) fun _ => ⟨.empty, none, false, true, .failed⟩ :=
    .repeatWhile .skipInList
  have ht := hloop'.arrives hg hs₄ (Stage.fits_of_unknown rfl fun _ => howed) hloop
  have hplace : Orderly text g 0 true ⟨.draft junk .failed, none, false, true, .proper⟩
      (Parse.placeSkipped form junk) fun _ => ⟨.empty, none, false, true, .proper⟩ := .placeSkipped
  have hu := ht.onward.sound.withDraft s₃.draft
  have hle : t.offset ≤ s'.offset :=
    (hplace.arrives hg hu (Stage.fits_of_unknown rfl ht.fits.owed) hrun).onward.le
  have hle₃ := (hb₃.onward hs).le
  omega

section Elements

variable (hf : form.Steady)
  (he : Orderly text g k f ⟨.empty, none, false, o, .proper⟩ element
    fun _ => ⟨.empty, none, false, o, .proper⟩)

include hf he

/-- An element that is said to move on does, unless the list was over before. -/
theorem listElement_lt (hg : g.Leads text) {σ : Setting} {s s' : Session}
    (hs : s.Sound text) (ho : o = true → s.Owed) (hc : s.kind ≠ form.closer)
    (hrun : Parse.listElement form element σ s = some (true, s')) : s.offset < s'.offset := by
  obtain ⟨_, _, h₁, hrun⟩ := bind_eq_some.1 hrun
  obtain ⟨rfl, rfl⟩ := Prod.mk.inj (Option.some.inj h₁)
  obtain ⟨_, t, helement, hrun⟩ := bind_eq_some.1 hrun
  have ht := (he.arrives hg hs ⟨nofun, ho⟩ helement).onward
  have hle := ht.le
  obtain ⟨_, _, h₁, hrun⟩ := bind_eq_some.1 hrun
  obtain ⟨rfl, rfl⟩ := Prod.mk.inj (Option.some.inj h₁)
  split at hrun
  · next hcomma =>
    have hk : t.kind ≠ .endOfFile := by
      rw [eq_of_beq hcomma]
      nofun
    have hconsume : Orderly text g 0 true ⟨.empty, some t.kind, false, false, .proper⟩
        (Parse.consume >>= fun _ => Pure.pure true) fun _ => ⟨.empty, none, true, false, .proper⟩ :=
      .bind (.consumeAt hk) fun _ => .pure (.refl _)
    have hlt := (hconsume.arrives hg ht.sound ⟨fun _ => Option.some.inj, nofun⟩ hrun).moved rfl
    have hlt := hlt.resolve_left nofun
    omega
  · split at hrun
    · next hcloser =>
      obtain ⟨-, rfl⟩ := pure_eq_some.1 hrun
      -- at the same token the closer would have been made of another mark
      exact Nat.lt_of_le_of_ne hle fun heq =>
        ht.kind_ne heq.symm hf.closer hc (eq_of_beq hcloser)
    · split at hrun
      · exact nomatch (pure_eq_some.1 hrun).1
      · next hne =>
        have hmissing : Orderly text g 0 true ⟨.empty, none, false, false, .proper⟩
            (Parse.provided (form.starts t.kind) Parse.missingComma >>= fun _ => Pure.pure true)
            fun _ => ⟨.empty, none, false, false, .proper⟩ :=
          .bind (.provided .missingComma) fun _ => .pure (.refl _)
        have hle' := (hmissing.arrives hg ht.sound ⟨nofun, nofun⟩ hrun).onward.le
        have hne : t.offset ≠ s.offset := by simpa using hne
        omega

/-- Where a list goes on, an entry moves on. -/
theorem listEntry_lt (hg : g.Leads text) {σ : Setting} {s s' : Session} {r : Bool}
    (hs : s.Sound text) (ho : o = true → s.Owed) (hc : s.kind ≠ form.closer)
    (hb : form.breaksAt s.kind = false)
    (hrun : Parse.listEntry form element s.kind σ s = some (r, s')) : s.offset < s'.offset := by
  unfold Parse.listEntry at hrun
  split at hrun
  · obtain ⟨moved, t, helement, hrun⟩ := bind_eq_some.1 hrun
    cases moved with
    | true =>
      obtain ⟨-, rfl⟩ := pure_eq_some.1 hrun
      exact listElement_lt hf he hg hs ho hc helement
    | false =>
      have hread : Orderly text g k f ⟨.empty, none, false, o, .proper⟩ (Parse.listElement form element)
          fun _ => ⟨.empty, none, false, o, .proper⟩ := .listElement he
      have ht := (hread.arrives hg hs ⟨nofun, ho⟩ helement).onward
      have hrecover : Orderly text g 0 true ⟨.empty, none, false, false, .proper⟩
          (Parse.recoverInList form) fun _ => ⟨.empty, none, false, false, .proper⟩ := .recoverInList
      have hle' := (hrecover.arrives hg ht.sound ⟨nofun, nofun⟩ hrun).onward.le
      by_cases heq : t.offset = s.offset
      · have hsame : t.kind ≠ form.closer ∧ form.breaksAt t.kind = false := by
          rcases ht.steady heq with hk | hk
          · rw [hk]
            exact ⟨hc, hb⟩
          · exact hf.not_reshaped (Kind.isReshaped_of_mem hk)
        have hlt := recoverInList_lt hg ht.sound hsame.1 hsame.2 hrun
        omega
      · have hle := ht.le
        omega
  · exact recoverInList_lt hg hs hc hb hrun

theorem listEntry {c : Kind} (hc : c ≠ form.closer) (hb : form.breaksAt c = false) :
    Orderly text g k f ⟨.empty, some c, false, o, .proper⟩ (Parse.listEntry form element c)
      fun b => ⟨.empty, none, b, o, .proper⟩ := by
  have hentry : Orderly text g k f ⟨.empty, some c, false, o, .proper⟩ (Parse.listEntry form element c)
      fun _ => ⟨.empty, none, false, o, .proper⟩ := by
    unfold Parse.listEntry
    split
    · refine .bind (.listElement he) fun moved => ?_
      cases moved
      · exact .recoverInList
      · exact .pure .forget
    · exact .recoverInList
  refine .after (.moves (fun _ => true) hentry fun hg hs hfit hrun _ => ?_) fun b =>
    .less (.inr rfl) (fun _ => rfl) id (.same _)
  obtain rfl := hfit.at? c rfl
  exact listEntry_lt hf he hg hs hfit.owed hc hb hrun

theorem listTurn :
    Orderly text g k f ⟨.empty, none, false, o, .proper⟩ (Parse.listTurn form element)
      (afterTurn (fun _ => ⟨.empty, none, false, o, .proper⟩)
        fun _ => ⟨.empty, none, false, o, .proper⟩) := by
  refine .bind .flush fun _ => .kind fun c _ => ?_
  split
  · exact .bind .consume fun _ => .pure .forget
  · next hc =>
    split
    · exact .pure .forget
    · next hb =>
      refine .bind (.listEntry hf he (by simpa using hc) (by simpa using hb)) fun b => ?_
      cases b
      · exact .pure .forget
      · exact .pure .forget

theorem listRest :
    Orderly text g k f ⟨.empty, a, m, o, .proper⟩ (Parse.listRest form element)
      fun _ => ⟨.empty, none, m, o, .proper⟩ :=
  .turns (fun _ => .empty) fun _ => .listTurn hf he

end Elements

theorem unclosedList {closed : Bool} {range : Range} :
    Orderly text g k f ⟨.empty, a, m, o, .proper⟩
      (if closed then Pure.pure () else do
        note (.unclosedList form.opener range.start)
        reportAt range .unclosed [form.opener.name]
        Parse.failDraft)
      fun _ => ⟨.empty, a, m, o, .fair⟩ := by
  cases closed
  · exact .after (.bind (.beside (aside_note _)) fun _ =>
      .bind (.report (aside_errorAt (by decide) rfl _ _)) fun _ => .failDraft nofun) fun _ =>
        .less (.inr rfl) id (fun _ => rfl) (.owed rfl)
  · exact .pure (.less (.inr rfl) id id .proper)

section Whole

variable (hf : form.Steady)
  (he : Orderly text g k true ⟨.empty, none, false, o, .proper⟩ element
    fun _ => ⟨.empty, none, false, o, .proper⟩)

include hf he

theorem listAt :
    Orderly text g k f ⟨.empty, some form.opener, m, o, .proper⟩ (Parse.list form element)
      fun _ => ⟨.empty, none, true, o, .fair⟩ :=
  .isThere <| .bind (.beside aside_tokenRange) fun _ =>
    .bind (.consumeAt (Kind.ne_endOfFile_of_isStandIn hf.opener)) fun _ =>
    .past <| .bind (.listRest hf he) fun _ => .unclosedList

theorem list :
    Orderly text g k f ⟨.empty, a, m, o, .proper⟩ (Parse.list form element)
      fun _ => ⟨.empty, none, m, o, .fair⟩ :=
  .isAt
    (.bind (.beside aside_tokenRange) fun _ =>
      .bind (.consumeAt (Kind.ne_endOfFile_of_isStandIn hf.opener)) fun _ =>
      .after (.past <| .bind (.listRest hf he) fun _ => .unclosedList) fun _ =>
        .less (.inl rfl) (fun _ => rfl) id (.same _))
    (.after (.missingGroup hf.opener hf.closes) fun _ => .less (.inr rfl) id id .proper)

end Whole

end Lists

end Orderly

end ConcreteSyntax
