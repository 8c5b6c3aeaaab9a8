import ConcreteSyntax.Proofs.Reading.Arrival

/-! # Derived rules

The rules for the compositions that productions are made of: a token that has to come next, a part
read only at a certain token, a node and its children, a loop without a state. -/

namespace ConcreteSyntax

open Parse

theorem readAs_none : ReadAs none := nofun

theorem readAs_some {kind : Kind} (h : kind.isName = true) : ReadAs (some kind) := by
  rintro _ ⟨⟩
  exact h

theorem readsLiterals_usual : Admitted.usual.ReadsLiterals := ⟨rfl, rfl⟩

theorem Scanner.splitsInto_ampAmp : SplitsInto .ampAmp .amp := by simp [SplitsInto]

theorem Scanner.splitsInto_shl : SplitsInto .shl .lt := by simp [SplitsInto]

theorem Scanner.splitsInto_pipePipe : SplitsInto .pipePipe .pipe := by simp [SplitsInto]

theorem Stage.Serves.refl (st : Stage) : st.Serves st :=
  ⟨.same _, .inr rfl, id, id, .same _⟩

/-- A stage that tells less. -/
theorem Stage.Serves.less {h : Hand} {a a' : Option Kind} {m m' o o' : Bool} {F F' : Standing}
    (ha : a' = none ∨ a = a') (hm : m' = true → m = true) (ho : o' = true → o = true)
    (hF : F.Serves (o = true) F') : Stage.Serves ⟨h, a, m, o, F⟩ ⟨h, a', m', o', F'⟩ :=
  ⟨.same h, ha, hm, ho, hF⟩

/-- A stage at whatever token. -/
theorem Stage.Serves.forget {h : Hand} {a : Option Kind} {m o : Bool} {F : Standing} :
    Stage.Serves ⟨h, a, m, o, F⟩ ⟨h, none, m, o, F⟩ :=
  .less (.inl rfl) id id (.same _)

theorem Stage.Serves.unmoved {h : Hand} {a : Option Kind} {m o : Bool} {F : Standing} :
    Stage.Serves ⟨h, a, m, o, F⟩ ⟨h, a, false, o, F⟩ :=
  .less (.inr rfl) nofun id (.same _)

/-- A stage of which it does not matter whether it moved. -/
theorem Stage.Serves.halt {h : Hand} {a : Option Kind} {m o : Bool} {F : Standing} :
    Stage.Serves ⟨h, a, m, o, F⟩ ⟨h, none, false, o, F⟩ :=
  .less (.inl rfl) nofun id (.same _)

/-- A proper draft is fair. -/
theorem Stage.Serves.fair {h : Hand} {a : Option Kind} {m o : Bool} :
    Stage.Serves ⟨h, a, m, o, .proper⟩ ⟨h, a, m, o, .fair⟩ :=
  .less (.inr rfl) id id .proper

namespace Parse

/-- A word that the current token spells is taken as that word. -/
theorem takeWord_eq (word : Kind) {spelling : String} {σ : Setting} {s : Session}
    (hw : word.wordText = some spelling) (hs : s.scanner.tokenText σ.source = spelling) :
    takeWord word σ s = consumeAs word σ s := by
  rw [takeWord_run, wordTaken, if_pos (by rw [hw, hs])]
  rfl

theorem takeWord_bind {α : Type} (word : Kind) {spelling : String} {K : Unit → Parse α}
    {σ : Setting} {s : Session} (hw : word.wordText = some spelling)
    (hs : s.scanner.tokenText σ.source = spelling) :
    (takeWord word >>= K) σ s = (consumeAs word >>= K) σ s := by
  show (takeWord word σ s).bind _ = (consumeAs word σ s).bind _
  rw [takeWord_eq word hw hs]

/-- Programs that agree where a word stands may stand for each other after the test for it. -/
theorem isAtWord_congr {α : Type} {word : String} {K K' : Bool → Parse α} (hno : K false = K' false)
    (hyes : ∀ σ s, s.scanner.tokenText σ.source = word → K true σ s = K' true σ s) :
    (isAtWord word >>= K) = (isAtWord word >>= K') := by
  funext σ s
  have hrun : isAtWord word σ s =
      some (s.isAt .identifier && s.scanner.tokenText σ.source == word, s) := by
    show (if s.isAt .identifier = true then _ else _ : Parse Bool) σ s = _
    cases s.isAt .identifier
    · rfl
    · rfl
  show (isAtWord word σ s).bind _ = (isAtWord word σ s).bind _
  rw [hrun]
  cases h : s.isAt .identifier && s.scanner.tokenText σ.source == word with
  | false => exact congrFun (congrFun hno σ) s
  | true => exact hyes σ s (eq_of_beq (Bool.and_eq_true_iff.1 h).2)

end Parse

namespace Orderly

variable {text : List Char} {g : Grammar} {k : Nat} {f : Bool} {α β : Type} {st : Stage}
  {h h' : Hand} {a a' : Option Kind} {m m' o o' : Bool} {F F' : Standing}

/-! ### Stages -/

/-- Less may be told of the stage after a program. -/
theorem after {p : Parse α} {q q' : α → Stage} (hp : Orderly text g k f st p q)
    (hq : ∀ r, (q r).Serves (q' r)) : Orderly text g k f st p q' :=
  .serve (.refl st) hp hq

/-- More may be known of the stage before a program. -/
theorem before {st' : Stage} {p : Parse α} {q : α → Stage} (hst : st'.Serves st)
    (hp : Orderly text g k f st p q) : Orderly text g k f st' p q :=
  .serve hst hp fun r => .refl (q r)

/-- The current token need not be known. -/
theorem anywhere {p : Parse α} {q : α → Stage} (hp : Orderly text g k f ⟨h, none, m, o, F⟩ p q) :
    Orderly text g k f ⟨h, a, m, o, F⟩ p q :=
  .before .forget hp

/-- The current token may be forgotten. -/
theorem forget {p : Parse α} {H : α → Hand}
    (hp : Orderly text g k f st p fun r => ⟨H r, a, m, o, F⟩) :
    Orderly text g k f st p fun r => ⟨H r, none, m, o, F⟩ :=
  .after hp fun _ => .forget

/-- That an error is owed may be forgotten. -/
theorem forgive {p : Parse α} {H : α → Hand} {A : α → Option Kind} {M : α → Bool}
    (hp : Orderly text g k f st p fun r => ⟨H r, A r, M r, true, F⟩) :
    Orderly text g k f st p fun r => ⟨H r, A r, M r, o, F⟩ :=
  .after hp fun _ => .less (.inr rfl) id (fun _ => rfl) (.same _)

/-- A draft that is proper is fair. -/
theorem fairly {p : Parse α} {H : α → Hand} {A : α → Option Kind} {M : α → Bool}
    (hp : Orderly text g k f st p fun r => ⟨H r, A r, M r, o, .proper⟩) :
    Orderly text g k f st p fun r => ⟨H r, A r, M r, o, .fair⟩ :=
  .after hp fun _ => .fair

/-- It need not matter whether a token was taken before. -/
theorem unmoved {p : Parse α} {q : α → Stage} (hp : Orderly text g k f ⟨h, a, false, o, F⟩ p q) :
    Orderly text g k f ⟨h, a, m, o, F⟩ p q :=
  .before .unmoved hp

/-- It need not matter whether a token was taken. -/
theorem perhaps {p : Parse α} {H : α → Hand} {A : α → Option Kind}
    (hp : Orderly text g k f st p fun r => ⟨H r, A r, true, o, F⟩) :
    Orderly text g k f st p fun r => ⟨H r, A r, m, o, F⟩ :=
  .after hp fun _ => .less (.inr rfl) (fun _ => rfl) id (.same _)

/-- Once a token was taken, all nonterminals may be called. -/
theorem freely {p : Parse α} {q : α → Stage}
    (hp : Orderly text g k true ⟨h, a, false, o, F⟩ p fun r => { q r with moved := false }) :
    Orderly text g k f ⟨h, a, true, o, F⟩ p q :=
  .past hp

/-- A program that is told of from no token taken on may be told of from anywhere. -/
theorem keep {p : Parse α} {H : α → Hand} {A : α → Option Kind} {M : α → Bool}
    (hp : Orderly text g k f ⟨h, a, false, o, F⟩ p fun r => ⟨H r, A r, M r, o', F'⟩) :
    Orderly text g k f ⟨h, a, m, o, F⟩ p fun r => ⟨H r, A r, m, o', F'⟩ := by
  have hp' : Orderly text g k f ⟨h, a, false, o, F⟩ p fun r => ⟨H r, A r, false, o', F'⟩ :=
    .after hp fun _ => .less (.inr rfl) nofun id (.same _)
  cases m
  · exact hp'
  · exact .past hp'

/-- What is in the hands may be changed. -/
theorem recast {p : Parse α} {q : α → Stage} (hh : h.Becomes o h')
    (hp : Orderly text g k f ⟨h', a, m, o, F⟩ p q) : Orderly text g k f ⟨h, a, m, o, F⟩ p q := by
  have hst : Stage.Serves ⟨h, a, m, o, F⟩ ⟨h', a, m, o, F⟩ := ⟨hh, .inr rfl, id, id, .same _⟩
  exact .before hst hp

/-! ### Looking -/

theorem kind {K : Kind → Parse α} {q : α → Stage}
    (rest : ∀ c, (∀ c', a = some c' → c = c') →
      Orderly text g k f ⟨h, some c, m, o, F⟩ (K c) q) :
    Orderly text g k f ⟨h, a, m, o, F⟩ (Parse.kind >>= K) q :=
  .look (fun _ _ => rfl) fun s hs => rest s.kind hs

theorem isAt {c : Kind} {A B : Parse α} {q : α → Stage}
    (yes : Orderly text g k f ⟨h, some c, m, o, F⟩ A q)
    (no : Orderly text g k f ⟨h, a, m, o, F⟩ B q) :
    Orderly text g k f ⟨h, a, m, o, F⟩ (Parse.isAt c >>= fun b => if b = true then A else B) q := by
  refine .look (fun _ _ => rfl) fun s hs => ?_
  show Orderly text g k f _ (if (s.kind == c) = true then A else B) q
  split
  · next hc =>
    obtain rfl := eq_of_beq hc
    exact yes
  · refine .before (.less ?_ id id (.same _)) no
    cases a with
    | none => exact .inl rfl
    | some c' => exact .inr (congrArg some (hs c' rfl))

/-- At a known token the answer is known. -/
theorem isThere {c : Kind} {A B : Parse α} {q : α → Stage}
    (yes : Orderly text g k f ⟨h, some c, m, o, F⟩ A q) :
    Orderly text g k f ⟨h, some c, m, o, F⟩
      (Parse.isAt c >>= fun b => if b = true then A else B) q := by
  refine .look (fun _ _ => rfl) fun s hs => ?_
  obtain rfl := hs c rfl
  show Orderly text g k f _ (if (s.kind == s.kind) = true then A else B) q
  rwa [if_pos (beq_self_eq_true _)]

theorem isOther {c c' : Kind} {A B : Parse α} {q : α → Stage} (hc : c ≠ c')
    (no : Orderly text g k f ⟨h, some c, m, o, F⟩ B q) :
    Orderly text g k f ⟨h, some c, m, o, F⟩
      (Parse.isAt c' >>= fun b => if b = true then A else B) q := by
  refine .look (fun _ _ => rfl) fun s hs => ?_
  obtain rfl := hs c rfl
  show Orderly text g k f _ (if (s.kind == c') = true then A else B) q
  rwa [if_neg (by simpa using hc)]

theorem beside {p : Parse α} (hp : p.Aside false) :
    Orderly text g k f ⟨h, a, m, o, F⟩ p fun _ => ⟨h, a, m, o, F⟩ :=
  .after (.aside hp) fun _ => .less (.inr rfl) id (fun ho => by simp [ho]) (.same _)

/-- After the report of an error one is owed. -/
theorem report {p : Parse α} (hp : p.Aside true) :
    Orderly text g k f ⟨h, a, m, o, F⟩ p fun _ => ⟨h, a, m, true, F⟩ :=
  .after (.aside hp) fun _ => .less (.inr rfl) id (fun _ => by simp) (.same _)

theorem unrestricted {body : Parse α} {q : α → Stage} (hp : Orderly text g k f st body q) :
    Orderly text g k f st (Parse.unrestricted body) q :=
  .restricted hp

theorem ifAt {c : Kind} {body : Parse Unit}
    (yes : Orderly text g k f ⟨h, some c, m, o, F⟩ body fun _ => ⟨h, none, m, o, F⟩) :
    Orderly text g k f ⟨h, a, m, o, F⟩ (Parse.ifAt c body) fun _ => ⟨h, none, m, o, F⟩ :=
  .isAt yes (.pure .forget)

/-- A part that is read only at another token is left out. -/
theorem ifOther {c c' : Kind} {body : Parse Unit} (hc : c ≠ c') :
    Orderly text g k f ⟨h, some c, m, o, F⟩ (Parse.ifAt c' body)
      fun _ => ⟨h, some c, m, o, F⟩ :=
  .isOther hc (.pure (.refl _))

/-- A part that is read only at a certain token is read there. -/
theorem ifThere {c : Kind} {body : Parse Unit} {q : Unit → Stage}
    (hp : Orderly text g k f ⟨h, some c, m, o, F⟩ body q) :
    Orderly text g k f ⟨h, some c, m, o, F⟩ (Parse.ifAt c body) q :=
  .isThere hp

theorem provided {c : Bool} {body : Parse Unit}
    (yes : Orderly text g k f ⟨h, a, m, o, F⟩ body fun _ => ⟨h, none, m, o, F⟩) :
    Orderly text g k f ⟨h, a, m, o, F⟩ (Parse.provided c body) fun _ => ⟨h, none, m, o, F⟩ := by
  cases c
  · exact .pure .forget
  · exact yes

/-! ### Tokens -/

theorem consume :
    Orderly text g k f ⟨.empty, a, m, o, F⟩ Parse.consume fun _ => ⟨.empty, none, m, o, F⟩ :=
  .consumeWith (.inl rfl) readAs_none readsLiterals_usual

theorem consumeAt {c : Kind} (hc : c ≠ .endOfFile) :
    Orderly text g k f ⟨.empty, some c, m, o, F⟩ Parse.consume
      fun _ => ⟨.empty, none, true, o, F⟩ :=
  .consumeWithAt hc (.inl rfl) readAs_none readsLiterals_usual

theorem consumeField {label : Field} :
    Orderly text g k f ⟨.empty, a, m, o, .proper⟩ (Parse.consumeField label)
      fun _ => ⟨.empty, none, m, o, .proper⟩ :=
  .consumeWith (.inr rfl) readAs_none readsLiterals_usual

theorem consumeFieldAt {label : Field} {c : Kind} (hc : c ≠ .endOfFile) :
    Orderly text g k f ⟨.empty, some c, m, o, .proper⟩ (Parse.consumeField label)
      fun _ => ⟨.empty, none, true, o, .proper⟩ :=
  .consumeWithAt hc (.inr rfl) readAs_none readsLiterals_usual

theorem consumeAs {kind : Kind} (hk : kind.isName = true) :
    Orderly text g k f ⟨.empty, a, m, o, F⟩ (Parse.consumeAs kind)
      fun _ => ⟨.empty, none, m, o, F⟩ :=
  .consumeWith (.inl rfl) (readAs_some hk) readsLiterals_usual

theorem consumeFieldAs {label : Field} {kind : Kind} (hk : kind.isName = true) :
    Orderly text g k f ⟨.empty, a, m, o, .proper⟩ (Parse.consumeFieldAs label kind)
      fun _ => ⟨.empty, none, m, o, .proper⟩ :=
  .consumeWith (.inr rfl) (readAs_some hk) readsLiterals_usual

theorem consumeIf {c : Kind} :
    Orderly text g k f ⟨.empty, a, m, o, F⟩ (Parse.consumeIf c)
      fun _ => ⟨.empty, none, m, o, F⟩ :=
  .ifAt .consume

theorem consumeIfAt {c : Kind} (hc : c ≠ .endOfFile) :
    Orderly text g k f ⟨.empty, some c, m, o, F⟩ (Parse.consumeIf c)
      fun _ => ⟨.empty, none, true, o, F⟩ :=
  .ifThere (.consumeAt hc)

/-- A token that is taken in a turn of a loop. -/
theorem accept {c : Kind} (hc : c ≠ .endOfFile) :
    Orderly text g k f ⟨.empty, a, m, o, F⟩ (Parse.accept c)
      fun b => ⟨.empty, none, b, o, F⟩ :=
  .isAt (.bind (.consumeAt hc) fun _ => .pure .forget) (.pure .halt)

/-! ### The open draft -/

theorem push {n : Node} :
    Orderly text g k f ⟨.node n, a, m, o, F⟩ (Parse.push n) fun _ => ⟨.empty, a, m, o, F⟩ :=
  .pushChild (.inl rfl)

theorem pushField {label : Field} {n : Node} :
    Orderly text g k f ⟨.node n, a, m, o, .proper⟩ (Parse.pushField label n)
      fun _ => ⟨.empty, a, m, o, .proper⟩ :=
  .pushChild (.inr rfl)

theorem field {label : Field} {body : Parse Node}
    (hp : Orderly text g k f st body fun n => ⟨.node n, a, m, o, .proper⟩) :
    Orderly text g k f st (Parse.field label body) fun _ => ⟨.empty, a, m, o, .proper⟩ :=
  .bind hp fun _ => .pushField

theorem child {body : Parse Node}
    (hp : Orderly text g k f st body fun n => ⟨.node n, a, m, o, F⟩) :
    Orderly text g k f st (Parse.child body) fun _ => ⟨.empty, a, m, o, F⟩ :=
  .bind hp fun _ => .push

/-- A draft is filled further and finished. -/
theorem resume {d : Draft} {body : Parse Unit}
    (hp : Orderly text g k f ⟨.empty, a, m, o, F'⟩ body fun _ => ⟨.empty, a', m', o', .proper⟩) :
    Orderly text g k f ⟨.draft d F', a, m, o, F⟩ (Parse.resume d body)
      fun n => ⟨.node n, a', m', o', F⟩ :=
  .bind (.refill hp) fun _ => .finish nofun

/-- A node is read, with what is in the hands inside it. -/
theorem node {kind : Kind} {body : Parse Unit} (hk : kind.isFree = true)
    (hp : Orderly text g k f ⟨h, a, m, o, .proper⟩ body fun _ => ⟨.empty, a', m', o', .proper⟩) :
    Orderly text g k f ⟨h, a, m, o, F⟩ (Parse.node kind body) fun n => ⟨.node n, a', m', o', F⟩ :=
  have hbegins : Standing.proper.Begins kind := hk
  .bind (.collect hbegins hp) fun _ => .finish nofun

/-- A node that becomes an error where it breaks off. -/
theorem fairNode {kind : Kind} {body : Parse Unit} (hk : kind.isFree = true)
    (hp : Orderly text g k f ⟨h, a, m, o, .proper⟩ body fun _ => ⟨.empty, a', m', o', .fair⟩) :
    Orderly text g k f ⟨h, a, m, o, F⟩ (Parse.node kind body) fun n => ⟨.node n, a', m', o', F⟩ :=
  have hbegins : Standing.proper.Begins kind := hk
  .bind (.collect hbegins hp) fun _ => .finish nofun

/-- Where an error is owed, a node may be one. -/
theorem errorNode {body : Parse Unit}
    (hp : Orderly text g k f ⟨h, a, m, true, .failed⟩ body
      fun _ => ⟨.empty, a', m', true, .failed⟩) :
    Orderly text g k f ⟨h, a, m, true, F⟩ (Parse.node .error body)
      fun n => ⟨.node n, a', m', true, F⟩ := by
  have hbegins : Standing.failed.Begins .error := .inr rfl
  refine .bind (.collect hbegins hp) fun d => ?_
  have hfair : Stage.Serves ⟨.draft d .failed, a', m', true, F⟩ ⟨.draft d .fair, a', m', true, F⟩ :=
    ⟨.explained d (.owed rfl), .inr rfl, id, id, .same _⟩
  exact .before hfair (.finish nofun)

/-! ### What has to come next -/

theorem pushMissing {kind : Kind} (hk : kind.isStandIn = true) :
    Orderly text g k f ⟨.empty, a, m, true, F⟩ (Parse.pushMissing kind)
      fun _ => ⟨.empty, a, m, true, F⟩ :=
  .bind (.missing hk) fun _ => .push

theorem pushMissingField {label : Field} {kind : Kind} (hk : kind.isStandIn = true) :
    Orderly text g k f ⟨.empty, a, m, true, .proper⟩ (Parse.pushMissingField label kind)
      fun _ => ⟨.empty, a, m, true, .proper⟩ :=
  .bind (.missing hk) fun _ => .pushField

theorem expect {c : Kind} (hc : c.isStandIn = true) :
    Orderly text g k f ⟨.empty, a, m, o, F⟩ (Parse.expect c) fun _ => ⟨.empty, none, m, o, F⟩ :=
  .isAt .consume <| .forget <| .forgive <| .bind (.report (aside_errorHere (by decide) rfl _))
    fun _ => .pushMissing hc

theorem expectAt {c : Kind} (hc : c ≠ .endOfFile) :
    Orderly text g k f ⟨.empty, some c, m, o, F⟩ (Parse.expect c)
      fun _ => ⟨.empty, none, true, o, F⟩ :=
  .isThere (.consumeAt hc)

theorem expectName {label : Field} {kind : Kind} (hk : kind.isName = true) :
    Orderly text g k f ⟨.empty, a, m, o, .proper⟩ (Parse.expectName label kind)
      fun _ => ⟨.empty, none, m, o, .proper⟩ := by
  refine .kind fun c _ => ?_
  split
  · exact .consumeFieldAs hk
  · exact .consumeField
  · exact .forget <| .forgive <| .bind (.report (aside_reportExpected _)) fun _ =>
      .pushMissingField (Kind.isStandIn_of_isFree (Kind.isFree_of_isName hk))

theorem markOrName {mark : Kind} {label : Field} :
    Orderly text g k f ⟨.empty, a, m, o, .proper⟩ (Parse.markOrName mark label)
      fun _ => ⟨.empty, none, m, o, .proper⟩ :=
  .isAt .consumeField (.expectName rfl)

/-! ### Loops -/

/-- A loop whose turns keep a stage. -/
theorem turns {σ ρ : Type} {turn : σ → Parse (Step σ ρ)} {state : σ} (H : σ → Hand) {R : ρ → Hand}
    (ht : ∀ x, Orderly text g k f ⟨H x, none, false, o, F⟩ (turn x)
      (afterTurn (fun x => ⟨H x, none, false, o, F⟩) fun r => ⟨R r, none, false, o, F⟩)) :
    Orderly text g k f ⟨H state, a, m, o, F⟩ (Parse.loop turn state)
      fun r => ⟨R r, none, m, o, F⟩ :=
  .keep <| .anywhere <|
    .loop (fun x => ⟨H x, none, false, o, F⟩) rfl (fun _ => rfl) (ht state) ht

theorem repeatWhile {turn : Parse Bool}
    (ht : Orderly text g k f ⟨.empty, none, false, o, F⟩ turn fun b => ⟨.empty, none, b, o, F⟩) :
    Orderly text g k f ⟨.empty, a, m, o, F⟩ (Parse.repeatWhile turn)
      fun _ => ⟨.empty, none, m, o, F⟩ := by
  refine .turns (fun _ => .empty) fun _ => .bind ht fun b => ?_
  cases b
  · exact .pure .forget
  · exact .pure .forget

/-- A loop whose first turn is sure to take a token. -/
theorem repeatWhileAt {turn : Parse Bool}
    (first : Orderly text g k f ⟨.empty, a, false, o, F⟩ turn fun _ => ⟨.empty, none, true, o, F⟩)
    (later : Orderly text g k f ⟨.empty, none, false, o, F⟩ turn
      fun b => ⟨.empty, none, b, o, F⟩) :
    Orderly text g k f ⟨.empty, a, m, o, F⟩ (Parse.repeatWhile turn)
      fun _ => ⟨.empty, none, true, o, F⟩ := by
  refine .unmoved <| .loop (fun _ => ⟨.empty, none, false, o, F⟩) rfl (fun _ => rfl)
    (.bind first fun b => ?_) fun _ => .bind later fun b => ?_
  · cases b <;> exact .pure (.refl _)
  · cases b <;> exact .pure (.refl _)

/-- A loop moves on if its first turn asks for another one. -/
theorem repeatWhile_lt {turn : Parse Bool} (hg : g.Leads text)
    (ht : Orderly text g k f ⟨.empty, none, false, o, F⟩ turn fun b => ⟨.empty, none, b, o, F⟩)
    {σ : Setting} {s s' : Session} (hs : s.Sound text) (ho : o = true → s.Owed)
    (hfirst : ∀ {b t}, turn σ s = some (b, t) → b = true)
    (hrun : Parse.repeatWhile turn σ s = some ((), s')) : s.offset < s'.offset := by
  let turn' : Unit → Parse (Step Unit Unit) :=
    fun () => return if ← turn then .again () else .done ()
  let again : Unit → Stage := fun () => ⟨.empty, none, false, o, F⟩
  have hturn (x : Unit) {s t r} (hs : s.Sound text) (hf : (again x).Fits s)
      (h : turn' x σ s = some (r, t)) :
      Arrives text (again x) (afterTurn again (fun r => { again r with moved := false }) r) s t := by
    refine Orderly.arrives (g := g) (k := k) (f := f) hg (.bind ht fun b => ?_) hs hf h
    cases b <;> exact .pure .forget
  obtain ⟨n, hrun⟩ : ∃ n, iterate turn' (n + 1) () σ s = some ((), s') := ⟨_, hrun⟩
  have hfit : (again ()).Fits s := ⟨nofun, ho⟩
  rcases iterate_succ hrun with h | ⟨_, t, h, hrest⟩
  · obtain ⟨b, u, hb, h⟩ := bind_eq_some.1 h
    obtain rfl := hfirst hb
    exact nomatch (pure_eq_some.1 h).1
  · have hone := hturn () hs hfit h
    have hlt := (hone.moved rfl).resolve_left nofun
    have hle := (iterate_arrives (fun {x} => hturn x) n hone.onward.sound
      ⟨hone.fits.at?, hone.fits.owed⟩ hrest).onward.le
    omega

end Orderly

end ConcreteSyntax
