import ConcreteSyntax.Grammar.Expression.Prefix
import ConcreteSyntax.Proofs.Grammar.Statement

/-! # Expressions are orderly

Control flow, primary expressions and what may stand before them. An expression that begins with a
word or a mark takes it, and only then reads another expression.

The draft that a label is read into may be dropped where nesting ends. A quote, a name and a colon have
no faults, and neither have the comments between them, so no diagnostic of a single token speaks of
what is dropped (`Parse.label_faultless`). -/

namespace ConcreteSyntax

open Parse

/-! ### Labels -/

section Labels

variable {text : List Char} {σ : Setting} {s s' : Session}

/-- A session whose open draft holds no faulty token. -/
structure Session.Clean (text : List Char) (s : Session) : Prop where
  sound : s.Sound text
  draft : s.draft.Faultless

namespace Session.Clean

theorem withDraft (h : s.Clean text) {d : Draft} (hd : d.Faultless) :
    (s.withDraft d).Clean text :=
  ⟨h.sound.withDraft d, hd⟩

theorem beside {severe : Bool} (h : s.Clean text) (hb : s.Beside severe s') : s'.Clean text :=
  ⟨(hb.onward h.sound).sound, hb.draft ▸ h.draft⟩

/-- A token that cannot be faulty is taken. -/
theorem taken (h : s.Clean text) (hk : s.kind.mayBeFaulty = false) {as? : Option Kind}
    (has : ReadAs as?) (label : Option Field) :
    ((s.taken σ .usual).withDraft
      ((s.taken σ .usual).draft.pushChild label (.ofToken s.scanner.token as?))).Clean text := by
  have hcomments : ∀ c ∈ s.comments, c.2.Faultless :=
    fun c hc => (quiet_comments h.sound c hc).faultless
  have hdraft : (s.taken σ .usual).draft.Faultless := by
    show (s.flushed σ).draft.Faultless
    unfold Session.flushed
    dsimp only
    split
    · exact h.draft.extend hcomments
    · exact h.draft
  have hlaid := h.sound.scanner.laid
  have htoken : (Node.ofToken s.scanner.token as?).Quiet :=
    Node.quiet_ofToken hlaid (hlaid.faultless hk) fun kind hkind =>
      Kind.ne_of_isFree (Kind.isFree_of_isName (has kind hkind))
  exact ⟨(h.sound.taken σ readsLiterals_usual).withDraft _, hdraft.pushChild htoken.faultless label⟩

end Session.Clean

namespace Parse

theorem clean_consumeAs (h : s.Clean text) (hk : s.kind.mayBeFaulty = false) {as? : Option Kind}
    (has : ReadAs as?) (hrun : consumeWith none as? .usual σ s = some ((), s')) :
    s'.Clean text := by
  obtain ⟨-, rfl⟩ := Prod.mk.inj (Option.some.inj ((consumeWith_run _ _ _ σ s).symm.trans hrun))
  split
  · exact h
  · exact h.taken hk has none

/-- After a report a token is missing. -/
theorem clean_pushMissing {c : Kind} (hc : c ≠ .errorSentinel) {severe : Bool} {report : Parse Unit}
    (hreport : report.Aside severe) (h : s.Clean text)
    (hrun : (report >>= fun _ => pushMissing c) σ s = some ((), s')) : s'.Clean text := by
  obtain ⟨_, t, hr, hrun⟩ := bind_eq_some.1 hrun
  have ht := h.beside (hreport.beside hr)
  obtain ⟨-, rfl⟩ := Prod.mk.inj (Option.some.inj hrun)
  exact ht.withDraft (ht.draft.pushChild (Node.faultless_missing hc _) none)

theorem clean_expect {c : Kind} (hc : c.mayBeFaulty = false) (h : s.Clean text)
    (hrun : expect c σ s = some ((), s')) : s'.Clean text := by
  obtain ⟨atC, _, h₁, hrun⟩ := bind_eq_some.1 hrun
  obtain ⟨rfl, rfl⟩ := Prod.mk.inj (Option.some.inj h₁)
  split at hrun
  · next hk =>
    have hk : s.kind = c := eq_of_beq hk
    exact clean_consumeAs h (hk ▸ hc) readAs_none hrun
  · have hc : c ≠ .errorSentinel := by
      rintro rfl
      exact nomatch hc
    exact clean_pushMissing hc (aside_errorHere (by decide) rfl _) h hrun

theorem Kind.mayBeFaulty_of_word {c : Kind} (h : (c == .identifier || c.isWord) = true) :
    c.mayBeFaulty = false := by
  unfold Kind.mayBeFaulty
  split
  all_goals first | rfl | exact nomatch h

/-- The name behind a quote, or a missing one. -/
theorem clean_afterQuote (h : s.Clean text)
    (hrun : (Parse.kind >>= fun current =>
      if current == .identifier || current.isWord then consumeAs .identifier
      else if current == .underscore then consume
      else do
        reportExpected "identifier"
        pushMissing .identifier) σ s = some ((), s')) : s'.Clean text := by
  obtain ⟨c, _, h₁, hrun⟩ := bind_eq_some.1 hrun
  obtain ⟨rfl, rfl⟩ := Prod.mk.inj (Option.some.inj h₁)
  split at hrun
  · next hword =>
    exact clean_consumeAs h (Kind.mayBeFaulty_of_word hword) (readAs_some rfl) hrun
  · split at hrun
    · next hk =>
      have hk : s.kind = .underscore := eq_of_beq hk
      exact clean_consumeAs h (hk ▸ rfl) readAs_none hrun
    · have hk : Kind.identifier ≠ .errorSentinel := nofun
      exact clean_pushMissing hk (aside_reportExpected _) h hrun

theorem clean_quotedName {kind : Kind} (hk : kind ≠ .error) (h : s.Clean text)
    (hrun : child (quotedName kind) σ s = some ((), s')) : s'.Clean text := by
  obtain ⟨n, t, hname, hrun⟩ := bind_eq_some.1 hrun
  obtain ⟨filled, u, hcollect, hfinish⟩ := bind_eq_some.1 hname
  obtain ⟨v, hbody, rfl, rfl⟩ := collect_eq_some.1 hcollect
  obtain ⟨rfl, rfl⟩ := Prod.mk.inj (Option.some.inj hfinish)
  obtain ⟨-, rfl⟩ := Prod.mk.inj (Option.some.inj hrun)
  obtain ⟨_, w, hquote, hrest⟩ := bind_eq_some.1 hbody
  have hw : w.Clean text := clean_expect rfl (h.withDraft (.ofKind hk)) hquote
  have hv : v.Clean text := clean_afterQuote hw hrest
  have hnode := Node.faultless_finishOver hv.draft (v.draft.span v.consumedEnd)
  exact hv.withDraft (h.draft.pushChild hnode none)

/-- The draft of a label, a colon included, holds no faulty token. -/
theorem label_faultless {d : Draft} (hs : s.Sound text)
    (hrun : collect (.ofKind .block) (do child (quotedName .label); expect .colon) σ s =
      some (d, s')) : d.Faultless := by
  obtain ⟨t, hbody, rfl, -⟩ := collect_eq_some.1 hrun
  obtain ⟨_, u, hlabel, hcolon⟩ := bind_eq_some.1 hbody
  have hstart : (s.withDraft (.ofKind .block)).Clean text := ⟨hs.withDraft _, .ofKind nofun⟩
  have hkind : Kind.label ≠ .error := nofun
  have hu : u.Clean text := clean_quotedName hkind hstart hlabel
  exact (clean_expect rfl hu hcolon).draft

end Parse

end Labels

/-! ### Tokens -/

theorem Grammar.steady_fieldInitializerList : Grammar.fieldInitializerList.Steady :=
  ⟨rfl, rfl, rfl, by decide⟩

/-- `raw` is taken where it stands. -/
theorem Grammar.referenceModifier_raw (next : Kind) :
    (isAtWord "raw" >>= fun b =>
        if (b && (next == .constKw || next == .mutKw)) = true then
          consumeAs .rawKw >>= fun _ => consume
        else consumeIf .mutKw) =
      (isAtWord "raw" >>= fun b =>
        if (b && (next == .constKw || next == .mutKw)) = true then
          takeWord .rawKw >>= fun _ => consume
        else consumeIf .mutKw) := by
  refine isAtWord_congr rfl fun σ s hs => ?_
  split
  · exact (takeWord_bind .rawKw rfl hs).symm
  · rfl

namespace Orderly

variable {text : List Char} {g : Grammar} {k : Nat} {f : Bool} {a : Option Kind} {m o : Bool} {F : Standing}

/-! ### Branches -/

theorem condition {noStructLiteral : Bool} (hr : f = true ∨ m = true ∨ 1 < k) :
    Orderly text g k f ⟨.empty, a, m, o, F⟩ (g.condition noStructLiteral)
      fun n => ⟨.node n, none, m, o, F⟩ :=
  .bind (.restricted (.call hr rfl)) fun n => .recast (.chain n) (.pure (.refl _))

theorem letConditionAt :
    Orderly text g k f ⟨.empty, some .letKw, m, o, F⟩ g.letCondition
      fun n => ⟨.node n, none, true, o, F⟩ :=
  .node rfl <| .bind (.consumeAt nofun) fun _ => .freely <|
    .bind (.field (.call (.inl rfl) rfl)) fun _ => .bind (.expect rfl) fun _ =>
    .bind (.beside aside_restriction) fun _ => .field (.restricted (.call (.inl rfl) rfl))

theorem elseClauseAt :
    Orderly text g k f ⟨.empty, some .elseKw, m, o, F⟩ g.elseClause
      fun n => ⟨.node n, none, true, o, F⟩ :=
  .node rfl <| .bind (.consumeAt nofun) fun _ => .freely <|
    .isAt (.child (.anywhere (.call (.inl rfl) rfl))) (.child (.call (.inl rfl) rfl))

/-- The head of an `if` and its branches. -/
theorem ifBranches (hr : f = true ∨ m = true ∨ 1 < k) :
    Orderly text g k f ⟨.empty, none, m, o, .proper⟩
      (do
        Parse.field .condition (g.condition true)
        Parse.field .consequence (g.parse .block)
        if ← Parse.isAt .elseKw then Parse.field .alternative g.elseClause)
      fun _ => ⟨.empty, none, m, o, .proper⟩ := by
  have hr' : f = true ∨ m = true ∨ Nonterminal.block.rank < k :=
    hr.imp_right fun h => h.imp_right Nat.lt_of_succ_lt
  exact .bind (.field (.condition hr)) fun _ => .bind (.field (.call hr' rfl)) fun _ =>
    .isAt (.field (.perhaps .elseClauseAt)) (.pure (.refl _))

theorem ifExpression (hr : f = true ∨ 1 < k) :
    Orderly text g k f ⟨.empty, a, m, o, F⟩ g.ifExpression fun n => ⟨.node n, none, m, o, F⟩ :=
  .node rfl <| .bind .consume fun _ => .ifBranches (hr.imp_right .inr)

theorem ifExpressionAt :
    Orderly text g k f ⟨.empty, some .ifKw, m, o, F⟩ g.ifExpression
      fun n => ⟨.node n, none, true, o, F⟩ :=
  .node rfl <| .bind (.consumeAt nofun) fun _ => .ifBranches (.inr (.inl rfl))

/-! ### Matches -/

theorem matchArm :
    Orderly text g k true ⟨.empty, a, m, o, F⟩ g.matchArm fun n => ⟨.node n, none, m, o, F⟩ := by
  have hpattern : Orderly text g k true ⟨.empty, none, m, o, .proper⟩ g.armPattern
      fun n => ⟨.node n, none, m, o, .proper⟩ :=
    .node rfl <| .bind (.child (.call (.inl rfl) rfl)) fun _ =>
      .isAt (.bind .consume fun _ => .field (.condition (.inl rfl))) (.pure (.refl _))
  refine .bind .flush fun _ => .node rfl <| .bind .attributes fun _ => .bind .flush fun _ =>
    .bind (.field hpattern) fun _ => .bind (.expect rfl) fun _ =>
    .bind .statementExpression fun (value, isBlockLike) => .bind .pushField fun _ =>
    .look (fun _ _ => rfl) fun s _ => ?_
  split
  · exact .consume
  · split
    · exact .pure .forget
    · exact .forget (.beside ((aside_reportHere (by decide) _).weaken nofun))

theorem matchEntry_unmoved :
    Orderly text g k true ⟨.empty, a, false, o, F⟩ g.matchEntry
      fun _ => ⟨.empty, none, false, o, F⟩ := by
  refine .look (fun _ _ => rfl) fun s _ => ?_
  split
  · exact .bind (.child .matchArm) fun _ => .bind (.beside aside_offset) fun _ =>
      .provided .recoverUntil
  · exact .recoverUntil

/-- An entry of a match moves on. -/
theorem matchEntry_lt (hg : g.Leads text) {σ : Setting} {s s' : Session} (hs : s.Sound text)
    (he : s.kind ≠ .endOfFile) (hb : s.kind ≠ .closeBrace)
    (hrun : g.matchEntry σ s = some ((), s')) : s.offset < s'.offset := by
  have hskip {t : Session} (ht : s.Onward text t) (heq : t.offset = s.offset)
      (hrun : Parse.recoverUntil .comma σ t = some ((), s')) : t.offset < s'.offset := by
    have hrecover : Orderly text g 0 true ⟨.empty, some t.kind, false, false, .proper⟩
        (Parse.recoverUntil .comma) fun _ => ⟨.empty, none, true, false, .proper⟩ :=
      .recoverUntilAt (ht.kind_ne heq rfl he) (ht.kind_ne heq rfl hb)
    exact ((hrecover.arrives hg ht.sound ⟨fun _ => Option.some.inj, nofun⟩ hrun).moved
      rfl).resolve_left nofun
  obtain ⟨_, _, h₁, hrun⟩ := bind_eq_some.1 hrun
  obtain ⟨rfl, rfl⟩ := Prod.mk.inj (Option.some.inj h₁)
  split at hrun
  · obtain ⟨_, t, harm, hrun⟩ := bind_eq_some.1 hrun
    have hread : Orderly text g 0 true ⟨.empty, none, false, false, .proper⟩ (Parse.child g.matchArm)
        fun _ => ⟨.empty, none, false, false, .proper⟩ := .child .matchArm
    have ht := (hread.arrives hg hs ⟨nofun, nofun⟩ harm).onward
    have hle := ht.le
    obtain ⟨_, _, h₁, hrun⟩ := bind_eq_some.1 hrun
    obtain ⟨rfl, rfl⟩ := Prod.mk.inj (Option.some.inj h₁)
    by_cases heq : t.offset = s.offset
    · rw [heq, beq_self_eq_true] at hrun
      have hlt := hskip ht heq hrun
      omega
    · rw [beq_eq_false_iff_ne.2 heq] at hrun
      obtain ⟨-, rfl⟩ := pure_eq_some.1 hrun
      omega
  · exact hskip (.refl hs) rfl hrun

theorem matchEntry {c : Kind} (he : c ≠ .endOfFile) (hb : c ≠ .closeBrace) :
    Orderly text g k true ⟨.empty, some c, false, o, F⟩ g.matchEntry
      fun _ => ⟨.empty, none, true, o, F⟩ :=
  .after (.moves (fun _ => true) .matchEntry_unmoved fun hg hs hfit hrun _ => by
    obtain rfl := hfit.at? c rfl
    exact matchEntry_lt hg hs he hb hrun) fun _ => .less (.inr rfl) (fun _ => rfl) id (.same _)

theorem matchBlock :
    Orderly text g k true ⟨.empty, a, m, o, F⟩ g.matchBlock
      fun n => ⟨.node n, none, m, o, F⟩ := by
  have harms : Orderly text g k true ⟨.empty, none, m, o, .proper⟩ g.matchArms
      fun _ => ⟨.empty, none, m, o, .proper⟩ := by
    refine .repeatWhile <| .bind .flush fun _ => .kind fun c _ => ?_
    split
    · exact .pure .forget
    · exact .after .absorbBrace fun _ => .less (.inl rfl) id id (.same _)
    · next he hb => exact .bind (.matchEntry he hb) fun _ => .pure (.refl _)
  exact .bind .flush fun _ => .node rfl <| .isAt
    (.bind (.beside aside_tokenRange) fun _ => .bind .consume fun _ =>
      .bind (.unrestricted harms) fun _ => .close)
    (.missingGroup rfl rfl)

theorem headExpression :
    Orderly text g k true ⟨.empty, a, m, o, F⟩ g.headExpression
      fun n => ⟨.node n, none, m, o, F⟩ :=
  .restricted (.call (.inl rfl) rfl)

theorem matchExpressionAt :
    Orderly text g k f ⟨.empty, some .matchKw, m, o, F⟩ g.matchExpression
      fun n => ⟨.node n, none, true, o, F⟩ :=
  .node rfl <| .bind (.consumeAt nofun) fun _ => .freely <|
    .bind (.field .headExpression) fun _ => .field .matchBlock

/-! ### Loops -/

theorem whileLoopAt :
    Orderly text g k f ⟨.empty, some .whileKw, m, o, .proper⟩ g.whileLoop
      fun _ => ⟨.empty, none, true, o, .proper⟩ :=
  .bind (.setKind nofun rfl) fun _ => .bind (.consumeAt nofun) fun _ => .freely <|
    .bind (.field (.condition (.inl rfl))) fun _ => .field (.call (.inl rfl) rfl)

theorem endlessLoopAt :
    Orderly text g k f ⟨.empty, some .loopKw, m, o, .proper⟩ g.endlessLoop
      fun _ => ⟨.empty, none, true, o, .proper⟩ :=
  .bind (.setKind nofun rfl) fun _ => .bind (.consumeAt nofun) fun _ =>
    .field (.call (.inr (.inl rfl)) rfl)

theorem forLoopAt :
    Orderly text g k f ⟨.empty, some .forKw, m, o, .proper⟩ g.forLoop
      fun _ => ⟨.empty, none, true, o, .proper⟩ :=
  .bind (.setKind nofun rfl) fun _ => .bind (.consumeAt nofun) fun _ => .freely <|
    .bind (.field (.call (.inl rfl) rfl)) fun _ => .bind (.expect rfl) fun _ =>
    .bind (.field .headExpression) fun _ => .field (.call (.inl rfl) rfl)

/-- A loop or a block takes the quote of its label. -/
theorem labeledAt :
    Orderly text g k f ⟨.empty, some .quote, m, o, F⟩ g.labeled
      fun n => ⟨.node n, none, true, o, F⟩ := by
  have hbegins : Standing.proper.Begins .block := show Kind.isFree .block = true from rfl
  have hlabel : Orderly text g k f ⟨.empty, some .quote, m, o, F⟩
      (Parse.collect (.ofKind .block) do
        Parse.child (Parse.quotedName .label)
        Parse.expect .colon) fun d => ⟨.draft d .proper, none, true, o, F⟩ :=
    .collect hbegins <| .bind (.child (.quotedNameAt rfl)) fun _ => .expect rfl
  refine .sure _ (fun hs _ hrun => label_faultless hs hrun) hlabel fun d hd => .kind fun c _ => ?_
  split
  · exact .resume .endlessLoopAt
  · exact .resume .whileLoopAt
  · exact .resume .forLoopAt
  · exact .guarded hd (.perhaps (.resume .blockBody)) (.forgive .skipGroup)
  · have hfail : Orderly text g k f ⟨.empty, some c, true, o, .proper⟩
        (do reportExpected "loop or block"; Parse.failDraft) fun _ => ⟨.empty, none, true, o, .fair⟩ :=
      .after (.bind (.report (aside_reportExpected _)) fun _ => .failDraft nofun) fun _ =>
        .less (.inl rfl) id (fun _ => rfl) (.owed rfl)
    exact .bind (.refill hfail) fun _ => .finish nofun

/-! ### Structures -/

theorem fieldInitializer :
    Orderly text g k true ⟨.empty, a, m, o, F⟩ g.fieldInitializer
      fun n => ⟨.node n, none, m, o, F⟩ := by
  refine .bind .flush fun _ => .look (fun _ _ => rfl) fun s _ => ?_
  split
  · exact .node rfl <| .bind .consume fun _ => .child (.call (.inl rfl) rfl)
  · split
    · exact .node rfl <| .bind .memberName fun _ => .bind .consume fun _ =>
        .field (.call (.inl rfl) rfl)
    · refine .node rfl ?_
      split
      · exact .consume
      · exact .expectName rfl

theorem structExpression {path : Node} :
    Orderly text g k f ⟨.node path, a, m, o, F⟩ (g.structExpression path)
      fun n => ⟨.node n, none, m, o, F⟩ :=
  .recast (.type path) <| .node rfl <| .bind .pushField fun _ => .field <| .fairNode rfl <|
    .unrestricted <| .list Grammar.steady_fieldInitializerList <| .bind .attributes fun _ =>
    .child .fieldInitializer

theorem pathExpression :
    Orderly text g k f ⟨.empty, a, m, o, F⟩ g.pathExpression
      fun n => ⟨.node n, none, m, o, F⟩ := by
  refine .bind .valuePath fun path => ?_
  extract_lets isName
  refine .look (fun _ _ => rfl) fun s _ => ?_
  split
  · next hs =>
    have hk : s.kind = .bang :=
      eq_of_beq (Bool.and_eq_true_iff.1 (Bool.and_eq_true_iff.1 hs).2).1
    rw [hk]
    exact .perhaps .macroCallAt
  · split
    · refine .bind (.beside aside_restriction) fun _ => ?_
      split
      · exact .bind (.beside (aside_settle _ _)) fun _ => .pure .forget
      · exact .bind (.beside (aside_settle _ _)) fun _ => .structExpression
    · exact .pure .forget

/-! ### Between parentheses and brackets -/

theorem furtherElements :
    Orderly text g k true ⟨.empty, a, m, o, F⟩ g.furtherElements
      fun _ => ⟨.empty, none, m, o, F⟩ := by
  refine .repeatWhile <| .isAt ?_ (.pure .forget)
  refine .bind (.consumeAt nofun) fun _ => .bind .flush fun _ =>
    .bind (.beside aside_isAtExpression) fun _ => ?_
  split
  · exact .bind (.child (.call (.inl rfl) rfl)) fun _ => .pure (.refl _)
  · exact .pure .halt

theorem parenthesizedAt :
    Orderly text g k f ⟨.empty, some .openParen, m, o, F⟩ g.parenthesized
      fun n => ⟨.node n, none, true, o, F⟩ := by
  refine .node rfl <| .bind (.beside (aside_ahead 1)) fun _ => ?_
  split
  · exact .bind (.setKind nofun rfl) fun _ => .bind (.consumeAt nofun) fun _ => .consume
  · exact .bind (.beside aside_tokenRange) fun _ => .bind (.consumeAt nofun) fun _ =>
      .freely <| .bind (.unrestricted <| .bind (.child (.call (.inl rfl) rfl)) fun _ =>
        .bind (.ifAt (.forget (.setKind nofun rfl))) fun _ => .furtherElements) fun _ => .close

theorem arrayElements :
    Orderly text g k true ⟨.empty, a, m, o, .proper⟩ g.arrayElements
      fun _ => ⟨.empty, none, m, o, .proper⟩ := by
  refine .bind .flush fun _ => .bind (.beside aside_isAtExpression) fun _ => ?_
  split
  · exact .bind (.child (.call (.inl rfl) rfl)) fun _ => .isAt
      (.bind (.beside (aside_settle _ _)) fun _ => .bind .consume fun _ =>
        .field (.call (.inl rfl) rfl))
      .furtherElements
  · exact .pure .forget

theorem arrayExpressionAt :
    Orderly text g k f ⟨.empty, some .openBracket, m, o, F⟩ g.arrayExpression
      fun n => ⟨.node n, none, true, o, F⟩ :=
  .node rfl <| .bind (.beside aside_tokenRange) fun _ => .bind (.consumeAt nofun) fun _ =>
    .freely <| .bind (.unrestricted .arrayElements) fun _ => .close

/-! ### Any primary expression -/

theorem noExpression :
    Orderly text g k f ⟨.empty, a, m, o, F⟩ Grammar.noExpression
      fun n => ⟨.node n, none, m, o, F⟩ := by
  refine .forgive <| .bind (.report (aside_reportExpected _)) fun _ => .kind fun c _ => ?_
  split
  · exact .forget (.missing rfl)
  · exact .skipGroup

/-- A primary expression may begin with a block, which is another nonterminal. -/
theorem primary (hr : f = true ∨ 0 < k) :
    Orderly text g k f ⟨.empty, a, m, o, F⟩ g.primary fun n => ⟨.node n, none, m, o, F⟩ := by
  have hr' : f = true ∨ m = true ∨ Nonterminal.block.rank < k := hr.imp_right .inr
  refine .look (fun _ _ => rfl) fun s _ => ?_
  split
  case h_1 | h_2 | h_3 | h_4 | h_5 | h_6 | h_7 => exact .literal
  case h_8 hk => exact .perhaps (.leaf (by rw [hk]; nofun) readAs_none)
  case h_18 hk => exact hk ▸ .perhaps .parenthesizedAt
  case h_19 hk => exact hk ▸ .perhaps .arrayExpressionAt
  case h_20 => exact .anywhere (.call hr' rfl)
  case h_21 hk => exact hk ▸ .perhaps .labeledAt
  case h_22 hk =>
    rw [hk]
    split
    · exact .perhaps <| .node rfl <| .bind (.consumeAt nofun) fun _ =>
        .child (.call (.inr (.inl rfl)) rfl)
    · exact .noExpression
  case h_23 hk =>
    rw [hk]
    exact .perhaps <| .node rfl <| .bind (.consumeAt nofun) fun _ =>
      .bind .consumeIf fun _ => .child (.call (.inr (.inl rfl)) rfl)
  case h_24 hk =>
    rw [hk]
    split
    · exact .perhaps <| .node rfl <| .bind (.consumeAt nofun) fun _ =>
        .field (.call (.inr (.inl rfl)) rfl)
    · exact .noExpression
  case h_25 hk => exact hk ▸ .perhaps .ifExpressionAt
  case h_26 hk => exact hk ▸ .perhaps .matchExpressionAt
  case h_27 hk => exact hk ▸ .perhaps (.node rfl .whileLoopAt)
  case h_28 hk => exact hk ▸ .perhaps (.node rfl .endlessLoopAt)
  case h_29 hk => exact hk ▸ .perhaps (.node rfl .forLoopAt)
  case h_30 hk =>
    refine .bind (.beside aside_restriction) fun _ => ?_
    split
    · exact hk ▸ .perhaps .letConditionAt
    · exact .noExpression
  case h_31 => exact .noExpression
  all_goals exact .pathExpression

/-! ### Before an operand -/

theorem referenceModifier :
    Orderly text g k f ⟨.empty, a, m, o, F⟩ Grammar.referenceModifier
      fun _ => ⟨.empty, none, m, o, F⟩ := by
  refine .bind (.beside (aside_ahead 1)) fun next => ?_
  rw [Grammar.referenceModifier_raw]
  refine .bind (.beside (aside_isAtWord _)) fun _ => ?_
  split
  · exact .bind .takeWord fun _ => .consume
  · exact .consumeIf

/-- The operand of a reference inside another one may stand at any token, but it is another
nonterminal. -/
theorem reference (hr : f = true ∨ 1 < k) :
    Orderly text g k f ⟨.empty, a, m, o, F⟩ g.reference fun n => ⟨.node n, none, m, o, F⟩ := by
  have hr' : f = true ∨ m = true ∨ Nonterminal.operand.rank < k := hr.imp_right .inr
  refine .node rfl <| .isAt ?_ ?_
  · exact .perhaps <| .bind (.split Scanner.splitsInto_ampAmp) fun _ =>
      .bind (.consumeAt nofun) fun _ => .field (.call (.inr (.inl rfl)) rfl)
  · exact .bind .consume fun _ => .bind .referenceModifier fun _ => .field (.call hr' rfl)

theorem referenceAt {c : Kind} (hc : c = .amp ∨ c = .ampAmp) :
    Orderly text g k f ⟨.empty, some c, m, o, F⟩ g.reference
      fun n => ⟨.node n, none, true, o, F⟩ := by
  refine .node rfl <| .isAt ?_ ?_
  · exact .bind (.split Scanner.splitsInto_ampAmp) fun _ =>
      .bind (.consumeAt nofun) fun _ => .field (.call (.inr (.inl rfl)) rfl)
  · have hend : c ≠ .endOfFile := by rcases hc with rfl | rfl <;> nofun
    exact .bind (.consumeAt hend) fun _ => .bind .referenceModifier fun _ =>
      .field (.call (.inr (.inl rfl)) rfl)

/-- The value of a jump comes after its word. -/
theorem jumpValue :
    Orderly text g k f ⟨.empty, none, true, o, F⟩ g.jumpValue
      fun _ => ⟨.empty, none, true, o, F⟩ := by
  refine .bind (.beside aside_isAtExpression) fun _ => ?_
  split
  · exact .child (.call (.inr (.inl rfl)) rfl)
  · exact .pure (.refl _)

theorem resultJumpAt {kind c : Kind} (hk : kind.isFree = true) (hc : c ≠ .endOfFile) :
    Orderly text g k f ⟨.empty, some c, m, o, F⟩ (g.resultJump kind)
      fun n => ⟨.node n, none, true, o, F⟩ :=
  .node hk <| .bind (.consumeAt hc) fun _ => .jumpValue

theorem labelIf :
    Orderly text g k f ⟨.empty, a, m, o, F⟩ Grammar.labelIf fun _ => ⟨.empty, none, m, o, F⟩ :=
  .ifAt (.child (.quotedName rfl))

/-- A closure takes the word or the bar that it begins with. -/
theorem closureAt {c : Kind} (hc : c = .asyncKw ∨ c = .moveKw ∨ c = .pipe ∨ c = .pipePipe) :
    Orderly text g k f ⟨.empty, some c, m, o, F⟩ g.closure
      fun n => ⟨.node n, none, true, o, F⟩ := by
  have hbars {o : Bool} : Orderly text g k true ⟨.empty, none, false, o, .proper⟩
      (do Parse.flush; Parse.field .parameters g.closureParameters; g.closureBody)
      fun _ => ⟨.empty, none, false, o, .proper⟩ :=
    .bind .flush fun _ => .bind (.field .closureParameters) fun _ => .closureBody
  refine .node rfl ?_
  rcases hc with rfl | rfl | hc
  · exact .bind (.consumeIfAt nofun) fun _ => .past <| .bind .consumeIf fun _ => hbars
  · exact .bind (.ifOther nofun) fun _ => .bind (.consumeIfAt nofun) fun _ => .past hbars
  · have hasync : c ≠ .asyncKw := by rcases hc with rfl | rfl <;> nofun
    have hmove : c ≠ .moveKw := by rcases hc with rfl | rfl <;> nofun
    exact .bind (.ifOther hasync) fun _ => .bind (.ifOther hmove) fun _ => .bind .flush fun _ =>
      .bind (.field (.closureParametersAt hc)) fun _ => .past .closureBody

/-! ### Any expression -/

theorem postfixed (hr : f = true ∨ 0 < k) :
    Orderly text g k f ⟨.empty, a, m, o, F⟩ g.postfixed fun n => ⟨.node n, none, m, o, F⟩ :=
  .bind (.primary hr) fun _ => .postfixForms

theorem prefixed (hr : f = true ∨ 0 < k) :
    Orderly text g k f ⟨.empty, a, m, o, F⟩ g.prefixed fun n => ⟨.node n, none, m, o, F⟩ := by
  have hunary {c : Kind} (hc : c ≠ .endOfFile) :
      Orderly text g k f ⟨.empty, some c, m, o, F⟩ g.unary fun n => ⟨.node n, none, m, o, F⟩ :=
    .perhaps <| .node rfl <| .bind (.consumeAt hc) fun _ => .child (.call (.inr (.inl rfl)) rfl)
  have hrange {c : Kind} (hc : c ≠ .endOfFile) :
      Orderly text g k f ⟨.empty, some c, m, o, F⟩ g.rangeBefore
        fun n => ⟨.node n, none, m, o, F⟩ :=
    .perhaps <| .node rfl <| .bind (.consumeAt hc) fun _ => .rangeEnd
  refine .look (fun _ _ => rfl) fun s _ => ?_
  split
  case h_1 hk | h_2 hk | h_3 hk => exact hunary (by rw [hk]; nofun)
  case h_4 hk => exact hk ▸ .perhaps (.referenceAt (.inl rfl))
  case h_5 hk => exact hk ▸ .perhaps (.referenceAt (.inr rfl))
  case h_6 hk | h_7 hk => exact hrange (by rw [hk]; nofun)
  case h_8 hk | h_9 hk | h_10 hk => exact hk ▸ .perhaps (.closureAt (by simp))
  case h_11 hk =>
    split
    · exact hk ▸ .perhaps (.closureAt (.inl rfl))
    · exact .postfixed hr
  case h_12 hk | h_13 hk => exact hk ▸ .perhaps (.resultJumpAt rfl nofun)
  case h_14 hk =>
    rw [hk]
    exact .perhaps <| .node rfl <| .bind (.consumeAt nofun) fun _ => .bind .labelIf fun _ =>
      .jumpValue
  case h_15 => exact .node rfl <| .bind .consume fun _ => .labelIf
  case h_16 => exact .postfixed hr

theorem expressionFrom {min : Precedence} (hr : f = true ∨ 0 < k) :
    Orderly text g k f ⟨.empty, a, m, o, F⟩ (g.expressionFrom min)
      fun n => ⟨.node n, none, m, o, F⟩ :=
  .bind .flush fun _ => .deeper <| .bind (.prefixed hr) fun _ => .infixForms

theorem operand (hr : f = true ∨ 0 < k) :
    Orderly text g k f ⟨.empty, a, m, o, F⟩ g.operand fun n => ⟨.node n, none, m, o, F⟩ :=
  .bind .flush fun _ => .deeper (.prefixed hr)

end Orderly

end ConcreteSyntax
