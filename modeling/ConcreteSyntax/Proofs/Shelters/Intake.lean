import ConcreteSyntax.Grammar.Expression.Infix
import ConcreteSyntax.Grammar.TokenTree
import ConcreteSyntax.Proofs.Shelters.Rules

/-! # Tokens that shelter literals

A token exposes no literal, and neither does a row of tokens that was skipped. A delimiter that opens a
group shelters what stands behind it (`Parse.Shelters.enclosed`), so the elements of a list between
delimiters may be read in any way (`Parse.Shelters.group`), but those of a list between `<` and `>` may
not (`Parse.Shelters.list`). -/

namespace ConcreteSyntax

namespace Kind

theorem isHeadless_of_lexeme {k : Kind} (h : k ∈ Scanner.kinds) : k.isHeadless = true := by
  revert k
  decide +kernel

theorem isHeadless_of_isOpen {k : Kind} (h : k.isOpen = true) : k.isHeadless = true := by
  revert h
  cases k <;> decide

end Kind

theorem Frame.opens_of_isHeadless {k : Kind} (h : k.isHeadless = true) :
    headless.opens k = true := by
  simp [opens, Kind.ne_of_isHeadless h, Kind.headLabel?_of_isHeadless h]

theorem Draft.fine_ofKind {p : Pledge} {kind : Kind} (hk : kind ≠ .structExpression) :
    (ofKind kind).Fine p :=
  ⟨fun _ h => (nomatch h), fun _ h => (nomatch h), fun _ h => h.elim hk Node.exposing_nil⟩

theorem Scanner.mem_kinds_of_reshapes {k first : Kind} (h : first ∈ k.reshapes) :
    first ∈ kinds := by
  unfold Kind.reshapes at h
  split at h
  · exact List.mem_singleton.1 h ▸ by decide +kernel
  · exact List.mem_singleton.1 h ▸ by decide +kernel
  · exact List.mem_singleton.1 h ▸ by decide +kernel
  · simp only [List.mem_cons, List.not_mem_nil, or_false] at h
    rcases h with rfl | rfl | rfl <;> decide +kernel
  · exact nomatch h

namespace Parse

/-- A kind under which a token may be read without becoming a literal or a construct with a head. -/
def PlainAs (as? : Option Kind) : Prop := ∀ kind ∈ as?, kind.isHeadless = true

/-- The kind of a number or a name between other tokens. -/
theorem plainAs_some {kind : Kind} (h : kind.isHeadless = true) : PlainAs (some kind) := by
  rintro _ ⟨⟩
  exact h

namespace Shelters

variable {α β : Type} {text : List Char} {a : Option Kind} {p : Pledge} {T : Frame}
  {Q : α → Prop} {R : β → Prop}

/-! ### Tokens -/

/-- A token that was taken, and the comments before it. -/
theorem taken {σ : Setting} {s : Session} {next : Admitted} (hs : s.Stands text a)
    (hn : next.ReadsLiterals) :
    (s.taken σ next).Stands text none ∧ s.Adds (s.taken σ next) ∧
      Session.Fills p T s.draft (s.taken σ next).draft := by
  refine ⟨⟨hs.sound.taken σ hn, Scanner.scan_mem_kinds _ _, nofun⟩,
    ⟨Report.grows_addAll _ _, List.suffix_rfl⟩, ?_⟩
  show Session.Fills p T s.draft
    (if σ.options.keepComments then s.draft.extend s.comments else s.draft)
  split
  · refine .extendPlain fun c hc => ?_
    obtain ⟨t, ht, rfl⟩ := List.mem_map.1 hc
    obtain ⟨hl, hk⟩ := hs.sound.leading.of_mem ht
    have hatomic := Node.atomic_ofComment hl hk
    exact ⟨rfl, hatomic.not_exposes, hatomic.sheltered⟩
  · exact .refl _

theorem flush : Shelters text a p T Anything Parse.flush := by
  refine ⟨fun {σ s _ _} _ hs hrun => ?_⟩
  obtain ⟨-, rfl⟩ := Prod.mk.inj (Option.some.inj ((flush_run σ s).symm.trans hrun))
  have hread : Admitted.usual.ReadsLiterals := ⟨rfl, rfl⟩
  -- the comments are moved as they are where the token is taken, too
  exact ⟨⟨hs.sound.flushed σ, hs.lexeme, nofun⟩, ⟨.refl _, List.suffix_rfl⟩,
    (taken hs hread).2.2, trivial⟩

theorem atomic_current {s : Session} (hs : s.Stands text a) {as? : Option Kind}
    (has : PlainAs as?) : (Node.ofToken s.scanner.token as?).Atomic := by
  refine Node.atomic_ofToken hs.sound.scanner.laid ?_
  cases as? with
  | none => exact Kind.isHeadless_of_lexeme hs.lexeme
  | some kind => exact has kind rfl

theorem take {as? : Option Kind} {next : Admitted} (has : PlainAs as?)
    (hn : next.ReadsLiterals) :
    Shelters text a p T (IfAny Node.Atomic) (Parse.take as? next) := by
  refine ⟨fun _ hs hrun => ?_⟩
  rw [take_run] at hrun
  split at hrun
  · obtain ⟨rfl, rfl⟩ := Prod.mk.inj (Option.some.inj hrun)
    exact ⟨hs.anywhere, .refl _, .refl _, nofun⟩
  · obtain ⟨rfl, rfl⟩ := Prod.mk.inj (Option.some.inj hrun)
    obtain ⟨hstands, hadds, hfills⟩ := taken hs hn
    refine ⟨hstands, hadds, hfills, ?_⟩
    rintro _ ⟨⟩
    exact atomic_current hs has

/-- A token may be taken under any label. -/
theorem consumeWith {label : Option Field} {as? : Option Kind} {next : Admitted}
    (has : PlainAs as?) (hn : next.ReadsLiterals) :
    Shelters text a p T Anything (Parse.consumeWith label as? next) := by
  refine .draw (.take has hn) fun o ho => ?_
  cases o with
  | none => exact .pure _
  | some n =>
    have hatomic := ho n rfl
    exact change fun _ => .pushChild (hatomic.fine p) fun _ _ _ _ => hatomic.not_exposes

theorem consume : Shelters text a p T Anything Parse.consume := .consumeWith nofun ⟨rfl, rfl⟩

theorem consumeField {label : Field} : Shelters text a p T Anything (Parse.consumeField label) :=
  .consumeWith nofun ⟨rfl, rfl⟩

theorem consumeAs {kind : Kind} (hk : kind.isHeadless = true) :
    Shelters text a p T Anything (Parse.consumeAs kind) :=
  .consumeWith (plainAs_some hk) ⟨rfl, rfl⟩

theorem consumeFieldAs {label : Field} {kind : Kind} (hk : kind.isHeadless = true) :
    Shelters text a p T Anything (Parse.consumeFieldAs label kind) :=
  .consumeWith (plainAs_some hk) ⟨rfl, rfl⟩

/-- **Behind a delimiter anything goes.** -/
theorem enclosed {c : Kind} (hc : c.isOpen = true) {K : Unit → Parse α}
    (h : Shelters text none .anywhere T Q (K ())) :
    Shelters text (some c) p T Q (Parse.consume >>= K) := by
  refine ⟨fun {σ s _ _} hp hs hrun => ?_⟩
  obtain ⟨_, t, hconsume, hrest⟩ := bind_eq_some.1 hrun
  have hfirst : Shelters text (some c) p T Anything Parse.consume := .consume
  obtain ⟨hstands, hadds, hfills, -⟩ := hfirst.follow hp hs hconsume
  obtain ⟨hstands', hadds', hfills', hr⟩ := h.follow nofun hstands hrest
  -- the delimiter is in the draft
  have hk : s.kind = c := hs.at? c rfl
  have hend : s.kind ≠ .endOfFile := by
    rw [hk]
    rintro rfl
    exact nomatch hc
  have hopener : Node.ofToken s.scanner.token none ∈ t.draft.row := by
    have hrun' := (consumeWith_run none none .usual σ s).symm.trans hconsume
    rw [if_neg hend] at hrun'
    obtain ⟨-, rfl⟩ := Prod.mk.inj (Option.some.inj hrun')
    simp [Draft.row, Draft.pushChild]
  have ho : (Node.ofToken s.scanner.token none).isOpener = true :=
    Node.isOpener_ofToken (by rw [show s.scanner.token.kind = c from hk, hc])
  exact ⟨hstands', hadds.trans hadds', hfills.trans (hfills'.behind hopener ho), hr⟩

/-- A token that is cut down to its first part. -/
theorem split {c first : Kind} (hc : Scanner.SplitsInto c first) :
    Shelters text (some c) p T Anything (Parse.split first) := by
  refine ⟨fun {σ s _ _} _ hs hrun => ?_⟩
  obtain ⟨-, rfl⟩ := Prod.mk.inj (Option.some.inj hrun)
  have hk : s.scanner.kind = c := hs.at? c rfl
  obtain ⟨hr, hfirst⟩ := Scanner.split_reshaped hs.sound.scanner (hk ▸ hc)
  have hsound := (Session.Onward.of_reshaped hs.sound hr).sound
  refine ⟨⟨hsound, ?_, nofun⟩, ⟨.refl _, List.suffix_rfl⟩, .refl _, trivial⟩
  show (s.scanner.split first).kind ∈ _
  rw [hfirst]
  exact Scanner.mem_kinds_of_reshapes hc.spelled.1

theorem operatorKind : Shelters text a p T Anything Parse.operatorKind := by
  refine ⟨fun {σ s _ _} _ hs hrun => ?_⟩
  obtain ⟨_, _, h₁, hrun⟩ := bind_eq_some.1 hrun
  obtain ⟨-, rfl⟩ := Prod.mk.inj (Option.some.inj h₁)
  obtain ⟨-, rfl⟩ := Prod.mk.inj (Option.some.inj hrun)
  have hr := Scanner.joinGreater_reshaped hs.sound.scanner
  have hsound := (Session.Onward.of_reshaped hs.sound hr).sound
  refine ⟨⟨hsound, ?_, nofun⟩, ⟨.refl _, List.suffix_rfl⟩, .refl _, trivial⟩
  rcases hr.kind with hk | hk
  · show s.scanner.joinGreater.kind ∈ _
    rw [hk]
    exact hs.lexeme
  · exact Scanner.mem_kinds_of_reshapes hk

/-! ### What has to come next -/

theorem missing {kind : Kind} (hk : kind.isHeadless = true) :
    Shelters text a p T (Node.Fine p) (Parse.missing kind) :=
  .look fun _ => .give ((Node.atomic_leaf hk).fine p)

theorem pushMissing {kind : Kind} (hk : kind.isHeadless = true) :
    Shelters text a p T Anything (Parse.pushMissing kind) :=
  .draw (.missing hk) fun _ h => .push h

theorem pushMissingField {label : Field} {kind : Kind} (hk : kind.isHeadless = true) :
    Shelters text a p T Anything (Parse.pushMissingField label kind) :=
  .draw (.look fun _ => .give (Node.atomic_leaf hk)) fun _ h =>
    .pushHead ⟨h.sheltered, fun _ => h.not_exposes⟩

theorem leaf {as? : Option Kind} (has : PlainAs as?) :
    Shelters text a p T (Node.Fine p) (Parse.leaf as?) := by
  refine .draw (.take has ⟨rfl, rfl⟩) fun o ho => ?_
  cases o with
  | none =>
    refine .missing ?_
    cases as? with
    | none => rfl
    | some kind => exact has kind rfl
  | some n => exact .give ((ho n rfl).fine p)

theorem expect {kind : Kind} (hk : kind.isHeadless = true) :
    Shelters text a p T Anything (Parse.expect kind) :=
  .isAt .consume (.bind .reportHere fun _ => .pushMissing hk)

theorem provided {condition : Bool} {body : Parse Unit} (h : Shelters text a p T Anything body) :
    Shelters text a p T Anything (Parse.provided condition body) :=
  .choose h (.pure _)

theorem providedThat {m : Parse Bool} {body : Parse Unit} (hm : Shelters text a p T Anything m)
    (h : Shelters text none p T Anything body) :
    Shelters text a p T Anything (do Parse.provided (← m) body) :=
  .bind hm fun _ => .provided h

theorem ifAt {kind : Kind} {body : Parse Unit} (h : Shelters text (some kind) p T Anything body) :
    Shelters text a p T Anything (Parse.ifAt kind body) :=
  .isAt h (.pure _)

theorem consumeIf {kind : Kind} : Shelters text a p T Anything (Parse.consumeIf kind) :=
  .ifAt .consume

theorem accept {kind : Kind} : Shelters text a p T Anything (Parse.accept kind) :=
  .isAt (.bind .consume fun _ => .pure _) (.pure _)

theorem expectName {label : Field} {kind : Kind} (hk : kind.isHeadless = true) :
    Shelters text a p T Anything (Parse.expectName label kind) := by
  refine .kind fun c => ?_
  split
  · exact .consumeFieldAs hk
  · exact .consumeField
  · exact .bind .reportExpected fun _ => .pushMissingField hk

theorem markOrName {mark : Kind} {label : Field} :
    Shelters text a p T Anything (Parse.markOrName mark label) :=
  .isAt .consumeField (.expectName rfl)

/-! ### Groups and nesting -/

theorem skipNext {nesting : Nat} :
    Shelters text a p T (Step.Ends Anything Anything) (Parse.skipNext nesting) := by
  have hends (b : Bool) (n : Nat) :
      Step.Ends Anything Anything (if b then .done () else .again n : Step Nat Unit) := by
    cases b <;> trivial
  exact .kind fun c => .choose (.give trivial) (.bind .consume fun _ => .give (hends _ _))

theorem skipGroup : Shelters text a p T (Node.Fine p) Parse.skipGroup :=
  .node rfl <| .kind fun _ => .choose (.pure _) (.loop (fun _ _ => .skipNext) trivial)

theorem skipNested : Shelters text a p T (Node.Fine p) Parse.skipNested :=
  .bind .reportLimit fun _ => .skipGroup

/-- One level deeper, or what is skipped instead. -/
theorem guarded {body : Parse Node} (h : Shelters text a p T (Node.Fine p) body) :
    Shelters text a p T (Node.Fine p) (Parse.guarded body) := by
  refine ⟨fun {σ s _ _} hp hs hrun => ?_⟩
  rw [guarded_eq] at hrun
  split at hrun
  · exact h.follow (σ := { σ with depth := σ.depth + 1 }) hp hs hrun
  · exact skipNested.follow hp hs hrun

/-! ### Braces that were skipped -/

theorem countBrace {c : Kind} : Shelters text a p T Anything (Parse.countBrace c) :=
  .choose (.openBraces (· + 1)) (.pure _)

theorem absorbBrace : Shelters text a p T Anything Parse.absorbBrace :=
  .look fun _ => .choose (.bind (.openBraces (· - 1)) fun _ => .bind .note fun _ => .bind .consume fun _ =>
    .pure _) (.pure _)

/-! ### Up to a terminator -/

theorem skipUntil {terminator : Kind} :
    Shelters text a p T Anything (Parse.skipUntil terminator) :=
  .kind fun _ => .choose (.pure _) (.bind .countBrace fun _ => .bind .consume fun _ => .pure _)

theorem recoverUntil {terminator : Kind} :
    Shelters text a p T Anything (Parse.recoverUntil terminator) :=
  .bind .offset fun _ => .bind .note fun _ => .bind .reportUnexpected fun _ => .bind .flush fun _ =>
    .child (.node rfl (.repeatWhile .skipUntil))

/-! ### Delimiters -/

theorem reportUnclosed {opener closer : Kind} {range : Range} :
    Shelters text a p T Anything (Parse.reportUnclosed opener closer range) :=
  .isAt .reportAt .reportHere

theorem close {opener : Kind} {range : Range} :
    Shelters text a p T Anything (Parse.close opener range) := by
  have hcloser : (opener.closer?.getD .closeParen).isHeadless = true := by cases opener <;> rfl
  exact .isAt .consume (.bind .reportUnclosed fun _ => .pushMissing hcloser)

theorem missingGroup {opener closer : Kind} (ho : opener.isHeadless = true)
    (hc : closer.isHeadless = true) :
    Shelters text a p T Anything (Parse.missingGroup opener closer) :=
  .bind .reportHere fun _ => .bind (.pushMissing ho) fun _ => .pushMissing hc

/-! ### Lists -/

/-- The children of a draft. -/
theorem pushAll {d : Draft} (h : d.Fine p) :
    Shelters text a p T Anything (Parse.pushAll d.children.toList) :=
  change fun _ => .extend h.sheltered (fun hp he => h.exposes hp (.inr he)) fun _ => h.heads

section Lists

variable {form : ListForm} {element : Parse Unit}

theorem skipInList : Shelters text a p T Anything (Parse.skipInList form) :=
  .look fun _ => .choose (.pure _) (.choose (.pure _)
    (.bind .countBrace fun _ => .bind .consume fun _ => .pure _))

theorem placeSkipped {d : Draft} (h : d.Fine p) :
    Shelters text a p T Anything (Parse.placeSkipped form d) := by
  refine .choose (.pure _) (.kind fun _ => .choose ?_ ?_)
  · exact .draw (.finish h.sheltered h.heads h.exposes) fun _ hn => .bind (.push hn) fun _ => .pure _
  · exact .bind (.pushAll h) fun _ => .pure _

theorem recoverInList : Shelters text a p T Anything (Parse.recoverInList form) :=
  .bind .offset fun _ => .bind .note fun _ => .bind .reportUnexpected fun _ =>
    .draw (.collect (Draft.fine_ofKind (by decide)) (.repeatWhile .skipInList)) fun _ h =>
      .placeSkipped h

theorem missingComma : Shelters text a p T Anything Parse.missingComma :=
  .bind .reportHere fun _ => .pushMissing rfl

theorem afterElement {before : Nat} :
    Shelters text a p T Anything (Parse.afterElement form before) :=
  .look fun _ => .choose (.bind .consume fun _ => .pure _) (.choose (.pure _)
    (.choose (.pure _) (.bind (.provided .missingComma) fun _ => .pure _)))

theorem listElement (h : Shelters text none p T Anything element) :
    Shelters text a p T Anything (Parse.listElement form element) :=
  .bind .offset fun _ => .bind h fun _ => .afterElement

theorem listEntry (h : Shelters text none p T Anything element) {c : Kind} :
    Shelters text a p T Anything (Parse.listEntry form element c) :=
  .choose (.test (.listElement h) (.pure _) .recoverInList) .recoverInList

theorem listTurn (h : Shelters text none p T Anything element) :
    Shelters text a p T (Step.Ends Anything Anything) (Parse.listTurn form element) :=
  .bind .flush fun _ => .kind fun _ => .choose (.bind .consume fun _ => .give trivial)
    (.choose (.give trivial) (.test (.listEntry h) (.give trivial) (.give trivial)))

/-- The elements of a list, and what becomes of a list that never closes. -/
theorem listRest (h : Shelters text none p T Anything element) {range : Range} :
    Shelters text a p T Anything (do
      unless ← Parse.listRest form element do
        Parse.note (.unclosedList form.opener range.start)
        Parse.reportAt range .unclosed [form.opener.name]
        Parse.failDraft) :=
  .test (.loop (fun _ _ => .listTurn h) trivial) (.pure _)
    (.bind .note fun _ => .bind .reportAt fun _ => .failDraft)

/-- A list whose elements expose no more than they may without it. -/
theorem list (ho : form.opener.isHeadless = true) (hc : form.closer.isHeadless = true)
    (h : Shelters text none p T Anything element) :
    Shelters text a p T Anything (Parse.list form element) :=
  .isAt (.tokenRange fun _ => .bind .consume fun _ => .listRest h) (.missingGroup ho hc)

/-- A list between delimiters, the elements of which may be read in any way. -/
theorem group (ho : form.opener.isOpen = true) (hc : form.closer.isHeadless = true)
    (h : Shelters text none .anywhere T Anything element) :
    Shelters text a p T Anything (Parse.list form element) :=
  .isAt (.tokenRange fun _ => .enclosed ho (.listRest h))
    (.missingGroup (Kind.isHeadless_of_isOpen ho) hc)

end Lists

/-! ### Literals -/

theorem inheritError {n : Node} : Shelters text a p T Anything (Parse.inheritError n) :=
  change fun _ => ⟨List.prefix_rfl, id, by cases T <;> exact id, id, fun _ => id⟩

/-- The pieces of a token. -/
theorem unpack {n : Node} (h : n.Atomic) :
    Shelters text a p T Anything (Parse.pushAll n.children) :=
  change fun _ => .extendPlain h.children

theorem consumeNumber {next : Admitted} (hn : next.ReadsLiterals) :
    Shelters text a p T Anything (Parse.consumeNumber next) := by
  refine .draw (.take nofun hn) fun o ho => ?_
  cases o with
  | none => exact .pure _
  | some n =>
    have hatomic := ho n rfl
    exact .choose (.push (hatomic.fine p)) (.bind .inheritError fun _ => .unpack hatomic)

theorem number {kind : Kind} (hk : Frame.headless.opens kind = true) :
    Shelters text a p T (Node.Fine p) (Parse.number kind) :=
  .node hk (.bind (.consumeNumber ⟨rfl, rfl⟩) fun _ => .consumeIf)

theorem quotedLiteral : Shelters text a p T (Node.Fine p) Parse.quotedLiteral := by
  refine .draw (.take nofun ⟨rfl, rfl⟩) fun o ho => ?_
  cases o with
  | none => exact .missing rfl
  | some n =>
    have hatomic := ho n rfl
    refine .isAt (.node ?_ ?_) (.give (hatomic.fine p))
    · exact Frame.opens_of_isHeadless hatomic.headless
    · exact .bind .inheritError fun _ => .bind (.unpack hatomic) fun _ => .consume

theorem literal : Shelters text a p T (Node.Fine p) Parse.literal := by
  refine .bind .flush fun _ => .kind fun c => ?_
  split
  · exact .number rfl
  · exact .number rfl
  · exact .node rfl .consume
  · exact .node rfl .consume
  · exact .quotedLiteral
  · exact .quotedLiteral
  · exact .quotedLiteral
  · exact .bind .reportExpected fun _ => .missing rfl

theorem negativeLiteral : Shelters text a p T (Node.Fine p) Parse.negativeLiteral :=
  .node rfl <| .bind .consume fun _ => .child .literal

theorem tupleIndex : Shelters text a p T (Node.Fine p) Parse.tupleIndex :=
  .node rfl (.consumeNumber ⟨rfl, rfl⟩)

theorem memberName {label : Field} (hl : T.takes label = true) :
    Shelters text a p T Anything (Parse.memberName label) :=
  .isAt (.field hl .literal) (.consumeFieldAs rfl)

/-! ### Quoted names -/

theorem quotedName {kind : Kind} (hk : Frame.headless.opens kind = true) :
    Shelters text a p T (Node.Fine p) (Parse.quotedName kind) :=
  .node hk (.bind (.expect rfl) fun _ => .kind fun _ => .choose (.consumeAs rfl) (.choose .consume
    (.bind .reportExpected fun _ => .pushMissing rfl)))

theorem lifetime : Shelters text a p T (Node.Fine p) Parse.lifetime :=
  .bind .flush fun _ => .quotedName rfl

end Shelters

end Parse

end ConcreteSyntax
