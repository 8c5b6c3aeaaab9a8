import ConcreteSyntax.Proofs.Expression.Reads

/-! # Terms between delimiters

A term in parentheses, in the brackets of an index and among the arguments of a call. Each is read
as a whole expression, and its delimiters end it. -/

namespace ConcreteSyntax

open Parse
open Text (byteLength)
open Term (bracket)

variable {source : String} {draft : Draft} {cs : List Char} {kind : Kind} {s : Session}
  {σ : Setting} {n : Node} {e : Term} {text : List Char} {depth : Nat}

theorem Kind.below_of_none {p : Precedence} (h : OperatorClass.ofInfix? kind = none) :
    kind.Below p :=
  fun _ hc => nomatch h.symm.trans hc

theorem Setting.Plain.unrestricted (h : σ.Plain) : Setting.Plain { σ with restriction := {} } :=
  ⟨h.watches, rfl⟩

/-! ### Known runs -/

namespace Parse

/-- A part that is read only at another token is left out. -/
theorem ifAt_other {body : Parse Unit} (h : s.isAt kind = false) :
    ifAt kind body σ s = some ((), s) :=
  bind_eq_some.2 ⟨false, s, congrArg some (Prod.ext h rfl), rfl⟩

/-- A loop that asks for no second turn. -/
theorem repeatWhile_done {turn : Parse Bool} {t : Session} (h : turn σ s = some (false, t)) :
    repeatWhile turn σ s = some ((), t) :=
  loop_done (bind_eq_some.2 ⟨false, t, h, rfl⟩)

/-- The closer of a group. -/
theorem close_run (opener : Kind) {closer : Kind} {range : Range} {offset : Nat} {word rest : List Char}
    (h : s.Upon source draft offset closer word rest) (hc : opener.closer?.getD .closeParen = closer)
    (hk : closer.becomesLeaf = true) :
    ∃ s', close opener range σ s = some ((), s') ∧
      s'.Before source (draft.push (.simple closer ⟨offset, offset + byteLength word⟩)) rest := by
  obtain ⟨s', hconsume, hs'⟩ := h.consume (σ := σ) hk
  refine ⟨s', bind_eq_some.2 ⟨true, s, ?_, hconsume⟩, hs'.before⟩
  refine congrArg some (Prod.ext ?_ rfl)
  rw [hc, h.isAt]
  exact beq_self_eq_true closer

end Parse

/-- Where no `#` stands there are no attributes. -/
theorem Grammar.attributes_none {g : Grammar} (h : s.isAt .pound = false) :
    g.attributes σ s = some ((), s) :=
  repeatWhile_done (bind_eq_some.2 ⟨false, s, congrArg some (Prod.ext h rfl), rfl⟩)

/-! ### Parentheses -/

/-- Where no comma follows, the expression in parentheses is alone. -/
theorem Grammar.furtherElements_none {g : Grammar} (h : s.isAt .comma = false) :
    g.furtherElements σ s = some ((), s) :=
  repeatWhile_done (bind_eq_some.2 ⟨false, s, congrArg some (Prod.ext h rfl), rfl⟩)

/-- What is left to read in parentheses after an expression. -/
theorem Grammar.afterInside {g : Grammar} (h : s.isAt .comma = false) :
    (do ifAt .comma (setKind .tupleExpression); g.furtherElements : Parse Unit) σ s =
      some ((), s) :=
  bind_eq_some.2 ⟨(), s, ifAt_other h, furtherElements_none h⟩

/-- A term as a child. -/
theorem Parse.Gives.childTerm {body : Parse Node}
    (h : Gives text σ body s (e.Reads source draft cs)) :
    Gives text σ (Parse.child body) s
      fun _ t => ∃ n, n.IsTerm source e ∧ t.Before source (draft.push n) cs :=
  h.child fun n _ hn => ⟨n, hn.1, hn.2.draft_eq ▸ hn.2.withDraft _⟩

/-- A term whose place is closed after it. -/
theorem Term.ReadsWhole.inside (h : e.ReadsWhole source false .closure) (hσ : σ.Plain)
    (hs : s.Before source draft (e.text ++ cs)) (hf : Follower cs kind)
    (hk : kind.isPostfix = false ∧ OperatorClass.ofInfix? kind = none) :
    Gives source.toList σ (Grammar.upTo depth).expression s (e.Reads source draft cs) :=
  h hσ hs hf hk.1 (Kind.below_of_none hk.2)

theorem Term.ReadsWhole.bracketed (h : e.ReadsWhole source false .closure) :
    e.ReadsTight source true := by
  intro depth k σ draft cs kind s Q hσ hs hf hQ
  rw [bracket_true_append] at hs
  have hcloser := spells_delimiter ')' .closeParen cs (by decide)
  have hfollow := hcloser.follower (by decide) (by decide)
  obtain ⟨first, word, rest, hfirst, -⟩ := e.starts hfollow
  obtain ⟨offset, hupon⟩ := hs.upon (spells_delimiter '(' .openParen _ (by decide)) rfl
  have hwithin := hupon.withDraft (.ofKind .parenthesizedExpression)
  have hahead : (s.withDraft (.ofKind .parenthesizedExpression)).ahead 1 ≠ .closeParen := by
    rw [hwithin.ahead_spells hfirst.spells]
    rintro rfl
    exact nomatch hfirst.starts
  obtain ⟨t, hopen, ht⟩ := hwithin.consume (σ := σ) rfl
  have hinside : Gives source.toList { σ with restriction := {} }
      (do
        child (Grammar.upTo depth).expression
        ifAt .comma (setKind .tupleExpression)
        (Grammar.upTo depth).furtherElements) t
      fun _ u => ∃ n, n.IsTerm source e ∧ u.Before source (t.draft.push n) (')' :: cs) := by
    refine .bind (h.inside hσ.unrestricted (ht.draft ▸ ht.before) hfollow ⟨rfl, rfl⟩).childTerm
      (fun _ => ?_) ?_
    · exact .of_rule depth (.bind (.ifAt (.forget (.setKind nofun rfl))) fun _ => .furtherElements)
    · rintro ⟨⟩ u ⟨n, hn, hu⟩
      obtain ⟨offset, hclose⟩ := hu.upon hcloser rfl
      exact .of_run (Grammar.afterInside (hclose.isAt .comma)) ⟨n, hn, hu⟩
  have hparen : Gives source.toList σ (Grammar.upTo depth).primary s (e.Reads source draft cs) := by
    refine .step rfl ?_
    rw [hupon.kind_eq]
    refine .node (.step rfl ?_)
    rw [if_neg (mt eq_of_beq hahead)]
    refine .step rfl (.step hopen (.bind hinside (fun _ => ?_) ?_))
    · exact .of_rule depth .close
    · rintro ⟨⟩ u ⟨n, hn, hu⟩
      obtain ⟨offset, hclose⟩ := hu.upon hcloser rfl
      obtain ⟨v, hrun, hv⟩ := close_run .openParen (σ := σ) hclose rfl rfl
      refine .of_run hrun ⟨?_, hs.draft_eq ▸ hv.withDraft _⟩
      rw [hv.draft_eq, ht.draft]
      exact hn
  exact .bind hparen (advances_postfixForms k) fun n t hn => hQ k n t hn.1 hn.2

/-! ### Indices -/

theorem goesOn_index {inside : Term} (h : inside.ReadsWhole source false .closure) (hσ : σ.Plain)
    (hn : n.IsTerm source e) (hs : s.Before source draft ('[' :: (inside.text ++ ']' :: cs))) :
    GoesOn source σ (Grammar.upTo depth) n s (.index e inside) draft cs := by
  have hcloser := spells_delimiter ']' .closeBracket cs (by decide)
  have hfollow := hcloser.follower (by decide) (by decide)
  obtain ⟨offset, hupon⟩ := hs.upon (spells_delimiter '[' .openBracket _ (by decide)) rfl
  obtain ⟨t, hopen, ht⟩ := ((hupon.withDraft (.ofKind .indexExpression)).withDraft
    ((Draft.ofKind .indexExpression).push n)).consume (σ := σ) rfl
  have hindex : Gives source.toList σ ((Grammar.upTo depth).index n) s
      ((Term.index e inside).Reads source draft cs) := by
    have hinside : Gives source.toList σ (unrestricted (Grammar.upTo depth).expression) t
        (inside.Reads source t.draft (']' :: cs)) :=
      h.inside hσ.unrestricted (ht.draft ▸ ht.before) hfollow ⟨rfl, rfl⟩
    refine .node (.step rfl (.step rfl (.step hopen (.bind hinside.childTerm (fun _ => ?_) ?_))))
    · exact .of_rule depth .close
    · rintro ⟨⟩ u ⟨m, hm, hu⟩
      obtain ⟨offset, hclose⟩ := hu.upon hcloser rfl
      obtain ⟨v, hrun, hv⟩ := close_run .openBracket (σ := σ) hclose rfl rfl
      refine .of_run hrun ⟨?_, hs.draft_eq ▸ hv.withDraft _⟩
      rw [hv.draft_eq, ht.draft]
      show (do return Term.index (← Term.ofNode? source n) (← Term.ofNode? source m)) = _
      rw [hn, hm]
      rfl
  refine .step rfl ?_
  rw [hupon.kind_eq]
  exact hindex.andThen fun m t => ⟨_, t, rfl, rfl, rfl, rfl, fun hm => ⟨m, rfl, hm⟩⟩

/-! ### Arguments -/

theorem advances_argumentTurn :
    (listTurn Grammar.argumentList (Grammar.upTo depth).argument).Advances text :=
  .of_rule depth
    (.listTurn Grammar.steady_argumentList
      (.bind .attributes fun _ => .child (.call (.inl rfl) rfl)))

theorem advances_afterElement (form : ListForm) (before : Nat) :
    (afterElement form before).Advances text :=
  .of_rule 0 .afterElement

/-- A term may be an argument. -/
theorem Kind.startsTerm_argument (h : kind.startsTerm = true) :
    (kind == .pound) = false ∧ (kind == Grammar.argumentList.closer) = false ∧
      Grammar.argumentList.breaksAt kind = false ∧ Grammar.argumentList.starts kind = true := by
  unfold Kind.startsTerm at h
  split at h
  · decide
  · decide
  · decide
  · decide
  · decide
  · decide
  · decide
  · exact nomatch h

/-- An argument that a comma or the closer follows. -/
theorem Term.ReadsWhole.argument (h : e.ReadsWhole source false .closure) (hσ : σ.Plain)
    (hs : s.Before source draft (e.text ++ cs)) (hf : Follower cs kind)
    (hk : kind.isPostfix = false ∧ OperatorClass.ofInfix? kind = none) :
    Gives source.toList σ (Grammar.upTo depth).argument s
      fun _ t => ∃ n, n.IsTerm source e ∧ t.Before source (draft.push n) cs := by
  obtain ⟨first, word, rest, hfirst, -⟩ := e.starts hf
  obtain ⟨offset, hupon⟩ := hs.upon_opens hfirst
  have hpound : s.isAt .pound = false :=
    (hupon.isAt _).trans (Kind.startsTerm_argument hfirst.starts).1
  exact .step (Grammar.attributes_none hpound) (h.inside hσ hs hf hk).childTerm

/-- A turn over the arguments of a call that reads one of them. -/
theorem Term.ReadsWhole.argumentTurn (h : e.ReadsWhole source false .closure) (hσ : σ.Plain)
    (hs : s.Before source draft (e.text ++ cs)) (hf : Follower cs kind)
    (hk : kind.isPostfix = false ∧ OperatorClass.ofInfix? kind = none) {P : Session → Prop}
    (hafter : ∀ n t before, n.IsTerm source e → t.Before source (draft.push n) cs →
      ∃ t', afterElement Grammar.argumentList before σ t = some (true, t') ∧ P t') :
    Gives source.toList σ (listTurn Grammar.argumentList (Grammar.upTo depth).argument) s
      fun step t => step = .again () ∧ P t := by
  obtain ⟨first, word, rest, hfirst, -⟩ := e.starts hf
  obtain ⟨offset, hupon⟩ := hs.upon_opens hfirst
  obtain ⟨-, hcloser, hbreaks, hargument⟩ := Kind.startsTerm_argument hfirst.starts
  have helement : Gives source.toList σ
      (listElement Grammar.argumentList (Grammar.upTo depth).argument) s
      fun moved t => moved = true ∧ P t := by
    refine .step rfl (.bind (h.argument hσ hs hf hk) (fun _ => advances_afterElement _ _) ?_)
    rintro ⟨⟩ t ⟨n, hn, ht⟩
    obtain ⟨t', hrun, hP⟩ := hafter n t s.offset hn ht
    exact .of_run hrun ⟨rfl, hP⟩
  have hentry : Gives source.toList σ
      (listEntry Grammar.argumentList (Grammar.upTo depth).argument first) s
      fun moved t => moved = true ∧ P t := by
    unfold listEntry
    rw [if_pos hargument]
    refine .bind helement (fun moved => ?_) ?_
    · cases moved with
      | true => exact .pure true
      | false =>
        exact .of_rule depth .recoverInList
    · rintro _ t ⟨rfl, hP⟩
      exact .pure ⟨rfl, hP⟩
  refine .step hupon.flush (.step rfl ?_)
  rw [hupon.kind_eq, hcloser, hbreaks]
  refine .bind hentry (fun moved => ?_) ?_
  · cases moved <;> exact .pure _
  · rintro _ t ⟨rfl, hP⟩
    exact .pure ⟨rfl, hP⟩

/-- Turns over the arguments of a call. -/
def argumentTurns (depth : Nat) (k : Nat) : Parse Bool :=
  iterate (fun _ => listTurn Grammar.argumentList (Grammar.upTo depth).argument) k ()

/-- Where the closer stands the arguments are over. -/
theorem argumentTurns_closer (k : Nat) (hs : s.Before source draft (')' :: cs)) :
    Gives source.toList σ (argumentTurns depth k) s fun closed t => closed = true ∧
      ∃ range, t.Before source (draft.push (.simple .closeParen range)) cs := by
  obtain ⟨offset, hupon⟩ := hs.upon (spells_delimiter ')' .closeParen cs (by decide)) rfl
  obtain ⟨t, hclose, ht⟩ := hupon.consume (σ := σ) rfl
  have hturn : listTurn Grammar.argumentList (Grammar.upTo depth).argument σ s =
      some (.done true, t) := by
    refine bind_eq_some.2 ⟨(), s, hupon.flush, bind_eq_some.2 ⟨s.kind, s, rfl, ?_⟩⟩
    rw [hupon.kind_eq]
    exact bind_eq_some.2 ⟨(), t, hclose, rfl⟩
  exact .iterate (fun _ => advances_argumentTurn) (.of_run hturn ⟨rfl, _, ht.before⟩)

/-- The first token of the arguments of a call. -/
theorem Term.starts_arguments (e : Term) (es : List Term) :
    Term.Starts (Term.argumentsText (e :: es) ++ ')' :: cs) False := by
  have starts {rest : List Char} {kind : Kind} (hf : Follower rest kind) :
      Term.Starts (e.text ++ rest) False :=
    let ⟨first, word, more, hs, _⟩ := e.starts hf
    ⟨first, word, more, hs, nofun⟩
  cases es with
  | nil =>
    have hcloser := spells_delimiter ')' .closeParen cs (by decide)
    exact starts (hcloser.follower (by decide) (by decide))
  | cons e' es =>
    simp only [Term.argumentsText, List.append_assoc, List.cons_append]
    exact starts ((spells_delimiter ',' .comma _ (by decide)).follower (by decide) (by decide))

theorem Draft.extend_push (d : Draft) (n : Node) (more : List Child) :
    (d.push n).extend more = d.extend ((none, n) :: more) := by
  simp [Draft.extend, Draft.push, Draft.pushChild]

/-- The last argument of a call, read back. -/
theorem Term.ofArguments?_last (range : Range) (h : n.IsTerm source e) :
    Term.ofArguments? source [(none, n), (none, .simple .closeParen range)] = some [e] := by
  have h : Term.ofNode? source n = some e := h
  simp [Term.ofArguments?, Node.simple, h]

/-- An argument before others, read back. -/
theorem Term.ofArguments?_comma (range : Range) {more : List Child} {es : List Term}
    (h : n.IsTerm source e) (hmore : Term.ofArguments? source more = some es) :
    Term.ofArguments? source ((none, n) :: (none, .simple .comma range) :: more) =
      some (e :: es) := by
  have h : Term.ofNode? source n = some e := h
  simp [Term.ofArguments?, Node.simple, h, hmore]

theorem argumentTurns_gives {es : List Term}
    (h : ∀ e ∈ es, Term.ReadsWhole source e false .closure) (hσ : σ.Plain) :
    ∀ {draft : Draft} {s : Session} (k : Nat),
      s.Before source draft (Term.argumentsText es ++ ')' :: cs) →
      Gives source.toList σ (argumentTurns depth k) s fun closed t => closed = true ∧
        ∃ children, Term.ofArguments? source children = some es ∧
          t.Before source (draft.extend children) cs := by
  induction es with
  | nil =>
    intro draft s k hs
    refine .mono (argumentTurns_closer k hs) ?_
    rintro closed t ⟨rfl, range, ht⟩
    exact ⟨rfl, [(none, .simple .closeParen range)], rfl, ht⟩
  | cons e es ih =>
    intro draft s k hs
    have he := h e List.mem_cons_self
    cases es with
    | nil =>
      have hcloser := spells_delimiter ')' .closeParen cs (by decide)
      refine .iterate (fun _ => advances_argumentTurn) (.mono (he.argumentTurn hσ hs
        (hcloser.follower (by decide) (by decide)) ⟨rfl, rfl⟩ (P := fun t =>
          ∃ n, n.IsTerm source e ∧ t.Before source (draft.push n) (')' :: cs)) ?_) ?_)
      · intro n t before hn ht
        obtain ⟨offset, hupon⟩ := ht.upon hcloser rfl
        refine ⟨t, bind_eq_some.2 ⟨t, t, rfl, ?_⟩, n, hn, ht⟩
        rw [hupon.isAt, hupon.isAt]
        rfl
      · rintro _ t ⟨rfl, n, hn, ht⟩ k
        refine .mono (argumentTurns_closer k ht) ?_
        rintro closed u ⟨rfl, range, hu⟩
        refine ⟨rfl, _, Term.ofArguments?_last range hn, ?_⟩
        rw [← Draft.extend_push]
        exact hu
    | cons e' es =>
      have hcomma := spells_delimiter ',' .comma
        (' ' :: (Term.argumentsText (e' :: es) ++ ')' :: cs)) (by decide)
      have hmore : Term.Starts (Term.argumentsText (e' :: es) ++ ')' :: cs) False :=
        Term.starts_arguments e' es
      obtain ⟨first, word, rest, hspells, -⟩ := hmore
      have hs : s.Before source draft
          (e.text ++ ',' :: ' ' :: (Term.argumentsText (e' :: es) ++ ')' :: cs)) := by
        simpa [Term.argumentsText] using hs
      refine .iterate (fun _ => advances_argumentTurn) (.mono (he.argumentTurn hσ hs
        (hcomma.follower (by decide) (by decide)) ⟨rfl, rfl⟩ (P := fun t =>
          ∃ n range, n.IsTerm source e ∧ t.Before source
            ((draft.push n).push (.simple .comma range)) (Term.argumentsText (e' :: es) ++ ')' :: cs)) ?_) ?_)
      · intro n t before hn ht
        obtain ⟨offset, hupon⟩ := ht.upon hcomma rfl
        obtain ⟨u, hconsume, hu⟩ := hupon.consume (σ := σ) rfl
        refine ⟨u, bind_eq_some.2 ⟨t, t, rfl, ?_⟩, n, _, hn, hu.before.past hspells.spells⟩
        rw [hupon.isAt]
        exact bind_eq_some.2 ⟨(), u, hconsume, rfl⟩
      · rintro _ t ⟨rfl, n, range, hn, ht⟩ k
        refine .mono (ih (fun e he => h e (List.mem_cons_of_mem _ he)) k ht) ?_
        rintro closed u ⟨rfl, children, hchildren, hu⟩
        refine ⟨rfl, _, Term.ofArguments?_comma range hn hchildren, ?_⟩
        rw [← Draft.extend_push, ← Draft.extend_push]
        exact hu

/-- A node that holds the arguments of a call. -/
def Node.HoldsArguments (source : String) (n : Node) (es : List Term) : Prop :=
  n.kind = .arguments ∧ ∃ opener arguments, n.children = opener :: arguments ∧
    Term.ofArguments? source arguments = some es

theorem arguments_gives {es : List Term} (h : ∀ e ∈ es, Term.ReadsWhole source e false .closure)
    (hσ : σ.Plain) {offset : Nat}
    (hs : s.Upon source draft offset .openParen ['('] (Term.argumentsText es ++ ')' :: cs)) :
    Gives source.toList σ (Grammar.upTo depth).arguments s
      fun n t => n.HoldsArguments source es ∧ t.Before source draft cs := by
  have hwithin := hs.withDraft (.ofKind .arguments)
  obtain ⟨t, hopen, ht⟩ := hwithin.consume (σ := { σ with restriction := {} }) rfl
  have hlist : Gives source.toList { σ with restriction := {} }
      (list Grammar.argumentList (Grammar.upTo depth).argument) (s.withDraft (.ofKind .arguments))
      fun _ u => ∃ children, Term.ofArguments? source children = some es ∧
        u.Before source (t.draft.extend children) cs := by
    have hisAt : isAt Grammar.argumentList.opener { σ with restriction := {} }
        (s.withDraft (.ofKind .arguments)) = some (true, s.withDraft (.ofKind .arguments)) :=
      congrArg some (Prod.ext (hwithin.isAt _) rfl)
    have hrest : Gives source.toList { σ with restriction := {} }
        (listRest Grammar.argumentList (Grammar.upTo depth).argument) t fun closed u =>
          closed = true ∧ ∃ children, Term.ofArguments? source children = some es ∧
            u.Before source (t.draft.extend children) cs :=
      .loop fun k => argumentTurns_gives h hσ.unrestricted k (ht.draft ▸ ht.before)
    refine .step hisAt (.step rfl (.step hopen (.bind hrest (fun closed => ?_) ?_)))
    · exact .of_rule depth .unclosedList
    · rintro _ u ⟨rfl, hu⟩
      exact .pure hu
  refine .step hs.flush (.node (.mono hlist ?_))
  rintro ⟨⟩ u ⟨children, hchildren, hu⟩
  have hdraft : u.draft.children.toList =
      (none, .simple .openParen ⟨offset, offset + byteLength ['(']⟩) :: children := by
    rw [hu.draft_eq, ht.draft]
    simp [Draft.extend, Draft.push, Draft.pushChild, Draft.ofKind]
  refine ⟨⟨?_, _, children, hdraft, hchildren⟩, hs.draft ▸ hu.withDraft _⟩
  show u.draft.kind = _
  rw [hu.draft_eq, ht.draft]
  rfl

theorem goesOn_call {es : List Term} (h : ∀ e ∈ es, Term.ReadsWhole source e false .closure)
    (hσ : σ.Plain) (hn : n.IsTerm source e)
    (hs : s.Before source draft ('(' :: (Term.argumentsText es ++ ')' :: cs))) :
    GoesOn source σ (Grammar.upTo depth) n s (.call e es) draft cs := by
  obtain ⟨offset, hupon⟩ := hs.upon (spells_delimiter '(' .openParen _ (by decide)) rfl
  have hwithin := (hupon.withDraft (.ofKind .callExpression)).withDraft
    ((Draft.ofKind .callExpression).pushField .function n)
  have hcall : Gives source.toList σ ((Grammar.upTo depth).call n) s
      ((Term.call e es).Reads source draft cs) := by
    refine .node (.step rfl (.field (arguments_gives h hσ hwithin) ?_))
    rintro ⟨kind, range, flags, children⟩ t ⟨⟨rfl, opener, arguments, rfl, harguments⟩, ht⟩
    refine ⟨?_, hs.draft_eq ▸ (ht.withDraft _).withDraft _⟩
    rw [ht.draft_eq]
    show (do return Term.call (← Term.ofNode? source n) (← Term.ofArguments? source arguments)) = _
    rw [hn, harguments]
    rfl
  refine .step rfl ?_
  rw [hupon.kind_eq]
  exact hcall.andThen fun m t => ⟨_, t, rfl, rfl, rfl, rfl, fun hm => ⟨m, rfl, hm⟩⟩

end ConcreteSyntax
