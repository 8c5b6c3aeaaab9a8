import ConcreteSyntax.Proofs.Expression.Declaration

/-! # Conditions joined with `&&`

A clause of a condition is a name, or a `let` with a name for its pattern and one for its value
(`Clause`). The nodes of clauses are known by the place where each is written (`Clause.node`). The
loop over infix operators takes one `&&` and one clause a turn and folds the clauses to the left
(`Clause.gives_further`); the value of a `let` leaves the next `&&` to that loop, because it asks for
operators that bind more tightly. -/

namespace ConcreteSyntax

open Parse
open Text (byteLength)

/-! ### Clauses -/

/-- A clause of a condition: a name, or a pattern and the value it has to match, both of them
names. -/
inductive Clause where
  | test (name : Name)
  | binding (pattern value : Name)
  deriving DecidableEq

namespace Clause

/-- Whether a clause is a `let`. -/
def isLet : Clause → Bool
  | .test _ => false
  | .binding _ _ => true

/-- A clause as it is written. -/
def text : Clause → List Char
  | .test name => name.chars
  | .binding pattern value =>
    'l' :: 'e' :: 't' :: ' ' :: (pattern.chars ++ ' ' :: '=' :: ' ' :: value.chars)

/-- Clauses after a first one, each behind `&&`. -/
def further : List Clause → List Char
  | [] => []
  | c :: cs => ' ' :: '&' :: '&' :: ' ' :: (c.text ++ further cs)

/-! ### Their nodes -/

/-- A name that is written at an offset, as a leaf. -/
def nameAt (offset : Nat) (name : Name) : Node :=
  .simple .identifier ⟨offset, offset + byteLength name.chars⟩

/-- The node of a clause that is written at an offset. -/
def node (offset : Nat) : Clause → Node
  | .test name => nameAt offset name
  | .binding pattern value =>
    let mark := offset + 4 + byteLength pattern.chars + 1
    ⟨.letCondition, ⟨offset, mark + 2 + byteLength value.chars⟩, {},
      [(none, .simple .letKw ⟨offset, offset + 3⟩), (some .pattern, nameAt (offset + 4) pattern),
        (none, .simple .eq ⟨mark, mark + 1⟩), (some .value, nameAt (mark + 2) value)]⟩

/-- The mark `&&` between spaces that are written at an offset. -/
def markAt (offset : Nat) : Node := .simple .ampAmp ⟨offset + 1, offset + 3⟩

/-- The nodes of clauses after a first one that ends at an offset, and of the marks before them. -/
def row (offset : Nat) : List Clause → List Node
  | [] => []
  | c :: cs => markAt offset :: c.node (offset + 4) :: row (offset + 4 + byteLength c.text) cs

/-- What was read so far and one more clause, under `&&`. -/
def join (left : Node) (c : Clause) : Node :=
  let stop := left.range.stop
  ⟨.binaryExpression, ⟨left.range.start, stop + 4 + byteLength c.text⟩, {},
    [(some .left, left), (some .operator, markAt stop), (some .right, c.node (stop + 4))]⟩

/-- Where a `let` ends. -/
theorem stop_binding (offset : Nat) (pattern value : Name) :
    offset + byteLength (binding pattern value).text =
      offset + 4 + byteLength pattern.chars + 1 + 2 + byteLength value.chars := by
  simp [text, show 'l'.utf8Size = 1 from rfl, show 'e'.utf8Size = 1 from rfl,
    show 't'.utf8Size = 1 from rfl, show ' '.utf8Size = 1 from rfl,
    show '='.utf8Size = 1 from rfl]
  omega

theorem range_node (offset : Nat) (c : Clause) :
    (c.node offset).range = ⟨offset, offset + byteLength c.text⟩ := by
  cases c with
  | test name => rfl
  | binding pattern value =>
    rw [stop_binding]
    rfl

theorem hasError_node (offset : Nat) (c : Clause) : (c.node offset).hasError = false := by
  cases c <;> rfl

/-! ### What follows a clause -/

/-- What follows a clause: after a space, the `&&` before the next one or the `{` of a body. -/
structure Bounds (cs : List Char) (kind : Kind) : Prop where
  blank : ∃ more, cs = ' ' :: more
  comes : ∃ word rest, Comes cs 1 kind word rest
  kind : kind = .ampAmp ∨ kind = .openBrace

variable {source : String} {draft : Draft} {cs word rest : List Char} {kind : Kind} {s : Session}
  {σ : Setting} {depth offset : Nat} {c : Clause} {min : Precedence}

/-- The token after a clause is known. -/
theorem Bounds.upon (hb : Bounds cs kind) (h : s.Faces source draft offset cs) :
    ∃ word rest, s.Upon source draft (offset + 1) kind word rest := by
  obtain ⟨word, rest, hc⟩ := hb.comes
  refine ⟨word, rest, h.upon hc ?_⟩
  rcases hb.kind with rfl | rfl <;> rfl

theorem Bounds.isAt (hb : Bounds cs kind) (h : s.Faces source draft offset cs) {kind' : Kind}
    (hne : kind' ≠ .ampAmp ∧ kind' ≠ .openBrace) : s.isAt kind' = false := by
  obtain ⟨word, rest, h⟩ := hb.upon h
  rw [h.isAt]
  rcases hb.kind with rfl | rfl
  · exact beq_eq_false_iff_ne.2 hne.1.symm
  · exact beq_eq_false_iff_ne.2 hne.2.symm

theorem Bounds.isPostfix (hb : Bounds cs kind) (h : s.Faces source draft offset cs) :
    s.kind.isPostfix = false := by
  obtain ⟨word, rest, h⟩ := hb.upon h
  rw [h.kind_eq]
  rcases hb.kind with rfl | rfl <;> rfl

/-- A name before a blank. -/
theorem spells_name (name : Name) (rest : List Char) :
    Spells (name.chars ++ ' ' :: rest) .identifier name.chars (' ' :: rest) :=
  name.isWord.2 ▸ spells_wordBlank name.isWord.1

theorem Bounds.spells (hb : Bounds rest kind) (name : Name) :
    Spells (name.chars ++ rest) .identifier name.chars rest := by
  obtain ⟨more, rfl⟩ := hb.blank
  exact spells_name name more

/-- The node of a `let`, from its parts. -/
theorem finish_binding (offset stop : Nat) (pattern value : Name) :
    (((((Draft.ofKind .letCondition).push (.simple .letKw ⟨offset, offset + 3⟩)).pushField .pattern
      (nameAt (offset + 4) pattern)).push (.simple .eq ⟨offset + 4 + byteLength pattern.chars + 1,
        offset + 4 + byteLength pattern.chars + 1 + 1⟩)).pushField .value
        (nameAt (offset + 4 + byteLength pattern.chars + 1 + 2) value)).finish stop =
      (binding pattern value).node offset := by
  refine (Draft.finish_clean (show Kind.letCondition ≠ .error from nofun) rfl stop).trans ?_
  refine congrArg (Node.mk _ · _ _) ?_
  show Range.hull (Range.hull (Range.hull ⟨_, _⟩ ⟨_, _⟩) ⟨_, _⟩) ⟨_, _⟩ = (_ : Range)
  simp only [Range.hull, Range.mk.injEq]
  omega

end Clause

/-! ### Reading one -/

/-- A setting in which a clause is read: in the head of a statement, and where `let` may stand if
the clause is one. -/
structure Setting.Allows (σ : Setting) (c : Clause) : Prop where
  watches : σ.watches = false
  head : σ.restriction.noStructLiteral = true
  letting : c.isLet = true → σ.restriction.allowLet = true

theorem Setting.Allows.deeper {σ : Setting} {c : Clause} (h : σ.Allows c) :
    Setting.Allows { σ with depth := σ.depth + 1 } c :=
  ⟨h.watches, h.head, h.letting⟩

section Reading

variable {source : String} {draft : Draft} {cs word rest : List Char} {kind : Kind} {s : Session}
  {σ : Setting} {depth offset : Nat} {c : Clause} {min : Precedence}

/-- A name in the head of a statement. A `{` after it opens the body, which is remarked. -/
theorem Grammar.primary_head {g : Grammar} (hσ : σ.restriction.noStructLiteral = true)
    (h : s.Upon source draft offset .identifier word rest) (hb : Clause.Bounds rest kind) :
    ∃ t, g.primary σ s = some (.simple .identifier ⟨offset, offset + byteLength word⟩, t) ∧
      t.Faces source draft (offset + byteLength word) rest := by
  obtain ⟨t, hpath, ht⟩ := Grammar.valuePath_name (g := g) (σ := σ) h
    fun t ht => hb.isAt ht (by decide)
  have hbang : t.isAtCall = false := by
    simp [Session.isAtCall, hb.isAt ht (show Kind.bang ≠ .ampAmp ∧ _ by decide)]
  cases hbrace : t.isAt .openBrace with
  | false =>
    refine ⟨t, bind_eq_some.2 ⟨s, s, rfl, ?_⟩, ht⟩
    rw [h.kind_eq]
    refine bind_eq_some.2 ⟨_, t, hpath, bind_eq_some.2 ⟨t, t, rfl, ?_⟩⟩
    rw [hbang, hbrace]
    rfl
  | true =>
    refine ⟨_, bind_eq_some.2 ⟨s, s, rfl, ?_⟩,
      ht.noted (.settled .structLiteralVsBlock t.offset .block)⟩
    rw [h.kind_eq]
    refine bind_eq_some.2 ⟨_, t, hpath, bind_eq_some.2 ⟨t, t, rfl, ?_⟩⟩
    rw [hbang, hbrace]
    refine bind_eq_some.2 ⟨σ.restriction, t, rfl, ?_⟩
    rw [hσ]
    rfl

namespace Clause

/-- What a clause is read to: its node, in front of what follows. -/
def Reads (c : Clause) (source : String) (draft : Draft) (offset : Nat) (rest : List Char) (n : Node)
    (s : Session) : Prop :=
  n = c.node offset ∧ s.Faces source draft (offset + byteLength c.text) rest

/-- A clause as a primary expression. -/
def ReadsPrimary (c : Clause) (source : String) : Prop :=
  ∀ ⦃depth offset : Nat⦄ ⦃σ : Setting⦄ ⦃draft : Draft⦄ ⦃rest : List Char⦄ ⦃kind : Kind⦄
    ⦃s : Session⦄, σ.Allows c → s.Faces source draft offset (c.text ++ rest) → Bounds rest kind →
    Gives source.toList σ (Grammar.upTo depth).primary s (c.Reads source draft offset rest)

/-- The first token of a clause. -/
theorem spells_first (hb : Bounds rest kind) (c : Clause) :
    ∃ first word more, Spells (c.text ++ rest) first word more ∧
      (first = .identifier ∨ first = .letKw) := by
  cases c with
  | test name => exact ⟨_, _, _, hb.spells name, .inl rfl⟩
  | binding pattern value => exact ⟨_, _, _, Value.spells_let _, .inr rfl⟩

theorem upon_first (hb : Bounds rest kind) (hs : s.Faces source draft offset (c.text ++ rest)) :
    ∃ first word more, s.Upon source draft offset first word more ∧
      (first = .identifier ∨ first = .letKw) := by
  obtain ⟨first, word, more, hspells, hfirst⟩ := c.spells_first hb
  refine ⟨first, word, more, hs.upon (.of_spells hspells ?_ 0) ?_, hfirst⟩
  · rcases hfirst with rfl | rfl <;> nofun
  · rcases hfirst with rfl | rfl <;> rfl

/-- Before an operator a clause is what it is as a primary expression. -/
theorem ReadsPrimary.prefixed (h : c.ReadsPrimary source) (hσ : σ.Allows c)
    (hs : s.Faces source draft offset (c.text ++ rest)) (hb : Bounds rest kind) :
    Gives source.toList σ (Grammar.upTo depth).prefixed s (c.Reads source draft offset rest) := by
  have hpostfixed : Gives source.toList σ (Grammar.upTo depth).postfixed s
      (c.Reads source draft offset rest) := by
    refine .thenLoop fun k => .bind (h hσ hs hb) (advances_postfixForms k) fun n t hn => ?_
    refine .iterate advances_postfixTurn ?_
    exact .of_run (Grammar.postfixTurn_other (hb.isPostfix hn.2)) hn
  obtain ⟨first, word, more, hupon, hfirst⟩ := upon_first hb hs
  refine .step rfl ?_
  rw [hupon.kind_eq]
  rcases hfirst with rfl | rfl
  · exact hpostfixed
  · exact hpostfixed

/-- A clause alone, where what follows it binds too loosely. -/
theorem ReadsPrimary.whole (h : c.ReadsPrimary source) (hσ : σ.Allows c)
    (hs : s.Faces source draft offset (c.text ++ rest)) (hb : Bounds rest kind)
    (hbelow : kind.Below min) :
    Gives source.toList σ ((Grammar.upTo depth).parse (.expression min)) s
      (c.Reads source draft offset rest) := by
  obtain ⟨first, word, more, hupon, -⟩ := upon_first hb hs
  refine .parse hσ.watches fun depth => .step hupon.flush (.guarded hs.sound ?_)
  refine .thenLoop fun k => .bind (h.prefixed hσ.deeper hs hb) (advances_infixForms min k)
    fun n t hn => ?_
  refine .iterate (advances_infixTurn _) ?_
  obtain ⟨word, more, hc⟩ := hb.comes
  have hkind : t.scanner.joinGreater.kind = kind := (hn.2.upon_joined hc).kind_eq
  exact .of_run (Grammar.infixTurn_below (hkind ▸ hbelow)) ⟨hn.1, hn.2.joined⟩

theorem readsPrimary_test (name : Name) : (test name).ReadsPrimary source := by
  intro depth offset σ draft rest kind s hσ hs hb
  have hupon := hs.upon (.of_spells (hb.spells name) nofun 0) rfl
  obtain ⟨t, hrun, ht⟩ := Grammar.primary_head (g := .upTo depth) hσ.head hupon hb
  exact .of_run hrun ⟨rfl, ht⟩

/-- The value of a `let` leaves `&&` and what binds more loosely to the condition around it. -/
theorem Bounds.below (hb : Bounds rest kind) :
    kind.Below OperatorClass.logicalAnd.precedence.next := by
  have hall : ∀ k ∈ [Kind.ampAmp, .openBrace], ∀ c ∈ OperatorClass.ofInfix? k,
      c.precedence.rank < OperatorClass.logicalAnd.precedence.next.rank := by
    decide
  intro c hc
  rcases hb.kind with rfl | rfl
  · exact hall _ (by decide) c hc
  · exact hall _ (by decide) c hc

/-- A `let` in a condition. -/
theorem gives_letCondition {pattern value : Name} (hσ : σ.Allows (binding pattern value))
    (hs : s.Faces source draft offset ((binding pattern value).text ++ rest))
    (hb : Bounds rest kind) :
    Gives source.toList σ (Grammar.upTo depth).letCondition s
      ((binding pattern value).Reads source draft offset rest) := by
  have hs : s.Faces source draft offset (['l', 'e', 't'] ++
      ' ' :: (pattern.chars ++ ' ' :: (equals.text ++ ' ' :: (value.chars ++ rest)))) := by
    simpa [text, show equals.text = ['='] from rfl] using hs
  have hlet := (hs.upon (.of_spells (Value.spells_let _) nofun 0) rfl).withDraft
    (.ofKind .letCondition)
  obtain ⟨t, htake, ht⟩ := hlet.consume (σ := σ) rfl
  have hname : Comes (' ' :: (pattern.chars ++ _)) 1 .identifier pattern.chars _ :=
    .of_spells (spells_name pattern (equals.text ++ ' ' :: (value.chars ++ rest))) nofun 1
  refine .node (.step htake (.bind (P := fun _ u => u.Faces source
      (((Draft.ofKind .letCondition).push (.simple .letKw ⟨offset, offset + 3⟩)).pushField .pattern
        (nameAt (offset + 4) pattern))
      (offset + 4 + byteLength pattern.chars) (' ' :: (equals.text ++ ' ' :: (value.chars ++ rest))))
    (.field (gives_pattern hσ.watches (ht.upon hname rfl) (equals.follower _)) ?_) (fun _ => ?_) ?_))
  · rintro n u ⟨rfl, hu⟩
    exact hu.draft ▸ hu.withDraft _
  · exact .of_rule depth (q := fun _ => ⟨.empty, none, false, false, .proper⟩) <|
      .bind (.expect rfl) fun _ => .bind (.beside aside_restriction) fun _ =>
        .field (.restricted (.call (.inl rfl) rfl))
  · rintro ⟨⟩ u hu
    have hmark := hu.upon (equals.comes _) rfl
    obtain ⟨v, htake, hv⟩ := hmark.consume (σ := σ) rfl
    have hexpect : expect .eq σ u = some ((), v) := (expect_eq (hmark.isAt .eq)).trans htake
    have hallows : Setting.Allows
        { σ with restriction := { σ.restriction with allowLet := false } } (test value) :=
      ⟨hσ.watches, hσ.head, nofun⟩
    have hfaces : v.Faces source v.draft
        (offset + 4 + byteLength pattern.chars + 1 + 2) ((test value).text ++ rest) :=
      hv.draft ▸ hv.pastBlank (hb.spells value)
    refine .step hexpect (.step rfl (.field
      ((readsPrimary_test value).whole hallows hfaces hb hb.below) ?_))
    rintro n w ⟨rfl, hw⟩
    refine ⟨?_, ?_⟩
    · show (w.draft.pushField .value (nameAt _ value)).finish _ = _
      rw [hw.draft, hv.draft]
      exact finish_binding offset _ pattern value
    · rw [stop_binding]
      exact hs.draft ▸ (hw.withDraft _).withDraft _

theorem readsPrimary_binding (pattern value : Name) :
    (binding pattern value).ReadsPrimary source := by
  intro depth offset σ draft rest kind s hσ hs hb
  have hlet := hs.upon (.of_spells (Value.spells_let _) nofun 0) rfl
  refine .step rfl ?_
  rw [hlet.kind_eq]
  refine .step (a := σ.restriction) (t := s) rfl ?_
  rw [hσ.letting rfl]
  exact gives_letCondition hσ hs hb

theorem readsPrimary (c : Clause) (source : String) : c.ReadsPrimary source := by
  cases c with
  | test name => exact readsPrimary_test name
  | binding pattern value => exact readsPrimary_binding pattern value

/-! ### Reading more of them -/

/-- The mark between two clauses. -/
def conjunction : BinaryMark := ⟨.ampAmp, .logicalAnd, rfl, by decide⟩

theorem further_cons_append (c : Clause) (cs : List Clause) (rest : List Char) :
    further (c :: cs) ++ rest =
      ' ' :: (conjunction.text ++ ' ' :: (c.text ++ (further cs ++ rest))) := by
  rw [further, ← List.append_assoc]
  rfl

/-- After a clause stands another one behind `&&`, or what follows them all. -/
theorem Bounds.further (hb : Bounds rest kind) (cs : List Clause) :
    ∃ kind, Bounds (further cs ++ rest) kind := by
  cases cs with
  | nil => exact ⟨kind, hb⟩
  | cons c cs =>
    rw [further_cons_append]
    exact ⟨.ampAmp, ⟨_, rfl⟩, ⟨_, _, conjunction.comes _⟩, .inl rfl⟩

/-- A node that holds no error, over a range that does not end before it begins. -/
structure Stands (n : Node) : Prop where
  le : n.range.start ≤ n.range.stop
  clean : n.hasError = false

theorem stands_node (offset : Nat) (c : Clause) : Stands (c.node offset) := by
  refine ⟨?_, c.hasError_node offset⟩
  rw [range_node]
  exact Nat.le_add_right _ _

theorem Stands.join {left : Node} (h : Stands left) (c : Clause) : Stands (join left c) where
  le := by
    have := h.le
    show left.range.start ≤ left.range.stop + 4 + byteLength c.text
    omega
  clean := rfl

/-- One more clause under `&&`, from its parts. -/
theorem Stands.finish {left : Node} (h : Stands left) (c : Clause) (stop : Nat) :
    ((((Draft.ofKind .binaryExpression).pushField .left left).pushChild (some .operator)
      (markAt left.range.stop)).pushField .right (c.node (left.range.stop + 4))).finish stop =
      Clause.join left c := by
  refine (Draft.finish_clean (show Kind.binaryExpression ≠ .error from nofun) ?_ stop).trans ?_
  · show (left.hasError || (false || ((c.node _).hasError || false))) = false
    rw [h.clean, hasError_node]
    rfl
  · refine congrArg (Node.mk _ · _ _) ?_
    have hle := h.le
    show Range.hull (Range.hull left.range ⟨_, _⟩) (c.node _).range = _
    rw [range_node]
    simp only [Range.hull, Range.mk.injEq]
    omega

/-- A `&&` after what was read so far, and the clause behind it. -/
theorem Stands.gives_join {left : Node} (h : Stands left) (hσ : σ.Allows c) (hb : Bounds rest kind)
    (hs : s.Upon source draft (left.range.stop + 1) .ampAmp conjunction.text
      (' ' :: (c.text ++ rest))) :
    Gives source.toList σ ((Grammar.upTo depth).binary .logicalAnd left) s fun n t =>
      n = Clause.join left c ∧ t.Faces source draft (Clause.join left c).range.stop rest := by
  have hmark := (hs.withDraft (.ofKind .binaryExpression)).withDraft
    ((Draft.ofKind .binaryExpression).pushField .left left)
  obtain ⟨t, htake, ht, -⟩ := hmark.consumeWith (σ := σ) (some .operator) none .usual rfl nofun
    (.inl rfl)
  have hclause : t.Faces source t.draft (left.range.stop + 4) (c.text ++ rest) := by
    obtain ⟨first, word, more, hspells, -⟩ := c.spells_first hb
    exact ht.draft ▸ ht.pastBlank hspells
  refine .node (.step rfl (.step htake (.field
    ((c.readsPrimary source).whole hσ hclause hb hb.below) ?_)))
  rintro n u ⟨rfl, hu⟩
  refine ⟨?_, ?_⟩
  · show (u.draft.pushField .right (c.node _)).finish _ = _
    rw [hu.draft, ht.draft]
    exact h.finish c _
  · exact hs.draft ▸ (hu.withDraft _).withDraft _

/-- The loop over infix operators folds clauses to the left, up to the `{` after them. -/
theorem gives_further (hb : Bounds rest .openBrace) (cs : List Clause)
    (hσ : ∀ c ∈ cs, σ.Allows c) :
    ∀ {k : Nat} {left : Node} {s : Session}, Stands left →
      s.Faces source draft left.range.stop (further cs ++ rest) →
      Gives source.toList σ (iterate ((Grammar.upTo depth).infixTurn .closure) k left) s fun n t =>
        n = cs.foldl join left ∧ t.Before source draft rest := by
  induction cs with
  | nil =>
    intro k left s _ hs
    refine .iterate (advances_infixTurn _) ?_
    obtain ⟨word, more, hc⟩ := hb.comes
    have hkind : s.scanner.joinGreater.kind = .openBrace :=
      (Session.Faces.upon_joined hs hc).kind_eq
    exact .of_run (Grammar.infixTurn_below (hkind ▸ Kind.below_of_none rfl)) ⟨rfl, hs.joined.before⟩
  | cons c cs ih =>
    intro k left s h hs
    rw [further_cons_append] at hs
    obtain ⟨next, hnext⟩ := hb.further cs
    have hcomes := conjunction.comes (c.text ++ (further cs ++ rest))
    refine .iterate (advances_infixTurn _) (.mono (conjunction.turn hs hcomes (by decide)
        (h.gives_join (hσ c List.mem_cons_self) hnext (hs.upon_joined hcomes))) ?_)
    rintro _ t ⟨_, rfl, rfl, ht⟩ k
    exact ih (fun c hc => hσ c (List.mem_cons_of_mem _ hc)) (h.join c) ht

/-- A condition of clauses, up to the `{` after it. -/
theorem gives_expression (hw : σ.watches = false)
    (hr : σ.restriction = { noStructLiteral := true, allowLet := true })
    (hb : Bounds rest .openBrace) (cs : List Clause)
    (hs : s.Faces source draft offset (c.text ++ (further cs ++ rest))) :
    Gives source.toList σ (Grammar.upTo depth).expression s fun n t =>
      n = cs.foldl join (c.node offset) ∧ t.Before source draft rest := by
  have hσ (c : Clause) : Setting.Allows { σ with depth := σ.depth + 1 } c :=
    ⟨hw, congrArg Restriction.noStructLiteral hr, fun _ => congrArg Restriction.allowLet hr⟩
  obtain ⟨next, hnext⟩ := hb.further cs
  obtain ⟨first, word, more, hupon, -⟩ := upon_first hnext hs
  refine .parse hw fun depth => .step hupon.flush (.guarded hs.sound ?_)
  refine .thenLoop fun k => .bind ((c.readsPrimary source).prefixed (hσ c) hs hnext)
    (advances_infixForms _ k) ?_
  rintro n t ⟨rfl, ht⟩
  refine gives_further hb cs (fun c _ => hσ c) (c.stands_node offset) ?_
  rw [range_node]
  exact ht

end Clause

end Reading

end ConcreteSyntax
