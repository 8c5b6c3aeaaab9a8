import ConcreteSyntax.Proofs.Excerpt.Expression
import ConcreteSyntax.Proofs.Excerpt.FirstToken

/-! # The last item of a text

The last turn over the statements of a text closes (`Parse.Follows.rowTurn_last`), where nothing is
reported and what it reads is an item or ends with a semicolon (`Node.isSealed`), or with a block with
which nothing behind the text goes on (`Node.isBlockStatement`). Every other member of the text is
told by the kind of its node, which the production of a member keeps (`Parse.KindStays`). -/

namespace ConcreteSyntax

open Parse

/-! ### Members of a text -/

/-- An item, or a statement that a semicolon ends. -/
def Node.isSealed (n : Node) : Bool :=
  match n.kind with
  | .functionItem | .functionSignatureItem | .structItem | .unionItem | .enumItem | .traitItem
  | .implItem | .modItem | .foreignModItem | .useDeclaration | .externCrateDeclaration | .constItem
  | .staticItem | .typeItem | .associatedType | .macroDefinition => true
  | .letDeclaration | .emptyStatement => true
  | .expressionStatement => (n.children.drop 1).getLast?.any (·.2.kind == .semicolon)
  | _ => false

/-- The expressions that end with a block. -/
def Kind.isBlockLike : Kind → Bool
  | .block | .unsafeBlock | .asyncBlock | .constBlock | .ifExpression | .matchExpression => true
  | .whileExpression | .loopExpression | .forExpression => true
  | _ => false

/-- A statement that the block of its expression ends. -/
def Node.isBlockStatement (n : Node) : Bool :=
  n.kind == .expressionStatement &&
    match n.children with
    | [(_, expression)] => expression.kind.isBlockLike
    | _ => false

theorem Node.isBlockStatement_of_ne {n : Node} (h : n.kind ≠ .expressionStatement) :
    n.isBlockStatement = false := by
  rw [isBlockStatement, beq_eq_false_iff_ne.2 h]
  rfl

/-- The last child that is not a comment. -/
def Node.lastMember? (children : List Child) : Option Node :=
  ((children.map (·.2)).filter (!·.kind.isComment)).getLast?

theorem Node.lastMember?_append {children comments : List Child}
    (h : ∀ c ∈ comments, c.2.kind.isComment = true) :
    lastMember? (children ++ comments) = lastMember? children := by
  have hnil : (comments.map (·.2)).filter (!·.kind.isComment) = [] := by
    rw [List.filter_eq_nil_iff]
    intro n hn
    obtain ⟨c, hc, rfl⟩ := List.mem_map.1 hn
    simp [h c hc]
  rw [lastMember?, List.map_append, List.filter_append, hnil, List.append_nil]
  rfl

theorem Node.lastMember?_concat {children : List Child} {label : Option Field} {n : Node}
    (h : n.kind.isComment = false) : lastMember? (children ++ [(label, n)]) = some n := by
  simp [lastMember?, h]

/-- The last member of a draft is sealed, or ends with a block with which nothing behind the text goes
on. -/
def Draft.EndsSealed (E : Excerpt) (d : Draft) : Prop :=
  ∃ n, Node.lastMember? d.children.toList = some n ∧
    (n.isSealed = true ∨ n.isBlockStatement = true ∧ E.EndsBlocks)

theorem Draft.not_endsSealed {E : Excerpt} {d : Draft} {label : Option Field} {n : Node}
    (hcomment : n.kind.isComment = false) (hsealed : n.isSealed = false)
    (hblock : n.isBlockStatement = true → ¬ E.EndsBlocks) : ¬ (d.pushChild label n).EndsSealed E := by
  simp only [EndsSealed, pushChild, Array.toList_push, Node.lastMember?_concat hcomment, hsealed,
    Option.some.injEq, exists_eq_left', Bool.false_eq_true, false_or, not_and]
  exact hblock

/-- A scanner does not go back. -/
theorem Scanner.le_facing {text : List Char} {place : Cursor} (h : place.In text) :
    place.offset ≤ (facing .usual place).token.range.start := by
  have hsound : (facing .usual place).Sound text ∧ Leading text place.offset
      (facing .usual place).leading (facing .usual place).start.offset :=
    scan_sound readsLiterals_usual h
  rw [hsound.1.range]
  exact hsound.2.le

/-! ### Programs that keep the kind of the open draft -/

/-- The kind of the open draft stays among these. -/
def Parse.KindStays {α : Type} (P : Kind → Prop) (m : Parse α) : Prop :=
  ∀ σ s t r, m σ s = some (r, t) → P s.draft.kind → P t.draft.kind

namespace Parse.KindStays

variable {α β : Type} {P : Kind → Prop} {m : Parse α}

theorem pure (r : α) : KindStays P (Pure.pure r : Parse α) := by
  intro σ s t r' h hs
  obtain ⟨-, rfl⟩ := pure_eq_some.1 h
  exact hs

theorem bind {K : α → Parse β} (hm : KindStays P m) (hK : ∀ r, KindStays P (K r)) :
    KindStays P (m >>= K) := by
  intro σ s t r h hs
  obtain ⟨x, u, h, hrest⟩ := bind_eq_some.1 h
  exact hK x σ u t r hrest (hm σ s u x h hs)

/-- A step that changes no kind. -/
theorem step {out : Setting → Session → α × Session} (hm : ∀ σ s, m σ s = some (out σ s))
    (hkind : ∀ σ s, (out σ s).2.draft.kind = s.draft.kind) : KindStays P m := by
  intro σ s t r h hs
  obtain ⟨rfl, rfl⟩ := Prod.mk.inj (Option.some.inj ((hm σ s).symm.trans h))
  exact (hkind σ s).symm ▸ hs

theorem setKind {kind : Kind} (h : P kind) : KindStays P (Parse.setKind kind) := by
  intro σ s t r hrun _
  obtain ⟨-, rfl⟩ := Prod.mk.inj (Option.some.inj hrun)
  exact h

theorem kind {K : Kind → Parse α} (hK : ∀ c, KindStays P (K c)) : KindStays P (Parse.kind >>= K) :=
  fun σ s => hK s.kind σ s

theorem choose {c : Bool} {A B : Parse α} (yes : KindStays P A) (no : KindStays P B) :
    KindStays P (if c = true then A else B) := by
  cases c
  exacts [no, yes]

theorem isAt {c : Kind} {A B : Parse α} (yes : KindStays P A) (no : KindStays P B) :
    KindStays P (Parse.isAt c >>= fun b => if b = true then A else B) :=
  .bind (.step (fun _ _ => rfl) fun _ _ => rfl) fun _ => .choose yes no

theorem flush : KindStays P Parse.flush := step flush_run Session.kind_flushed

theorem consume : KindStays P Parse.consume := by
  refine step (consumeWith_run none none .usual) fun σ s => ?_
  dsimp only
  split
  · rfl
  · exact Session.kind_flushed σ s

theorem push {n : Node} : KindStays P (Parse.push n) := step (fun _ _ => rfl) fun _ _ => rfl

theorem pushMissing {kind : Kind} : KindStays P (Parse.pushMissing kind) :=
  step (fun _ _ => rfl) fun _ _ => rfl

theorem reportHere {message : Message} {arguments : List String} :
    KindStays P (Parse.reportHere message arguments) :=
  step (fun _ _ => rfl) fun _ _ => rfl

theorem reportAt {range : Range} {message : Message} {arguments : List String} :
    KindStays P (Parse.reportAt range message arguments) :=
  step (fun _ _ => rfl) fun _ _ => rfl

/-- A node is built in a draft of its own. -/
theorem node {kind : Kind} {body : Parse Unit} : KindStays P (Parse.node kind body) := by
  intro σ s t r h hs
  obtain ⟨d, u, hcollect, h⟩ := bind_eq_some.1 h
  obtain ⟨-, rfl⟩ := Prod.mk.inj (Option.some.inj h)
  obtain ⟨v, -, -, rfl⟩ := collect_eq_some.1 hcollect
  exact hs

theorem child {body : Parse Node} (h : KindStays P body) : KindStays P (Parse.child body) :=
  .bind h fun _ => .push

theorem iterate {turn : β → Parse (Step β α)} (hturn : ∀ x, KindStays P (turn x)) (n : Nat) :
    ∀ x, KindStays P (Parse.iterate turn n x) := by
  induction n with
  | zero => exact fun _ _ _ _ _ h => nomatch h
  | succ n ih =>
    intro x σ s t r h hs
    rcases iterate_succ h with h | ⟨y, u, h, hrest⟩
    · exact hturn x σ s t _ h hs
    · exact ih y σ u t r hrest (hturn x σ s u _ h hs)

theorem repeatWhile {turn : Parse Bool} (hturn : KindStays P turn) :
    KindStays P (Parse.repeatWhile turn) := by
  have hloop : KindStays P (do return if ← turn then .again () else .done () : Parse (Step Unit Unit)) :=
    .bind hturn fun _ => .pure _
  exact fun σ s => iterate (fun _ => hloop) σ.turns () σ s

theorem countBrace {c : Kind} : KindStays P (Parse.countBrace c) :=
  .choose (.step (fun _ _ => rfl) fun _ _ => rfl) (.pure _)

theorem skipUntil {c : Kind} : KindStays P (Parse.skipUntil c) :=
  .kind fun _ => .choose (.pure _) (.bind .countBrace fun _ => .bind .consume fun _ => .pure _)

theorem close {opener : Kind} {range : Range} : KindStays P (Parse.close opener range) :=
  .isAt .consume (.bind (.isAt .reportAt .reportHere) fun _ => .pushMissing)

end Parse.KindStays

/-- The kind of a node that is read. -/
theorem Parse.kind_of_node {P : Kind → Prop} {kind : Kind} {body : Parse Unit} (hkind : P kind)
    (h : KindStays P body) {σ : Setting} {s t : Session} {n : Node}
    (hrun : Parse.node kind body σ s = some (n, t)) : P n.kind := by
  obtain ⟨d, u, hcollect, hrun⟩ := bind_eq_some.1 hrun
  obtain ⟨rfl, -⟩ := Prod.mk.inj (Option.some.inj hrun)
  obtain ⟨v, hbody, rfl, -⟩ := collect_eq_some.1 hcollect
  exact h σ _ v () hbody hkind

namespace Parse.KindStays

variable {E : Excerpt} {g : Grammar} {σ : Setting} {s t : Session}

/-- A node that is no comment and not sealed is the last member where it is read. -/
theorem not_endsSealed {body : Parse Node} {r : Unit} (hbody : ∀ {n u}, body σ s = some (n, u) →
      n.kind.isComment = false ∧ n.isSealed = false ∧ n.kind ≠ .expressionStatement)
    (h : Parse.child body σ s = some (r, t)) : ¬ t.draft.EndsSealed E := by
  obtain ⟨n, u, hrun, h⟩ := bind_eq_some.1 h
  obtain ⟨-, rfl⟩ := Prod.mk.inj (Option.some.inj h)
  obtain ⟨hcomment, hsealed, hkind⟩ := hbody hrun
  refine Draft.not_endsSealed hcomment hsealed fun hblock => ?_
  exact absurd (hblock.symm.trans (Node.isBlockStatement_of_ne hkind)) (by decide)

/-- An error is no sealed member. -/
theorem errorNode {body : Parse Unit} {r : Unit} (h : KindStays (· = .error) body)
    (hrun : Parse.child (Parse.node .error body) σ s = some (r, t)) : ¬ t.draft.EndsSealed E := by
  refine not_endsSealed (fun {n u} hnode => ?_) hrun
  have hkind : n.kind = .error := kind_of_node (P := (· = .error)) rfl h hnode
  unfold Node.isSealed
  rw [hkind]
  exact ⟨rfl, rfl, nofun⟩

theorem recoverStatement {r : Unit} (h : Parse.recoverStatement σ s = some (r, t)) :
    ¬ t.draft.EndsSealed E := by
  obtain ⟨_, _, -, h⟩ := bind_eq_some.1 h
  obtain ⟨_, _, -, h⟩ := bind_eq_some.1 h
  obtain ⟨_, _, -, h⟩ := bind_eq_some.1 h
  obtain ⟨_, _, -, h⟩ := bind_eq_some.1 h
  exact errorNode (.repeatWhile .skipUntil) h

/-- An attribute is no sealed member. -/
theorem attributeItem {r : Unit} (h : Parse.child g.attributeItem σ s = some (r, t)) :
    ¬ t.draft.EndsSealed E := by
  refine not_endsSealed (fun {n u} hattribute => ?_) h
  obtain ⟨_, v, -, hnode⟩ := bind_eq_some.1 hattribute
  have hkind : n.kind = .attributeItem ∨ n.kind = .innerAttributeItem := by
    refine kind_of_node (P := fun k => k = .attributeItem ∨ k = .innerAttributeItem) (.inl rfl) ?_ hnode
    refine .bind .consume fun _ => .bind (.isAt (.bind (.setKind (.inr rfl)) fun _ => .consume) (.pure _))
      fun _ => .isAt (.bind (.step (fun _ _ => rfl) fun _ _ => rfl) fun _ => .bind .consume fun _ =>
        .bind (.child ?_) fun _ => .close) (.isAt .consume (.bind .reportHere fun _ => .pushMissing))
    exact .bind .flush fun _ => .node
  unfold Node.isSealed
  rcases hkind with hkind | hkind <;> rw [hkind] <;> exact ⟨rfl, rfl, nofun⟩

/-- A `}` alone is no sealed member, nor is the line that names an interpreter. -/
theorem consumed {c : Kind} {r : Unit} (hc : c = .closeBrace ∨ c = .shebang)
    (hk : s.scanner.token.kind = c) (h : Parse.consume σ s = some (r, t)) :
    ¬ t.draft.EndsSealed E := by
  have hne : s.kind ≠ .endOfFile := by
    show s.scanner.token.kind ≠ _
    rcases hc with rfl | rfl <;> rw [hk] <;> nofun
  have hnode : (Node.ofToken s.scanner.token none).kind = c := by
    rcases hc with rfl | rfl <;> simp [Node.ofToken, Node.literalKind?, hk, Node.leaf]
  have hrun := consumeWith_run none none .usual σ s
  rw [if_neg hne] at hrun
  obtain ⟨-, rfl⟩ := Prod.mk.inj (Option.some.inj (hrun.symm.trans h))
  refine Draft.not_endsSealed ?_ ?_ fun hblock => ?_
  · rcases hc with rfl | rfl <;> rw [hnode] <;> rfl
  · unfold Node.isSealed
    rcases hc with rfl | rfl <;> rw [hnode]
  · have hne : c ≠ .expressionStatement := by rcases hc with rfl | rfl <;> decide
    exact absurd (hblock.symm.trans (Node.isBlockStatement_of_ne (hnode ▸ hne))) (by decide)

end Parse.KindStays

/-- What ends the statement of an expression that was read, where no semicolon stands. -/
def Grammar.expressionEnd (r : Node × Bool) (c : Kind) : Parse Unit :=
  if (r.2 || isBraceCall r.1) = true then child (node .expressionStatement (push r.1))
  else if (c == .closeBrace) = true then push r.1
  else
    child <| node .expressionStatement do
      push r.1
      expect .semicolon

/-- The text ends here with a sealed member, and nothing is reported. -/
structure Session.EndsSealed (E : Excerpt) (t : Session) : Prop where
  stops : t.Stops true E
  sealed : t.draft.EndsSealed E

theorem Session.EndsSealed.atEnd {E : Excerpt} {t : Session} (h : t.EndsSealed E) :
    t.kind = .endOfFile := h.stops.2.2

namespace Parse.Follows

variable {E : Excerpt} {pre : List Child} {a : Option Kind} {g g' : Grammar}

/-- What reaches the end of the text with a sealed member closes. -/
abbrev Seals {α α' : Type} (E : Excerpt) (pre : List Child) (a : Option Kind) (φ : α → α') (m : Parse α)
    (m' : Parse α') : Prop :=
  Follows E pre a φ (fun _ t => t.EndsSealed E) (Session.Meets true E pre) m m'

section

variable {α α' β β' : Type} {φ : α → α'} {ψ : β → β'} {m : Parse α} {m' : Parse α'}

theorem sealing (h : Closes true E pre a φ m m') : Seals E pre a φ m m' := h.ending (·.stops)

/-- What stays before the end of the text. -/
theorem staying {c : Kind} (hc : c ≠ .endOfFile)
    (h : ∀ {σ s t r}, m σ s = some (r, t) → t.kind = s.kind) : Seals E pre (some c) φ m m' :=
  ⟨fun _ ha hm he => absurd ((h hm).symm.trans he.atEnd) ((ha c rfl).symm ▸ hc)⟩

/-- What reads a member that is not sealed. -/
theorem unsealed (h : ∀ {σ s t r}, m σ s = some (r, t) → ¬ t.draft.EndsSealed E) :
    Seals E pre a φ m m' :=
  .never fun hm he => h hm he.sealed

theorem giving (first : Seals E pre a φ m m') (r : β) : Seals E pre a ψ (m >>= fun _ => Pure.pure r)
    (m' >>= fun _ => Pure.pure (ψ r)) := by
  refine ⟨fun {σ σ' s t r'} hσ ha h he => ?_⟩
  obtain ⟨x, u, hm, h⟩ := bind_eq_some.1 h
  obtain ⟨rfl, rfl⟩ := pure_eq_some.1 h
  obtain ⟨hs, hgo⟩ := first.follow hσ ha hm he
  refine ⟨hs, fun halike => ?_⟩
  obtain ⟨t', hm', ht⟩ := hgo halike
  exact ⟨t', bind_eq_some.2 ⟨_, t', hm', rfl⟩, ht⟩

/-- A look keeps the token. -/
theorem testAt {p : Parse Bool} {A B : Parse α} {A' B' : Parse α'} (hp : Tracks E pre a id p p)
    (hlooks : Looks p) (yes : Seals E pre a φ A A') (no : Seals E pre a φ B B') :
    Seals E pre a φ (p >>= fun b => if b = true then A else B)
      (p >>= fun b => if b = true then A' else B') := by
  refine .bindAt (b := a) hp (fun {σ s t r} ha h c' hc' => ?_) fun _ => .choose yes no
  obtain ⟨r', hrun⟩ := hlooks σ s
  obtain ⟨-, rfl⟩ := Prod.mk.inj (Option.some.inj ((hrun s rfl).symm.trans h))
  exact ha c' hc'

end

theorem kind_of_flush {σ : Setting} {s t : Session} {r : Unit} (ha : ∀ c, a = some c → s.kind = c)
    (h : Parse.flush σ s = some (r, t)) : ∀ c, a = some c → t.kind = c := by
  rw [flush_run] at h
  obtain ⟨-, rfl⟩ := Prod.mk.inj (Option.some.inj h)
  exact ha

theorem item_last (hg : g.Closes true E g') {c : Kind} (hc : c ≠ .endOfFile) :
    Seals E pre (some c) id g.item g'.item := by
  refine .bindAt .flush kind_of_flush fun _ => .isAt (.unsealed fun {σ s t r} h => ?_) ?_
  · obtain ⟨_, u, hattribute, h⟩ := bind_eq_some.1 h
    obtain ⟨-, rfl⟩ := pure_eq_some.1 h
    exact KindStays.attributeItem hattribute
  · refine testAt .isAtItem .isAtItem (giving (.sealing (closing_child (closing_node ?_))) true) ?_
    · exact .bind .visibilityIf fun _ => .itemForm hg
    · exact .staying hc fun h => by rw [(pure_eq_some.1 h).2]

/-- The expression of a statement, where a block ends it. -/
theorem statementExpression_last (hg : g.Closes true E g') (hE : E.EndsBlocks) :
    Follows E pre a (Prod.map (Node.shift E.shift) id) (fun r t => r.2 = true ∧ t.Stops true E)
      (Session.Meets true E pre) g.statementExpression g'.statementExpression := by
  refine .bind .flush fun _ => .lookAt (fun s _ => .chooseThat (fun hs => ?_) fun _ => ?_)
    fun _ hf halike => by rw [halike.isAtBlockLike hf]
  · have hk : s.kind.startsBlockLike = true := Session.startsBlockLike_of_isAtBlockLike hs
    let continues (c : Kind) : Bool := [Kind.dot, Kind.question].contains c
    let further (g : Grammar) (head : Node) : Parse (Node × Bool) := do
      return (← g.infixForms .closure (← g.postfixForms head), false)
    show Follows E pre (some s.kind) _ _ _
      (g.parse .blockLike >>= fun head => Parse.kind >>= fun c =>
        if continues c = true then further g head else Pure.pure (head, true))
      (g'.parse .blockLike >>= fun head => Parse.kind >>= fun c =>
        if continues c = true then further g' head else Pure.pure (head, true))
    refine closing_past (P := fun _ => True) hE (fun c hc => ?_) (·.2) hg.tracks
      ((hg.blockLike hE hk).ending (·.2)) (fun _ _ _ => .never fun h he => ?_)
      (fun _ _ _ h => absurd trivial h) fun head _ _ _ => settles_pure (head, true)
    · rcases List.mem_pair.1 (List.contains_iff_mem.1 hc) with rfl | rfl <;> rfl
    · obtain ⟨_, _, -, h⟩ := bind_eq_some.1 h
      obtain ⟨_, _, -, h⟩ := bind_eq_some.1 h
      obtain ⟨rfl, -⟩ := pure_eq_some.1 h
      exact nomatch he.1
  · refine .never fun h he => ?_
    obtain ⟨_, _, -, h⟩ := bind_eq_some.1 h
    obtain ⟨rfl, -⟩ := pure_eq_some.1 h
    exact nomatch he.1

/-- A statement that is an expression alone is not sealed. -/
theorem unsealed_expression {n : Node} (hn : n.kind.isBlockLike = true → ¬ E.EndsBlocks) {σ : Setting}
    {s t : Session} {r : Unit}
    (h : Parse.child (Parse.node .expressionStatement (Parse.push n)) σ s = some (r, t)) :
    ¬ t.draft.EndsSealed E := by
  obtain ⟨-, rfl⟩ := Prod.mk.inj (Option.some.inj h)
  exact Draft.not_endsSealed rfl rfl hn

theorem expressionEnd_last {r : Node × Bool} (hr : r.2 = true → ¬ E.EndsBlocks) {c : Kind} :
    Seals E pre (some c) id
    (Grammar.expressionEnd r c) (Grammar.expressionEnd (Prod.map (Node.shift E.shift) id r) c) := by
  unfold Grammar.expressionEnd
  rw [Prod.map_fst, Grammar.isBraceCall_shift]
  refine .chooseThat (fun hends => .unsealed (unsealed_expression fun hblock => ?_)) fun _ =>
    .chooseThat (fun hc => ?_) fun _ => ?_
  · rcases Bool.or_eq_true_iff.1 hends with hends | hcall
    · exact hr hends
    · -- a call between braces is no block
      rw [eq_of_beq (Bool.and_eq_true_iff.1 hcall).1] at hblock
      exact absurd hblock (by decide)
  · rw [eq_of_beq hc]
    exact .staying nofun fun h => by rw [← (Prod.mk.inj (Option.some.inj h)).2]; rfl
  · exact .sealing (closing_child (closing_node (.bind .push fun _ => closing_expect rfl)))

theorem expressionStatement_last (hg : g.Closes true E g') :
    Seals E pre a id g.expressionStatement g'.expressionStatement := by
  show Seals E pre a id
    (g.statementExpression >>= fun r => Parse.kind >>= fun c => if (c == .semicolon) = true then
      Parse.child (Parse.node .expressionStatement (do Parse.push r.1; Parse.consume))
      else Grammar.expressionEnd r c)
    (g'.statementExpression >>= fun r => Parse.kind >>= fun c => if (c == .semicolon) = true then
      Parse.child (Parse.node .expressionStatement (do Parse.push r.1; Parse.consume))
      else Grammar.expressionEnd r c)
  have hsemicolon (r : Node × Bool) (c : Kind) (hc : (c == .semicolon) = true) :
      Seals E pre (some c) id
        (Parse.child (Parse.node .expressionStatement (do Parse.push r.1; Parse.consume)))
        (Parse.child (Parse.node .expressionStatement (do
          Parse.push (Prod.map (Node.shift E.shift) id r).1; Parse.consume))) := by
    rw [eq_of_beq hc]
    exact .sealing (closing_child (closing_node (.bindAt .push kind_of_modifyDraft fun _ =>
      closing_consume rfl)))
  by_cases hE : E.EndsBlocks
  · refine closing_past (P := (·.2 = true)) hE (fun c hc => ?_) (·.stops) (.statementExpression hg.tracks)
      (statementExpression_last hg hE) hsemicolon
      (fun r c _ hr => expressionEnd_last fun h => absurd h hr) fun r c c' hr => ?_
    · rw [eq_of_beq hc]
      rfl
    · unfold Grammar.expressionEnd
      rw [Prod.map_snd, hr]
      exact settles_bind (settles_node settles_pushChild) fun _ => settles_pushChild
  · exact .bind (.statementExpression hg.tracks) fun r => .kind fun c _ =>
      .chooseThat (hsemicolon r c) fun _ => expressionEnd_last fun _ => hE

theorem statement_last (hg : g.Closes true E g') {c : Kind} (hc : c ≠ .endOfFile) :
    Seals E pre (some c) id g.statement g'.statement := by
  refine .bindAt .flush kind_of_flush fun _ => .kind fun c' hc' => ?_
  obtain rfl := hc' c rfl
  split
  · exact .sealing (closing_child (closing_node (closing_consume rfl)))
  · exact .sealing (closing_child (.letDeclaration hg.tracks))
  · refine testAt .isAtItem .isAtItem (giving (item_last hg hc) ())
      (testAt .isAtExpression .isAtExpression ?_ ?_)
    · exact expressionStatement_last hg
    · exact .staying hc fun h => by rw [(pure_eq_some.1 h).2]

/-- The last member of a text. What it takes is behind where it began, so no recovery follows. -/
theorem rowMember_last (hg : g.Closes true E g') {c : Kind} (hc : c ≠ .endOfFile) {inBraces : Bool} :
    Seals E pre (some c) id (g.rowMember { inBraces, itemsOnly := false })
      (g'.rowMember { inBraces, itemsOnly := false }) := by
  refine ⟨fun {σ σ' s t r} hσ ha h he => ?_⟩
  obtain ⟨_, _, h₁, h⟩ := bind_eq_some.1 h
  obtain ⟨rfl, rfl⟩ := Prod.mk.inj (Option.some.inj h₁)
  obtain ⟨_, u, hstatement, h⟩ := bind_eq_some.1 h
  obtain ⟨_, _, h₁, h⟩ := bind_eq_some.1 h
  obtain ⟨rfl, rfl⟩ := Prod.mk.inj (Option.some.inj h₁)
  split at h
  · exact absurd he.sealed (KindStays.recoverStatement h)
  obtain ⟨rfl, rfl⟩ := pure_eq_some.1 h
  obtain ⟨hs, hgo⟩ := (statement_last hg hc).follow hσ ha hstatement he
  refine ⟨hs, fun {s'} halike => ?_⟩
  obtain ⟨u', hstatement', hu⟩ := hgo halike
  have hlt : s'.offset < u'.offset := by
    obtain ⟨place, hplace, hbefore, -, hscanner⟩ := (hu _ le_rfl).behind
    have hle : (E.move place).offset ≤ u'.scanner.token.range.start := by
      rw [hscanner]
      exact Scanner.le_facing (Excerpt.move_in hplace)
    have hmove : (E.move place).offset = place.offset + E.shift := rfl
    have hoffset := halike.offset
    show s'.offset < u'.scanner.token.range.start
    omega
  refine ⟨u', bind_eq_some.2 ⟨_, s', rfl, bind_eq_some.2 ⟨(), u', hstatement', bind_eq_some.2
    ⟨u', u', rfl, ?_⟩⟩⟩, hu⟩
  have hmoved : (u'.offset == s'.offset) = false := beq_eq_false_iff_ne.2 (by omega)
  rw [hmoved]
  rfl

theorem absorbed_unsealed {σ : Setting} {s t : Session} (h : Parse.absorbBrace σ s = some (true, t)) :
    ¬ t.draft.EndsSealed E := by
  obtain ⟨_, _, h₁, h⟩ := bind_eq_some.1 h
  obtain ⟨rfl, rfl⟩ := Prod.mk.inj (Option.some.inj h₁)
  split at h
  · next hopen =>
    have hkind : s.scanner.token.kind = .closeBrace := eq_of_beq (Bool.and_eq_true_iff.1 hopen).2
    obtain ⟨_, u, h₁, h⟩ := bind_eq_some.1 h
    obtain ⟨-, rfl⟩ := Prod.mk.inj (Option.some.inj h₁)
    obtain ⟨_, u, h₁, h⟩ := bind_eq_some.1 h
    obtain ⟨-, rfl⟩ := Prod.mk.inj (Option.some.inj h₁)
    obtain ⟨_, u, hconsume, h⟩ := bind_eq_some.1 h
    obtain ⟨-, rfl⟩ := pure_eq_some.1 h
    refine KindStays.consumed (.inl rfl) ?_ hconsume
    exact hkind
  · cases (pure_eq_some.1 h).1

/-- The last turn over the statements of a text. -/
theorem rowTurn_last (hg : g.Closes true E g') :
    Follows E pre a id (fun again t => again = true ∧ t.EndsSealed E) (Session.Meets true E pre)
      (g.rowTurn { inBraces := false, itemsOnly := false })
      (g'.rowTurn { inBraces := false, itemsOnly := false }) := by
  refine .bind .flush fun _ => .kind fun c _ => ?_
  split
  · exact .never fun h he => absurd ((pure_eq_some.1 h).1.trans he.1) Bool.false_ne_true
  · refine .never fun {σ s t r} h ⟨_, he⟩ => ?_
    obtain ⟨absorbed, u, habsorb, h⟩ := bind_eq_some.1 h
    cases absorbed with
    | true =>
      obtain ⟨-, rfl⟩ := pure_eq_some.1 h
      exact absorbed_unsealed habsorb he.sealed
    | false =>
      obtain ⟨_, _, -, h⟩ := bind_eq_some.1 h
      obtain ⟨_, v, herror, h⟩ := bind_eq_some.1 h
      obtain ⟨-, rfl⟩ := pure_eq_some.1 h
      exact KindStays.errorNode .consume herror he.sealed
  · next hend hclose =>
    exact (giving (rowMember_last hg hend) true).ending (·.2)

end Parse.Follows

end ConcreteSyntax
