import ConcreteSyntax.Proofs.Expression.Clause
import ConcreteSyntax.Proofs.Node.Retag

/-! # Let chains

The condition of `if … && … {}` is read to clauses folded to the left, and read again as a flat
chain if one of them is a `let` (`Tree.parse_letChain`): what `Node.conjuncts` lists of the folded
clauses is each of them in order, with the marks between them (`Clause.conjuncts_foldl`). -/

namespace ConcreteSyntax

open Parse
open Text (byteLength)

namespace Clause

/-! ### Folded clauses -/

variable {left : Node} {offset : Nat}

theorem isConjunction_join (left : Node) (c : Clause) : (join left c).isConjunction = true := rfl

theorem isConjunction_node (offset : Nat) (c : Clause) : (c.node offset).isConjunction = false := by
  cases c <;> rfl

theorem isConjunction_foldl (h : left.isConjunction = true) (cs : List Clause) :
    (cs.foldl join left).isConjunction = true := by
  induction cs generalizing left with
  | nil => exact h
  | cons c cs ih => exact ih (isConjunction_join left c)

theorem hasLet_node (offset : Nat) (c : Clause) : (c.node offset).hasLet = c.isLet := by
  cases c <;> rfl

theorem hasLet_join (left : Node) (c : Clause) : (join left c).hasLet = (left.hasLet || c.isLet) := by
  have hoperands : Node.anyOperandHasLet (join left c).children =
      (left.hasLet || c.isLet) := by
    simp [join, Node.anyOperandHasLet, Node.isOperand, hasLet_node]
  show (false || ((join left c).isConjunction && Node.anyOperandHasLet (join left c).children)) = _
  rw [isConjunction_join, hoperands]
  rfl

/-- Folded clauses have a `let` if one of them is a `let`. -/
theorem hasLet_foldl (left : Node) (cs : List Clause) :
    (cs.foldl join left).hasLet = (left.hasLet || cs.any isLet) := by
  induction cs generalizing left with
  | nil => simp
  | cons c cs ih => simp [ih, hasLet_join, Bool.or_assoc]

theorem conjuncts_node (offset : Nat) (c : Clause) : (c.node offset).conjuncts = [c.node offset] := by
  rw [Node.conjuncts_eq, isConjunction_node]
  rfl

theorem conjuncts_join (left : Node) (c : Clause) :
    (join left c).conjuncts =
      left.conjuncts ++ [markAt left.range.stop, c.node (left.range.stop + 4)] := by
  rw [Node.conjuncts_eq, isConjunction_join]
  show left.conjuncts ++ ([markAt _] ++ ((c.node _).conjuncts ++ [])) = _
  rw [conjuncts_node]
  rfl

/-- Folded clauses are joined by `&&` as they stand in a row. -/
theorem conjuncts_foldl (left : Node) (cs : List Clause) :
    (cs.foldl join left).conjuncts = left.conjuncts ++ row left.range.stop cs := by
  induction cs generalizing left with
  | nil => simp [row]
  | cons c cs ih =>
    rw [List.foldl_cons, ih, conjuncts_join, row, List.append_assoc]
    rfl

/-! ### The condition -/

/-- The nodes of clauses in a row that begins at an offset, and of the marks between them. -/
def chain (offset : Nat) (first : Clause) (more : List Clause) : List Node :=
  first.node offset :: row (offset + byteLength first.text) more

/-- The condition that clauses from an offset on are read to: one flat chain of them if one is a
`let`, or else a tree of `&&` that leans to the left. -/
structure IsCondition (offset : Nat) (first : Clause) (more : List Clause) (n : Node) : Prop where
  isChain : (first :: more).any isLet = true → n.kind = .letChain ∧
    n.children = (chain offset first more).map fun part => (none, part)
  isFlat : (first :: more).any isLet = true → ∀ m ∈ n.preorder, m.kind ≠ .binaryExpression
  isFolded : (first :: more).any isLet = false → n = more.foldl join (first.node offset)

theorem conjuncts_condition (offset : Nat) (first : Clause) (more : List Clause) :
    (more.foldl join (first.node offset)).conjuncts = chain offset first more := by
  rw [conjuncts_foldl, conjuncts_node, range_node]
  rfl

theorem flat_simple (kind : Kind) (range : Range) (hk : kind ≠ .binaryExpression) :
    ∀ m ∈ (Node.simple kind range).preorder, m.kind ≠ .binaryExpression :=
  List.forall_mem_singleton.2 hk

/-- No clause holds a binary expression. -/
theorem flat_node (offset : Nat) (c : Clause) :
    ∀ m ∈ (c.node offset).preorder, m.kind ≠ .binaryExpression := by
  cases c with
  | test name => exact flat_simple .identifier _ nofun
  | binding pattern value =>
    rw [Node.preorder_eq]
    refine List.forall_mem_cons.2 ⟨nofun, fun m hm => ?_⟩
    obtain ⟨part, hpart, hm⟩ := List.mem_flatMap.1 hm
    simp only [node, nameAt, List.mem_cons, List.not_mem_nil, or_false] at hpart
    rcases hpart with rfl | rfl | rfl | rfl
    · exact flat_simple .letKw _ nofun m hm
    · exact flat_simple .identifier _ nofun m hm
    · exact flat_simple .eq _ nofun m hm
    · exact flat_simple .identifier _ nofun m hm

theorem flat_row (offset : Nat) (cs : List Clause) :
    ∀ n ∈ row offset cs, ∀ m ∈ n.preorder, m.kind ≠ .binaryExpression := by
  induction cs generalizing offset with
  | nil => nofun
  | cons c cs ih =>
    exact List.forall_mem_cons.2 ⟨flat_simple .ampAmp _ nofun,
      List.forall_mem_cons.2 ⟨flat_node _ c, ih _⟩⟩

/-- Two clauses or more, folded and read again. -/
theorem isCondition_asLetChain (offset : Nat) (first second : Clause) (more : List Clause) :
    IsCondition offset first (second :: more)
      ((second :: more).foldl join (first.node offset)).asLetChain := by
  have hconjunction : ((second :: more).foldl join (first.node offset)).isConjunction = true :=
    isConjunction_foldl (isConjunction_join _ second) more
  have hlet : ((second :: more).foldl join (first.node offset)).hasLet =
      (first :: second :: more).any isLet := by
    rw [hasLet_foldl, hasLet_node]
    rfl
  have hchain (h : (first :: second :: more).any isLet = true) :
      ((second :: more).foldl join (first.node offset)).asLetChain.kind = .letChain ∧
        ((second :: more).foldl join (first.node offset)).asLetChain.children =
          (chain offset first (second :: more)).map fun part => (none, part) := by
    rw [Node.asLetChain, hconjunction, hlet, h, ← conjuncts_condition]
    exact ⟨rfl, rfl⟩
  refine ⟨hchain, fun h => ?_, fun h => ?_⟩
  · obtain ⟨hkind, hchildren⟩ := hchain h
    rw [Node.preorder_eq, hchildren]
    refine List.forall_mem_cons.2 ⟨by rw [hkind]; nofun, fun m hm => ?_⟩
    obtain ⟨_, hchild, hm⟩ := List.mem_flatMap.1 hm
    obtain ⟨part, hpart, rfl⟩ := List.mem_map.1 hchild
    exact List.forall_mem_cons.2 ⟨flat_node offset first, flat_row _ _⟩ part hpart m hm
  · rw [Node.asLetChain, hconjunction, hlet, h]
    rfl

end Clause

/-! ### Reading an `if` -/

section Reading

variable {source : String} {draft : Draft} {s : Session} {σ : Setting} {depth offset : Nat}

/-- An empty block at the end of a text. -/
def emptyBlock : List Char := [' ', '{', '}']

theorem comes_emptyBlock : Comes emptyBlock 1 .openBrace ['{'] ['}'] :=
  .of_spells (spells_delimiter '{' .openBrace ['}'] (by decide)) nofun 1

theorem Clause.bounds_emptyBlock : Bounds emptyBlock .openBrace :=
  ⟨⟨_, rfl⟩, ⟨_, _, comes_emptyBlock⟩, .inr rfl⟩

/-- Where a `}` stands that closes no skipped `{`, a row between braces ends. -/
theorem Grammar.statements_none {g : Grammar} {rest : List Char}
    (h : s.Upon source draft offset .closeBrace ['}'] rest) :
    g.statements { inBraces := true, itemsOnly := false } σ s = some ((), s) := by
  have habsorb : absorbBrace σ s = some (false, s) := by
    refine bind_eq_some.2 ⟨s, s, rfl, ?_⟩
    rw [h.braces]
    rfl
  refine repeatWhile_done (bind_eq_some.2 ⟨(), s, h.flush, bind_eq_some.2 ⟨s.kind, s, rfl, ?_⟩⟩)
  rw [h.kind_eq]
  exact bind_eq_some.2 ⟨false, s, habsorb, rfl⟩

/-- Braces with nothing between them at the end of a text. -/
theorem Grammar.braced_none {g : Grammar}
    (h : s.Upon source draft offset .openBrace ['{'] ['}']) :
    ∃ t closed, g.braced { inBraces := true, itemsOnly := false } σ s = some ((), t) ∧
      t.Before source closed [] := by
  obtain ⟨t, htake, ht⟩ := h.consume (σ := σ) rfl
  have hend := ht.upon (.of_spells (spells_delimiter '}' .closeBrace [] (by decide)) nofun 0) rfl
  have hrun : ∃ u, close .openBrace s.scanner.token.range σ t = some ((), u) ∧
      u.Before source _ [] := close_run .openBrace hend rfl rfl
  obtain ⟨u, hclose, hu⟩ := hrun
  have hopen : Parse.isAt .openBrace σ s = some (true, s) :=
    congrArg some (Prod.ext (h.isAt .openBrace) rfl)
  exact ⟨u, _, bind_eq_some.2 ⟨true, s, hopen, bind_eq_some.2 ⟨_, s, rfl,
    bind_eq_some.2 ⟨(), t, htake, bind_eq_some.2 ⟨(), t, statements_none hend, hclose⟩⟩⟩⟩, hu⟩

/-- An empty block. -/
theorem gives_emptyBlock (hw : σ.watches = false) (hs : s.Before source draft emptyBlock) :
    Gives source.toList σ ((Grammar.upTo depth).parse .block) s
      fun _ t => t.Before source draft [] := by
  obtain ⟨offset, hs⟩ := hs
  have hopen := hs.upon comes_emptyBlock rfl
  refine .parse hw fun depth => .step hopen.flush (.guarded hs.sound (.node ?_))
  obtain ⟨t, closed, hrun, ht⟩ := Grammar.braced_none (g := .upTo depth)
    (σ := { σ with depth := σ.depth + 1, restriction := {} }) (hopen.withDraft (.ofKind .block))
  have hbody : (Grammar.upTo depth).blockBody { σ with depth := σ.depth + 1 }
      (s.withDraft (.ofKind .block)) = some ((), t) := hrun
  exact .of_run hbody (hs.draft ▸ ht.withDraft _)

/-- An `if` with this condition. -/
def Node.HasCondition (n condition : Node) : Prop :=
  n.kind = .ifExpression ∧ n.childByField? .condition = some condition

/-- A statement that is a bare expression, of which this holds. -/
def Node.States (P : Node → Prop) (n : Node) : Prop :=
  n.kind = .expressionStatement ∧ ∃ e, n.children = [(none, e)] ∧ P e

/-- An `if` up to the end of the text. -/
theorem gives_ifExpression (hw : σ.watches = false) {first : Clause} {more : List Clause}
    (hs : s.Upon source draft offset .ifKw ['i', 'f']
      (' ' :: (first.text ++ (Clause.further more ++ emptyBlock)))) :
    Gives source.toList σ (Grammar.upTo depth).ifExpression s fun n t =>
      n.HasCondition (more.foldl Clause.join (first.node (offset + 3))).asLetChain ∧
        t.Before source draft [] := by
  obtain ⟨t, htake, ht⟩ := (hs.withDraft (.ofKind .ifExpression)).consume (σ := σ) rfl
  obtain ⟨next, hnext⟩ := Clause.bounds_emptyBlock.further more
  obtain ⟨_, _, _, hspells, -⟩ := first.spells_first hnext
  have hfaces : t.Faces source t.draft (offset + 3)
      (first.text ++ (Clause.further more ++ emptyBlock)) :=
    ht.draft ▸ ht.pastBlank hspells
  have hclauses : Gives source.toList σ
      (restricted { noStructLiteral := true, allowLet := true } (Grammar.upTo depth).expression) t
      fun n u => n = more.foldl Clause.join (first.node (offset + 3)) ∧
        u.Before source t.draft emptyBlock :=
    Clause.gives_expression (σ := { σ with restriction := ⟨true, true⟩ }) hw rfl
      Clause.bounds_emptyBlock more hfaces
  have hcondition : Gives source.toList σ ((Grammar.upTo depth).condition true) t fun n u =>
      n = (more.foldl Clause.join (first.node (offset + 3))).asLetChain ∧
        u.Before source t.draft emptyBlock :=
    hclauses.andThen fun n u => ⟨_, u, rfl, rfl, rfl, rfl, fun h =>
      ⟨congrArg Node.asLetChain h.1, h.2⟩⟩
  refine .node (.step htake (.bind (P := fun _ u => u.Before source (t.draft.pushField .condition
    (more.foldl Clause.join (first.node (offset + 3))).asLetChain) emptyBlock)
    (.field hcondition ?_) (fun _ => ?_) ?_))
  · rintro n u ⟨rfl, hu⟩
    exact hu.draft_eq ▸ hu.withDraft _
  · exact .of_rule depth (q := fun _ => ⟨.empty, none, false, false, .proper⟩) <|
      .bind (.field (.call (.inl rfl) rfl)) fun _ =>
        .isAt (.field (.perhaps .elseClauseAt)) (.pure (.refl _))
  · rintro ⟨⟩ u hu
    refine .bind (P := fun _ v => ∃ block, v.Before source (u.draft.pushField .consequence block) [])
      (.field (gives_emptyBlock hw (hu.draft_eq ▸ hu)) ?_) (fun _ => ?_) ?_
    · intro n v hv
      exact ⟨n, hv.draft_eq ▸ hv.withDraft _⟩
    · exact .of_rule depth (q := fun _ => ⟨.empty, none, false, false, .proper⟩) <|
        .isAt (.field (.perhaps .elseClauseAt)) (.pure (.refl _))
    · rintro ⟨⟩ v ⟨block, hv⟩
      have helse : Parse.isAt .elseKw σ v = some (false, v) := by
        refine congrArg some (Prod.ext ?_ rfl)
        rw [Session.isAt, (hv.atEnd (σ := σ)).1]
        rfl
      refine .step helse (.pure ⟨⟨?_, ?_⟩, hs.draft ▸ hv.withDraft _⟩)
      · show v.draft.kind = _
        rw [hv.draft_eq, hu.draft_eq, ht.draft]
        rfl
      · show ((v.draft.children.toList.find? _).map _) = _
        rw [hv.draft_eq, hu.draft_eq, ht.draft]
        rfl

/-- An `if` as a statement, up to the end of the text. -/
theorem gives_ifStatement (hw : σ.watches = false) {P : Node → Prop} {rest : List Char}
    (hs : s.Upon source draft offset .ifKw ['i', 'f'] rest)
    (h : ∀ {σ : Setting} {depth : Nat}, σ.watches = false →
      Gives source.toList σ (Grammar.upTo depth).ifExpression s fun n t =>
        P n ∧ t.Before source draft []) :
    Gives source.toList σ (Grammar.upTo depth).statement s fun _ t =>
      EndsWith source draft (Node.States P) t := by
  have hhead : Gives source.toList σ ((Grammar.upTo depth).parse .blockLike) s fun n t =>
      P n ∧ t.Before source draft [] := by
    refine .parse hw fun depth => .guarded hs.sound (.step rfl ?_)
    rw [hs.kind_eq]
    exact h hw
  have hexpression : Gives source.toList σ (Grammar.upTo depth).statementExpression s fun r t =>
      r.2 = true ∧ P r.1 ∧ t.Before source draft [] := by
    have hlike : s.isAtBlockLike = true := by
      rw [Session.isAtBlockLike, hs.kind_eq]
    refine .step hs.flush (.step rfl ?_)
    rw [hlike]
    refine .bind hhead (fun n => ?_) ?_
    · exact .of_rule depth .afterBlockLike
    · rintro n t ⟨hn, ht⟩
      have hmore : isAtAny [.dot, .question] σ t = some (false, t) := by
        refine congrArg some (Prod.ext ?_ rfl)
        rw [Session.isAtAny, (ht.atEnd (σ := σ)).1]
        rfl
      exact .step hmore (.pure ⟨rfl, hn, ht⟩)
  have hitem : isAtItem σ s = some (false, s) := by
    refine bind_eq_some.2 ⟨s, s, rfl, ?_⟩
    rw [hs.kind_eq]
    rfl
  have hstarts : isAtExpression σ s = some (true, s) := by
    refine bind_eq_some.2 ⟨s.kind, s, rfl, ?_⟩
    rw [hs.kind_eq]
    rfl
  refine .step hs.flush (.step rfl ?_)
  rw [hs.kind_eq]
  refine .step hitem (.step hstarts (.bind hexpression (fun r => ?_) ?_))
  · exact .of_rule depth .afterExpression
  · rintro ⟨n, isBlockLike⟩ t ⟨hlike, hn, ht⟩
    obtain rfl : isBlockLike = true := hlike
    have hkind : Parse.kind σ t = some (.endOfFile, t) :=
      congrArg some (Prod.ext (ht.atEnd (σ := σ)).1 rfl)
    refine .step hkind (.of_run rfl
      ⟨((Draft.ofKind .expressionStatement).push n).finish t.consumedEnd, ⟨rfl, n, rfl, hn⟩, ?_⟩)
    exact ht.draft_eq ▸ ht.withDraft _

end Reading

/-! ### The whole text -/

/-- The text `if … && … {}` around clauses. -/
def Clause.ifText (first : Clause) (more : List Clause) : String :=
  String.ofList ('i' :: 'f' :: ' ' :: (first.text ++ (further more ++ emptyBlock)))

/-- A file with an `if` around clauses. -/
theorem Clause.gives_sourceFile {σ : Setting} {depth : Nat} (hw : σ.watches = false)
    (first : Clause) (more : List Clause) :
    Gives (ifText first more).toList σ (Grammar.upTo depth).sourceFile (.start (ifText first more))
      fun _ t => t.report = .empty ∧ ∃ n,
        n.States (·.HasCondition (more.foldl join (first.node 3)).asLetChain) ∧
          t.draft = (Draft.ofKind .sourceFile).push n := by
  have hstart := Session.faces_start (ifText first more)
  have htext : (ifText first more).toList =
      ['i', 'f'] ++ ' ' :: (first.text ++ (further more ++ emptyBlock)) := String.toList_ofList
  have hword : Spells (['i', 'f'] ++ ' ' :: (first.text ++ (further more ++ emptyBlock))) .ifKw
      ['i', 'f'] (' ' :: (first.text ++ (further more ++ emptyBlock))) :=
    spells_wordBlank (Lexeme.isWord_of_all (by decide) (by decide))
  rw [htext] at hstart
  have hs := hstart.upon (.of_spells hword nofun 0) rfl
  exact .onlyStatement hs (by decide) (gives_ifStatement hw hs fun hw => gives_ifExpression hw hs)

/-- **Let chains.** An `if` over two clauses or more joined with `&&` is read without a diagnostic,
unless it nests too deeply. If a clause is a `let`, the condition is one flat chain of the clauses and
the marks between them; otherwise the clauses are folded to the left. -/
theorem Tree.parse_letChain {file : String} {options : Options} {first second : Clause}
    {more : List Clause}
    (h : ∀ d ∈ (parse file (Clause.ifText first (second :: more)) options).diagnostics,
      d.code ≠ Message.nestingLimit.code) :
    (parse file (Clause.ifText first (second :: more)) options).diagnostics = [] ∧
      ∃ statement branch condition,
        (parse file (Clause.ifText first (second :: more)) options).root.children =
          [(none, statement)] ∧
        statement.kind = .expressionStatement ∧ statement.children = [(none, branch)] ∧
        branch.kind = .ifExpression ∧ branch.childByField? .condition = some condition ∧
        Clause.IsCondition 3 first (second :: more) condition := by
  obtain ⟨hclean, statement, hroot, hstatement, branch, hbranch, hif, hcondition⟩ :=
    parse_only (fun depth => Clause.gives_sourceFile rfl first (second :: more)) h
  exact ⟨hclean, statement, branch, _, hroot, hstatement, hbranch, hif, hcondition,
    Clause.isCondition_asLetChain 3 first second more⟩

/-- The condition of `if a && let b = c && d {}` is a chain of three clauses. -/
theorem Tree.parse_letChain_mixed :
    (∀ d ∈ (parse "f.rs" (Clause.ifText (.test ⟨['a'], rfl⟩)
      [.binding ⟨['b'], rfl⟩ ⟨['c'], rfl⟩, .test ⟨['d'], rfl⟩]) {}).diagnostics,
      d.code ≠ Message.nestingLimit.code) ∧
    ∃ statement branch condition,
      (parse "f.rs" (Clause.ifText (.test ⟨['a'], rfl⟩)
        [.binding ⟨['b'], rfl⟩ ⟨['c'], rfl⟩, .test ⟨['d'], rfl⟩]) {}).root.children =
        [(none, statement)] ∧
      statement.children = [(none, branch)] ∧ branch.childByField? .condition = some condition ∧
      condition.kind = .letChain ∧ condition.children.length = 5 := by
  have h : ∀ d ∈ (parse "f.rs" (Clause.ifText (.test ⟨['a'], rfl⟩)
      [.binding ⟨['b'], rfl⟩ ⟨['c'], rfl⟩, .test ⟨['d'], rfl⟩]) {}).diagnostics,
      d.code ≠ Message.nestingLimit.code := code_ne_of_run (by decide +kernel)
  obtain ⟨-, statement, branch, condition, hroot, -, hstatement, -, hbranch, hcondition⟩ :=
    parse_letChain h
  obtain ⟨hkind, hchildren⟩ := hcondition.isChain rfl
  exact ⟨h, statement, branch, condition, hroot, hstatement, hbranch, hkind, by rw [hchildren]; rfl⟩

end ConcreteSyntax
