import ConcreteSyntax.Proofs.Expression.Delimited

/-! # Terms with operators

A term with an operator before its operand, the two kinds of reference among them, and a term with an
operator between two others. An operator between two terms takes as its right operand all that binds
tightly enough, so what is read depends on the table of operators (`Term.ReadsInfix.binary`). -/

namespace ConcreteSyntax

open Parse
open Text (byteLength)
open Term (bracket)

variable {source : String} {draft : Draft} {cs word rest : List Char} {kind : Kind} {s : Session}
  {σ : Setting} {n : Node} {e : Term} {b : Bool} {text : List Char} {depth : Nat}

/-! ### Operators before their operand -/

theorem Term.ReadsPrefixed.operand (h : e.ReadsPrefixed source b) (hσ : σ.Plain)
    (hs : s.Before source draft (bracket b e.text ++ cs)) (hf : Follower cs kind)
    (hp : kind.isPostfix = false) :
    Gives source.toList σ ((Grammar.upTo depth).parse .operand) s (e.Reads source draft cs) := by
  obtain ⟨first, word, rest, hopens, -⟩ := Term.starts_written (b := b) (e := e) False nofun hf
  obtain ⟨offset, hupon⟩ := hs.upon_opens hopens
  exact .parse hσ.watches fun depth => .step hupon.flush (.guarded hs.sound (h hσ.deeper hs hf hp))

/-- An operator and its operand, references apart. -/
theorem Term.ReadsPrefixed.unary {c : Char} {mark : UnaryMark} {first : Kind} {offset : Nat}
    (h : e.ReadsPrefixed source b) (hσ : σ.Plain) (hmark : UnaryMark.ofKind? first = some mark)
    (hs : s.Upon source draft offset first [c] (bracket b e.text ++ cs))
    (hleaf : first.becomesLeaf = true) (hf : Follower cs kind) (hp : kind.isPostfix = false) :
    Gives source.toList σ (Grammar.upTo depth).unary s
      ((Term.unary mark e).Reads source draft cs) := by
  obtain ⟨t, hconsume, ht⟩ := (hs.withDraft (.ofKind .unaryExpression)).consume (σ := σ) hleaf
  refine .node (.step hconsume (.child (h.operand hσ (ht.draft ▸ ht.before) hf hp) ?_))
  rintro m u ⟨hm, hu⟩
  refine ⟨?_, hs.draft ▸ (hu.withDraft _).withDraft _⟩
  rw [hu.draft_eq, ht.draft]
  show (do return Term.unary (← UnaryMark.ofKind? first) (← Term.ofNode? source m)) = _
  rw [hmark, hm]
  rfl

/-! ### References -/

/-- Whether a term is a reference. -/
def Term.isReference : Term → Bool
  | .unary .amp _ | .unary .ampMut _ => true
  | _ => false

/-- A reference as it is read where a `&` is sure to stand. -/
def Term.ReadsReference (source : String) (e : Term) : Prop :=
  ∀ ⦃depth : Nat⦄ ⦃σ : Setting⦄ ⦃draft : Draft⦄ ⦃cs : List Char⦄ ⦃kind : Kind⦄ ⦃s : Session⦄,
    σ.Plain → s.Before source draft (e.text ++ cs) → Follower cs kind → kind.isPostfix = false →
    Gives source.toList σ (Grammar.upTo depth).reference s (e.Reads source draft cs)

/-- A name is followed by no word that goes on with it. -/
theorem ahead_ne {offset : Nat} (h : s.Upon source draft offset kind word rest) {next : Kind}
    (hf : Follower rest next) : s.ahead 1 ≠ .constKw ∧ s.ahead 1 ≠ .mutKw := by
  have hfaces : (Scanner.facing .usual { offset := offset + byteLength word, rest }).Faces
      (offset + byteLength word) rest := ⟨.usual, .inl rfl, .inl rfl⟩
  have hends := hf.ends
  rw [h.ahead]
  rcases hfaces.kind_eq hf with hk | ⟨hk, -⟩
  · rw [hk]
    constructor
    · rintro rfl
      exact nomatch hends
    · rintro rfl
      exact nomatch hends
  · rw [hk]
    exact ⟨nofun, nofun⟩

theorem isAtWord_run (word : String) :
    ∃ b, isAtWord word σ s = some (b, s) ∧ (b = true → s.kind = .identifier) := by
  cases h : s.isAt .identifier with
  | true =>
    exact ⟨_, bind_eq_some.2 ⟨true, s, congrArg some (Prod.ext h rfl), rfl⟩, fun _ => eq_of_beq h⟩
  | false => exact ⟨false, bind_eq_some.2 ⟨false, s, congrArg some (Prod.ext h rfl), rfl⟩, nofun⟩

/-- Where `raw` stands before neither `const` nor `mut`, only `mut` modifies a reference. -/
theorem referenceModifier_run
    (h : s.kind = .identifier → s.ahead 1 ≠ .constKw ∧ s.ahead 1 ≠ .mutKw) :
    Grammar.referenceModifier σ s = consumeIf .mutKw σ s := by
  obtain ⟨b, hrun, hb⟩ := isAtWord_run (σ := σ) (s := s) "raw"
  have hword : (b && (s.ahead 1 == .constKw || s.ahead 1 == .mutKw)) = false := by
    cases b with
    | false => rfl
    | true =>
      obtain ⟨hconst, hmut⟩ := h (hb rfl)
      rw [beq_eq_false_iff_ne.2 hconst, beq_eq_false_iff_ne.2 hmut]
      rfl
  refine (bind_of_run rfl).trans ((bind_of_run hrun).trans ?_)
  rw [hword]
  rfl

/-- Before a term no word modifies a reference. -/
theorem referenceModifier_none {offset : Nat} (h : s.Upon source draft offset kind word rest)
    (ho : Term.Opens cs kind word rest) : Grammar.referenceModifier σ s = some ((), s) := by
  refine (referenceModifier_run fun hk => ?_).trans (ifAt_other ?_)
  · obtain ⟨next, hf⟩ := ho.follower (h.kind_eq.symm.trans hk)
    exact ahead_ne h hf
  · rw [h.isAt]
    refine beq_eq_false_iff_ne.2 ?_
    rintro rfl
    exact nomatch ho.starts

/-- A reference to an operand that the mark touches. -/
theorem Term.ReadsPrefixed.reference (h : e.ReadsPrefixed source b) (hσ : σ.Plain)
    (hs : s.Before source draft ('&' :: (bracket b e.text ++ cs)))
    (hspells : Spells ('&' :: (bracket b e.text ++ cs)) .amp ['&'] (bracket b e.text ++ cs))
    (hf : Follower cs kind) (hp : kind.isPostfix = false) :
    Gives source.toList σ (Grammar.upTo depth).reference s
      ((Term.unary .amp e).Reads source draft cs) := by
  obtain ⟨offset, hupon⟩ := hs.upon hspells rfl
  have hwithin := hupon.withDraft (.ofKind .referenceExpression)
  obtain ⟨t, hconsume, ht⟩ := hwithin.consume (σ := σ) rfl
  obtain ⟨first, word, rest, hopens, -⟩ := Term.starts_written (b := b) (e := e) False nofun hf
  obtain ⟨offset', hfirst⟩ := ht.before.upon_opens hopens
  refine .node (.step (t := _) (congrArg some (Prod.ext (hwithin.isAt .ampAmp) rfl)) ?_)
  refine .step hconsume (.step (referenceModifier_none hfirst hopens)
    (.field (h.operand hσ (ht.draft ▸ ht.before) hf hp) ?_))
  rintro m u ⟨hm, hu⟩
  refine ⟨?_, hs.draft_eq ▸ (hu.withDraft _).withDraft _⟩
  rw [hu.draft_eq, ht.draft]
  show (do return Term.unary .amp (← Term.ofNode? source m)) = _
  rw [hm]
  rfl

/-- A reference to a reference, whose marks touch and are read as one token. -/
theorem Term.ReadsReference.reference (h : e.ReadsReference source) (hσ : σ.Plain)
    (htext : e.text ++ cs = '&' :: rest) (hs : s.Before source draft ('&' :: '&' :: rest))
    (hf : Follower cs kind) (hp : kind.isPostfix = false) :
    Gives source.toList σ (Grammar.upTo depth).reference s
      ((Term.unary .amp e).Reads source draft cs) := by
  obtain ⟨offset, hupon⟩ := hs.upon (Term.spells_ampAmp rest) rfl
  have hwithin := hupon.withDraft (.ofKind .referenceExpression)
  obtain ⟨t, hconsume, ht⟩ := (hwithin.split Scanner.splitsInto_ampAmp rfl rfl).consume (σ := σ) rfl
  have ht' : t.Before source t.draft (e.text ++ cs) := htext ▸ ht.draft ▸ ht.before
  have hinner : Gives source.toList σ ((Grammar.upTo depth).parse .innerReference) t
      (e.Reads source t.draft cs) :=
    .parse hσ.watches fun depth => .guarded ht.sound (h hσ.deeper ht' hf hp)
  refine .node (.step (t := _) (congrArg some (Prod.ext (hwithin.isAt .ampAmp) rfl)) ?_)
  refine .step rfl (.step hconsume (.field hinner ?_))
  rintro m u ⟨hm, hu⟩
  refine ⟨?_, hs.draft_eq ▸ (hu.withDraft _).withDraft _⟩
  rw [hu.draft_eq, ht.draft]
  show (do return Term.unary .amp (← Term.ofNode? source m)) = _
  rw [hm]
  rfl

/-- A reference to what may be changed. -/
theorem Term.ReadsPrefixed.referenceMut (h : e.ReadsPrefixed source b) (hσ : σ.Plain)
    (hs : s.Before source draft ('&' :: 'm' :: 'u' :: 't' :: ' ' :: (bracket b e.text ++ cs)))
    (hf : Follower cs kind) (hp : kind.isPostfix = false) :
    Gives source.toList σ (Grammar.upTo depth).reference s
      ((Term.unary .ampMut e).Reads source draft cs) := by
  obtain ⟨offset, hupon⟩ := hs.upon (Term.spells_ampMut _) rfl
  have hwithin := hupon.withDraft (.ofKind .referenceExpression)
  obtain ⟨t, hconsume, ht⟩ := hwithin.consume (σ := σ) rfl
  have hword : Spells (['m', 'u', 't'] ++ ' ' :: (bracket b e.text ++ cs)) .mutKw ['m', 'u', 't']
      (' ' :: (bracket b e.text ++ cs)) :=
    spells_wordBlank (Lexeme.isWord_of_all (by decide) (by decide))
  obtain ⟨offset', hmut⟩ := ht.before.upon hword rfl
  obtain ⟨u, hconsumeMut, hu⟩ := hmut.consume (σ := σ) rfl
  have hmodifier : Grammar.referenceModifier σ t = some ((), u) := by
    refine (referenceModifier_run fun hk => ?_).trans ?_
    · exact nomatch hmut.kind_eq.symm.trans hk
    · exact bind_eq_some.2 ⟨true, t, congrArg some (Prod.ext (hmut.isAt .mutKw) rfl), hconsumeMut⟩
  obtain ⟨first, word, rest, hopens, -⟩ := Term.starts_written (b := b) (e := e) False nofun hf
  have hu' : u.Before source u.draft (bracket b e.text ++ cs) :=
    hu.draft ▸ hu.before.past hopens.spells
  refine .node (.step (t := _) (congrArg some (Prod.ext (hwithin.isAt .ampAmp) rfl)) ?_)
  refine .step hconsume (.step hmodifier (.field (h.operand hσ hu' hf hp) ?_))
  rintro m v ⟨hm, hv⟩
  refine ⟨?_, hs.draft_eq ▸ (hv.withDraft _).withDraft _⟩
  rw [hv.draft_eq, hu.draft]
  show (do return Term.unary .ampMut (← Term.ofNode? source m)) = _
  rw [hm]
  rfl

/-- A text in which a reference touches the mark of another one. -/
theorem Term.isReference_of_head (hf : Follower cs kind)
    (h : (bracket (e.isLooser .unary) e.text ++ cs).head? = some '&') :
    e.isLooser .unary = false ∧ e.isReference = true := by
  cases hb : e.isLooser .unary with
  | true =>
    rw [hb, bracket_true_append] at h
    exact nomatch h
  | false =>
    rw [hb] at h
    refine ⟨rfl, ?_⟩
    have htight : e.level ≠ .call := by
      intro hcall
      obtain ⟨first, word, rest, -, ht⟩ := starts_written (b := false) (e := e) (e.level = .call)
        (fun hl _ => hl) hf
      exact (ht hcall).2 h
    cases e with
    | unary mark operand =>
      cases mark with
      | amp => rfl
      | ampMut => rfl
      | minus => exact nomatch Option.some.inj h
      | bang => exact nomatch Option.some.inj h
      | star => exact nomatch Option.some.inj h
    | binary mark left right =>
      have hall : ∀ c ∈ OperatorClass.joining, c.precedence.rank < Precedence.unary.rank := by
        decide
      have hloose := decide_eq_true (hall _ mark.operator_mem)
      exact nomatch hb.symm.trans hloose
    | _ => exact absurd rfl htight

/-! ### Operators between two terms -/

theorem BinaryMark.ofKind?_kind (m : BinaryMark) : BinaryMark.ofKind? m.kind = some m := by
  unfold BinaryMark.ofKind?
  split
  · next operator h =>
    obtain rfl := Option.some.inj (h.symm.trans m.ofKind)
    rw [dif_pos m.joins]
  · next h => exact nomatch h.symm.trans m.ofKind

theorem BinaryMark.rightPrecedence_eq (m : BinaryMark) :
    m.operator.rightPrecedence = m.operator.operandPrecedence .right := by
  have hall : ∀ c ∈ OperatorClass.joining, c.rightPrecedence = c.operandPrecedence .right := by
    decide
  exact hall _ m.operator_mem

/-- A node of an infix operator, read back. -/
theorem Term.ofNode?_binary {mark : BinaryMark} {left right : Term} {l r : Node} {range r' : Range}
    {flags : NodeFlags} {label : Option Field} (hl : l.IsTerm source left)
    (hr : r.IsTerm source right) :
    Node.IsTerm source ⟨mark.operator.nodeKind, range, flags,
      [(some .left, l), (label, .simple mark.kind r'), (some .right, r)]⟩
      (.binary mark left right) := by
  have hkinds : ∀ c ∈ OperatorClass.joining, c.nodeKind = .binaryExpression ∨
      c.nodeKind = .assignmentExpression ∨ c.nodeKind = .compoundAssignmentExpr := by
    decide
  have hback : (do
      let m ← BinaryMark.ofKind? mark.kind
      if m.operator.nodeKind = mark.operator.nodeKind then
        return Term.binary m (← Term.ofNode? source l) (← Term.ofNode? source r)
      else none) = some (Term.binary mark left right) := by
    rw [mark.ofKind?_kind, hl, hr]
    simp
  unfold Node.IsTerm
  rcases hkinds _ mark.operator_mem with hk | hk | hk
  · rw [hk] at hback ⊢
    exact hback
  · rw [hk] at hback ⊢
    exact hback
  · rw [hk] at hback ⊢
    exact hback

/-- The mark of an infix operator, labelled or not. -/
theorem infixMark_run {offset : Nat} (c : OperatorClass)
    (h : s.Upon source draft offset kind word rest) (hk : kind.becomesLeaf = true) :
    ∃ label s', Grammar.infixMark c σ s = some ((), s') ∧ s'.Before source
      (draft.pushChild label (.simple kind ⟨offset, offset + byteLength word⟩)) rest := by
  have hconsume (label : Option Field) := h.consumeWith (σ := σ) label none .usual hk nofun (.inl rfl)
  unfold Grammar.infixMark
  split
  · obtain ⟨s', hrun, hs', -⟩ := hconsume none
    exact ⟨none, s', hrun, hs'.before⟩
  · obtain ⟨s', hrun, hs', -⟩ := hconsume (some .operator)
    exact ⟨some .operator, s', hrun, hs'.before⟩

theorem BinaryMark.becomesLeaf (m : BinaryMark) : m.kind.becomesLeaf = true := by
  have hall : ∀ k ∈ Kind.joining, k.becomesLeaf = true := by decide
  exact hall m.kind m.kind_mem

theorem BinaryMark.isPostfix (m : BinaryMark) : m.kind.isPostfix = false := by
  have hall : ∀ k ∈ Kind.joining, k.isPostfix = false := by decide
  exact hall m.kind m.kind_mem

/-- An operator after a term, and its right operand. -/
theorem Term.ReadsWhole.binary {mark : BinaryMark} {left : Term} {offset : Nat}
    (h : e.ReadsWhole source b (mark.operator.operandPrecedence .right)) (hσ : σ.Plain)
    (hn : n.IsTerm source left)
    (hs : s.Upon source draft offset mark.kind mark.text (' ' :: (bracket b e.text ++ cs)))
    (hf : Follower cs kind) (hp : kind.isPostfix = false)
    (hbelow : kind.Below (mark.operator.operandPrecedence .right)) :
    Gives source.toList σ ((Grammar.upTo depth).binary mark.operator n) s
      ((Term.binary mark left e).Reads source draft cs) := by
  have hwithin := (hs.withDraft (.ofKind mark.operator.nodeKind)).withDraft
    ((Draft.ofKind mark.operator.nodeKind).pushField .left n)
  obtain ⟨label, t, hmark, ht⟩ := infixMark_run (σ := σ) mark.operator hwithin mark.becomesLeaf
  obtain ⟨first, word, rest, hopens, -⟩ := starts_written (b := b) (e := e) False nofun hf
  have hright : Gives source.toList σ
      ((Grammar.upTo depth).parse (.expression mark.operator.rightPrecedence)) t
      (e.Reads source t.draft cs) := by
    rw [mark.rightPrecedence_eq]
    exact h hσ (ht.draft_eq ▸ ht.past hopens.spells) hf hp hbelow
  refine .node (.step rfl (.step hmark (.field hright ?_)))
  rintro m u ⟨hm, hu⟩
  refine ⟨?_, hs.draft ▸ (hu.withDraft _).withDraft _⟩
  rw [hu.draft_eq, ht.draft_eq]
  exact ofNode?_binary hn hm

/-- A turn at an operator between two expressions that binds tightly enough. -/
theorem BinaryMark.turn {mark : BinaryMark} {min : Precedence} {offset gap : Nat}
    {P : Node → Session → Prop} (hs : s.Faces source draft offset cs)
    (hc : Comes cs gap mark.kind word rest)
    (hmin : min.rank ≤ mark.operator.precedence.rank)
    (h : Gives text σ ((Grammar.upTo depth).binary mark.operator n)
      { s with scanner := s.scanner.joinGreater } P) :
    Gives text σ ((Grammar.upTo depth).infixTurn min n) s fun step t =>
      ∃ m, step = .again m ∧ P m t := by
  have hkind : operatorKind σ s = some (mark.kind, { s with scanner := s.scanner.joinGreater }) :=
    bind_eq_some.2 ⟨(), _, rfl, congrArg some (Prod.ext (hs.upon_joined hc).kind_eq rfl)⟩
  have hagain : Gives text σ
      ((Grammar.upTo depth).binary mark.operator n >>= fun m =>
        pure (Step.again m : Step Node Node))
      { s with scanner := s.scanner.joinGreater } fun step t => ∃ m, step = .again m ∧ P m t :=
    h.andThen fun m t => ⟨_, t, rfl, rfl, rfl, rfl, fun hm => ⟨m, rfl, hm⟩⟩
  refine .step hkind ?_
  rw [mark.ofKind]
  show Gives text σ
    (if mark.operator.precedence.rank < min.rank then _ else _ : Parse _) _ _
  rw [if_neg (Nat.not_lt.2 hmin)]
  split
  · next hc => exact absurd hc mark.joins.1
  · next hc => exact absurd hc mark.joins.2
  · exact hagain

/-- A term with an operator between two others, each of them in its place. -/
theorem Term.ReadsInfix.binary {mark : BinaryMark} {left right : Term} {b' : Bool}
    {min : Precedence} (hleft : left.ReadsInfix source b min)
    (hright : right.ReadsWhole source b' (mark.operator.operandPrecedence .right))
    (htext : (Term.binary mark left right).text =
      bracket b left.text ++ ' ' :: (mark.text ++ ' ' :: bracket b' right.text))
    (hedge : b = false → mark.kind.Below left.rightEdge)
    (hmin : min.rank ≤ mark.operator.precedence.rank) :
    (Term.binary mark left right).ReadsInfix source false min := by
  intro depth k σ draft cs kind s Q hσ hs hf hp hbelow hQ
  have hs : s.Before source draft (bracket b left.text ++
      ' ' :: (mark.text ++ ' ' :: (bracket b' right.text ++ cs))) := by
    simpa [bracket_false_append, htext] using hs
  refine hleft hσ hs (mark.follower _) mark.isPostfix hedge fun k n t hn ht => ?_
  refine .iterate (advances_infixTurn _) ?_
  have hturn : Gives source.toList σ ((Grammar.upTo depth).infixTurn min n) t fun step u =>
      ∃ m, step = .again m ∧ (Term.binary mark left right).Reads source draft cs m u := by
    obtain ⟨offset, ht⟩ := ht
    have hupon := ht.upon_joined (mark.comes (bracket b' right.text ++ cs))
    have hbinary : Gives source.toList σ ((Grammar.upTo depth).binary mark.operator n)
        { t with scanner := t.scanner.joinGreater }
        ((Term.binary mark left right).Reads source draft cs) :=
      hright.binary hσ hn hupon hf hp (hbelow rfl)
    exact mark.turn ht (mark.comes _) hmin hbinary
  refine .mono hturn ?_
  rintro _ u ⟨m, rfl, hm, hu⟩ k
  exact hQ k m u hm hu

end ConcreteSyntax
