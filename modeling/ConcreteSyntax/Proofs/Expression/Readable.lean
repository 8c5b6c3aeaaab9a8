import ConcreteSyntax.Proofs.Expression.Operators

/-! # Every written term is read back

A term is read in every place as it is written there, with parentheses where it binds too loosely
(`Term.Readable`). By induction on the term: what is between parentheses is read as a whole, a
postfix form after the term before it, a prefix operator before its operand, and an infix operator
between its operands. -/

namespace ConcreteSyntax

open Parse
open Term (bracket)

namespace Term

variable {source : String} {e : Term} {min p : Precedence}

theorem isLooser_eq_false : e.isLooser p = false ↔ p.rank ≤ e.level.rank := by
  simp [isLooser]

theorem isLooser_closure (e : Term) : e.isLooser .closure = false :=
  isLooser_eq_false.2 (Nat.zero_le _)

theorem rank_le_call (p : Precedence) : p.rank ≤ Precedence.call.rank := by
  cases p <;> decide

theorem isLooser_of_binary (mark : BinaryMark) (left right : Term) :
    (Term.binary mark left right).isLooser .unary = true := by
  have hall : ∀ c ∈ OperatorClass.joining, c.precedence.rank < Precedence.unary.rank := by decide
  exact decide_eq_true (hall _ mark.operator_mem)

/-- A term that is read wherever it is written. -/
structure Readable (source : String) (e : Term) : Prop where
  tight : e.ReadsTight source (e.isLooser .call)
  reference : e.isReference = true → e.ReadsReference source
  operand : e.ReadsPrefixed source (e.isLooser .unary)
  joined : ∀ {min p : Precedence}, min.rank ≤ p.rank → e.ReadsInfix source (e.isLooser p) min
  whole : ∀ min, e.ReadsWhole source (e.isLooser min) min

/-- No operator that binds more loosely than the place asks takes a part of a term from it. -/
theorem rank_le_rightEdge (h : e.isLooser min = false) : min.rank ≤ e.rightEdge.rank := by
  have hall : ∀ c ∈ OperatorClass.joining,
      c.precedence.rank ≤ (c.operandPrecedence .right).rank := by
    decide
  cases e with
  | binary mark left right =>
    exact (isLooser_eq_false.1 h).trans (hall _ mark.operator_mem)
  | _ => exact rank_le_call min

/-- A term is readable if it is wherever it needs no parentheses. -/
theorem Readable.of_bare (hjoined : ∀ min, e.isLooser min = false → e.ReadsInfix source false min)
    (hoperand : e.isLooser .unary = false → e.ReadsPrefixed source false)
    (htight : e.isLooser .call = false → e.ReadsTight source false)
    (hreference : e.isReference = true → e.ReadsReference source) : e.Readable source := by
  have hinside : e.ReadsWhole source false .closure :=
    (hjoined .closure e.isLooser_closure).readsWhole fun _ => Nat.zero_le _
  have hbracketed : e.ReadsTight source true := hinside.bracketed
  have hjoined {min p : Precedence} (hmin : min.rank ≤ p.rank) :
      e.ReadsInfix source (e.isLooser p) min := by
    cases hp : e.isLooser p with
    | true => exact (hbracketed.readsPrefixed nofun).readsInfix
    | false => exact hjoined min (isLooser_eq_false.2 (hmin.trans (isLooser_eq_false.1 hp)))
  refine ⟨?_, hreference, ?_, hjoined, fun min =>
    (hjoined (Nat.le_refl _)).readsWhole rank_le_rightEdge⟩
  · cases h : e.isLooser .call with
    | true => exact hbracketed
    | false => exact htight h
  · cases h : e.isLooser .unary with
    | true => exact hbracketed.readsPrefixed nofun
    | false => exact hoperand h

theorem Readable.of_tight (hl : e.level = .call) (hr : e.isReference = false)
    (h : e.ReadsTight source false) : e.Readable source :=
  .of_bare (fun _ _ => (h.readsPrefixed fun _ => hl).readsInfix)
    (fun _ => h.readsPrefixed fun _ => hl) (fun _ => h) fun h => nomatch hr.symm.trans h

/-- A postfix form after a term, if its turn is read. -/
theorem Readable.of_postfix {value : Term} {tail : List Char} {first : Kind}
    (hvalue : value.Readable source) (hl : e.level = .call) (hr : e.isReference = false)
    (htext : e.text = bracket (value.isLooser .call) value.text ++ tail)
    (hfirst : ∀ {cs : List Char} {kind : Kind}, Follower cs kind → Follower (tail ++ cs) first)
    (hgoes : ∀ {depth : Nat} {σ : Setting} {draft : Draft} {cs : List Char} {kind : Kind}
      {s : Session} {n : Node}, σ.Plain → n.IsTerm source value →
      s.Before source draft (tail ++ cs) → Follower cs kind →
      GoesOn source σ (Grammar.upTo depth) n s e draft cs) : e.Readable source := by
  refine .of_tight hl hr ?_
  intro depth k σ draft cs kind s Q hσ hs hf hQ
  rw [bracket_false_append, htext, List.append_assoc] at hs
  refine hvalue.tight hσ hs (hfirst hf) fun k n t hn ht => ?_
  refine .iterate advances_postfixTurn (.mono (hgoes hσ hn ht hf) ?_)
  rintro _ u ⟨m, rfl, hm, hu⟩ k
  exact hQ k m u hm hu

theorem readable_name (n : Name) : (Term.name n).Readable source := by
  refine .of_tight rfl rfl ?_
  intro depth k σ draft cs kind s Q hσ hs hf hQ
  have hs : s.Before source draft (n.chars ++ cs) := hs
  obtain ⟨offset, hupon⟩ := hs.upon (n.spells hf.endsName hf.quiet) rfl
  obtain ⟨t, hprimary, ht⟩ := Grammar.primary_name (g := .upTo depth) (σ := σ) hupon hf
  refine .step hprimary (hQ k _ t ?_ ht.before)
  show (Name.ofText? (Range.slice ⟨offset, _⟩ source)).map Term.name = _
  rw [hupon.slice, n.ofText?_ofList]
  rfl

theorem Readable.inside (h : e.Readable source) : e.ReadsWhole source false .closure :=
  e.isLooser_closure ▸ h.whole .closure

/-! ### Postfix forms -/

theorem Readable.field (h : e.Readable source) (n : Name) : (Term.field e n).Readable source :=
  h.of_postfix rfl rfl rfl
    (fun _ => (spells_dot n.part_head _).follower (by decide) (by decide))
    fun _ hn hs hf => goesOn_field hn hs hf

theorem Readable.element (h : e.Readable source) (digits : Digits) :
    (Term.element e digits).Readable source :=
  h.of_postfix rfl rfl rfl
    (fun _ => (spells_dot digits.part_head _).follower (by decide) (by decide))
    fun _ hn hs hf => goesOn_element hn hs hf

theorem Readable.await (h : e.Readable source) : (Term.await e).Readable source :=
  h.of_postfix rfl rfl rfl
    (fun _ => (spells_dot awaitWord_part _).follower (by decide) (by decide))
    fun _ hn hs hf => goesOn_await hn hs hf

theorem Readable.question (h : e.Readable source) : (Term.question e).Readable source :=
  h.of_postfix rfl rfl rfl
    (fun _ => (spells_delimiter '?' .question _ (by decide)).follower (by decide) (by decide))
    fun _ hn hs _ => goesOn_question hn hs

theorem Readable.index {inside : Term} (h : e.Readable source) (hi : inside.Readable source) :
    (Term.index e inside).Readable source :=
  h.of_postfix rfl rfl rfl
    (fun _ => (spells_delimiter '[' .openBracket _ (by decide)).follower (by decide) (by decide))
    fun hσ hn hs _ => goesOn_index hi.inside hσ hn (by simpa using hs)

theorem Readable.call {arguments : List Term} (h : e.Readable source)
    (ha : ∀ a ∈ arguments, a.Readable source) : (Term.call e arguments).Readable source :=
  h.of_postfix rfl rfl rfl
    (fun _ => (spells_delimiter '(' .openParen _ (by decide)).follower (by decide) (by decide))
    fun hσ hn hs _ => goesOn_call (fun a hm => (ha a hm).inside) hσ hn (by simpa using hs)

/-! ### Prefix operators -/

theorem Readable.amp (h : e.Readable source) : (Term.unary .amp e).ReadsReference source := by
  intro depth σ draft cs kind s hσ hs hf hp
  have hs : s.Before source draft ('&' :: (bracket (e.isLooser .unary) e.text ++ cs)) := hs
  by_cases hamp : (bracket (e.isLooser .unary) e.text ++ cs).head? = some '&'
  · obtain ⟨hb, href⟩ := isReference_of_head hf hamp
    obtain ⟨rest, hrest⟩ := List.head?_eq_some_iff.1 hamp
    rw [hrest] at hs
    rw [hb] at hrest
    exact (h.reference href).reference hσ hrest hs hf hp
  · have hstart := startsWith_append (startsWith_bracket e.startsWith (e.isLooser .unary)) cs
    exact h.operand.reference hσ hs (spells_unary (by decide) hstart fun _ => hamp) hf hp

theorem Readable.ampMut (h : e.Readable source) : (Term.unary .ampMut e).ReadsReference source :=
  fun _ _ _ _ _ _ hσ hs hf hp => h.operand.referenceMut hσ hs hf hp

/-- Where the mark of a reference stands a reference is read. -/
theorem ReadsReference.readsPrefixed (h : e.ReadsReference source)
    (hfirst : ∀ cs, ∃ first word rest, Spells (e.text ++ cs) first word rest ∧
      (first = .amp ∨ first = .ampAmp)) : e.ReadsPrefixed source false := by
  intro depth σ draft cs kind s hσ hs hf hp
  obtain ⟨first, word, rest, hspells, hkind⟩ := hfirst cs
  have hgreater : first.isGreater = false := by
    rcases hkind with rfl | rfl <;> rfl
  obtain ⟨offset, hupon⟩ := hs.upon hspells hgreater
  refine .step rfl ?_
  rw [hupon.kind_eq]
  rcases hkind with rfl | rfl
  · exact h hσ hs hf hp
  · exact h hσ hs hf hp

/-- The marks of one character that make no reference. -/
def operatorMarks : List (Char × Kind × UnaryMark) :=
  [('-', .minus, .minus), ('!', .bang, .bang), ('*', .star, .star)]

theorem Readable.readsPrefixed_mark (h : e.Readable source) (c : Char) (first : Kind)
    {mark : UnaryMark} (hm : (c, first, mark) ∈ operatorMarks) :
    (Term.unary mark e).ReadsPrefixed source false := by
  have hall : ∀ p ∈ operatorMarks, p.2.2.text = [p.1] ∧ p.2.2.operator = .unary ∧
      UnaryMark.ofKind? p.2.1 = some p.2.2 ∧ p.2.1.becomesLeaf = true ∧ p.1 ≠ '&' ∧
      (p.2.1 = .minus ∨ p.2.1 = .bang ∨ p.2.1 = .star) ∧
      (p.1, p.2.1) ∈ [('-', Kind.minus), ('!', .bang), ('*', .star), ('&', .amp)] := by
    decide
  obtain ⟨htext, hoperator, hmark, hleaf, hne, hfirst, hmem⟩ := hall _ hm
  intro depth σ draft cs kind s hσ hs hf hp
  have hs : s.Before source draft (c :: (bracket (e.isLooser .unary) e.text ++ cs)) := by
    simpa [bracket_false_append, text, htext, hoperator, OperatorClass.precedence,
      OperatorClass.entry] using hs
  have hstart := startsWith_append (startsWith_bracket e.startsWith (e.isLooser .unary)) cs
  have hgreater : first.isGreater = false := by
    rcases hfirst with rfl | rfl | rfl <;> rfl
  obtain ⟨offset, hupon⟩ := hs.upon (spells_unary hmem hstart fun hc => absurd hc hne) hgreater
  have hunary : Gives source.toList σ (Grammar.upTo depth).unary s
      ((Term.unary mark e).Reads source draft cs) :=
    h.operand.unary hσ hmark hupon hleaf hf hp
  refine .step rfl ?_
  rw [hupon.kind_eq]
  rcases hfirst with rfl | rfl | rfl
  · exact hunary
  · exact hunary
  · exact hunary

theorem Readable.readsPrefixed_unary (h : e.Readable source) (mark : UnaryMark) :
    (Term.unary mark e).ReadsPrefixed source false := by
  have hstart (cs : List Char) : StartsWith (bracket (e.isLooser .unary) e.text ++ cs) :=
    startsWith_append (startsWith_bracket e.startsWith _) cs
  cases mark with
  | amp =>
    refine h.amp.readsPrefixed fun cs => ?_
    by_cases hamp : (bracket (e.isLooser .unary) e.text ++ cs).head? = some '&'
    · obtain ⟨rest, hrest⟩ := List.head?_eq_some_iff.1 hamp
      have hspells := spells_ampAmp rest
      rw [← hrest] at hspells
      exact ⟨_, _, _, hspells, .inr rfl⟩
    · exact ⟨_, _, _, spells_unary (by decide) (hstart cs) fun _ => hamp, .inl rfl⟩
  | ampMut => exact h.ampMut.readsPrefixed fun cs => ⟨_, _, _, spells_ampMut _, .inl rfl⟩
  | minus => exact h.readsPrefixed_mark '-' .minus (by decide)
  | bang => exact h.readsPrefixed_mark '!' .bang (by decide)
  | star => exact h.readsPrefixed_mark '*' .star (by decide)

theorem Readable.unary (h : e.Readable source) (mark : UnaryMark) :
    (Term.unary mark e).Readable source := by
  refine .of_bare (fun _ _ => (h.readsPrefixed_unary mark).readsInfix)
    (fun _ => h.readsPrefixed_unary mark) ?_ ?_
  · cases mark <;> exact fun hl => nomatch hl
  · cases mark with
    | amp => exact fun _ => h.amp
    | ampMut => exact fun _ => h.ampMut
    | _ => exact fun hr => nomatch hr

/-! ### Infix operators -/

/-- A left operand is not taken apart by the operator after it. -/
theorem below_rightEdge {mark : BinaryMark}
    (h : e.isLooser (mark.operator.operandPrecedence .left) = false) :
    mark.kind.Below e.rightEdge := by
  have hall : ∀ c ∈ OperatorClass.joining, ∀ c' ∈ OperatorClass.joining,
      (c.operandPrecedence .left).rank ≤ c'.precedence.rank →
        c.precedence.rank < (c'.operandPrecedence .right).rank := by
    decide
  have htight : ∀ c ∈ OperatorClass.joining, c.precedence.rank < Precedence.call.rank := by decide
  have hle := isLooser_eq_false.1 h
  intro c hc
  obtain rfl := Option.some.inj (hc.symm.trans mark.ofKind)
  cases e with
  | binary mark' left right => exact hall _ mark.operator_mem _ mark'.operator_mem hle
  | _ => exact htight _ mark.operator_mem

theorem Readable.binary {right : Term} (h : e.Readable source) (hr : right.Readable source)
    (mark : BinaryMark) : (Term.binary mark e right).Readable source := by
  have hleft : ∀ c ∈ OperatorClass.joining,
      c.precedence.rank ≤ (c.operandPrecedence .left).rank := by
    decide
  refine .of_bare (fun min hmin => ?_) (fun hl => ?_) (fun hl => ?_) nofun
  · have hmin : min.rank ≤ mark.operator.precedence.rank := isLooser_eq_false.1 hmin
    exact (h.joined (hmin.trans (hleft _ mark.operator_mem))).binary (hr.whole _) rfl
      below_rightEdge hmin
  · exact nomatch hl.symm.trans (isLooser_of_binary mark e right)
  · have hloose : ∀ c ∈ OperatorClass.joining, c.precedence.rank < Precedence.call.rank := by
      decide
    exact nomatch hl.symm.trans (decide_eq_true (hloose _ mark.operator_mem))

/-! ### All terms -/

/-- **Every term is read back wherever it is written.** -/
theorem readable (source : String) (e : Term) : e.Readable source := by
  match e with
  | .name n => exact readable_name n
  | .unary mark operand => exact (operand.readable source).unary mark
  | .binary mark left right => exact (left.readable source).binary (right.readable source) mark
  | .field value n => exact (value.readable source).field n
  | .element value digits => exact (value.readable source).element digits
  | .await value => exact (value.readable source).await
  | .question body => exact (body.readable source).question
  | .index indexed inside => exact (indexed.readable source).index (inside.readable source)
  | .call function arguments =>
    exact (function.readable source).call fun a ha => a.readable source

end Term

end ConcreteSyntax
