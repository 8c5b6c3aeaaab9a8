import ConcreteSyntax.Proofs.Expression.Operand

/-! # How a written term is read

A term is read in four ways, from the inside out: as a primary expression with its postfix forms
(`Term.ReadsTight`), from its first token on with the operators before it (`Term.ReadsPrefixed`),
with the infix operators inside it (`Term.ReadsInfix`), and as a whole expression
(`Term.ReadsWhole`). A loop goes on after the first part of a term that it has read, so what is said
of the parts of loops is said of everything that may come after. Each way of reading follows from the
one before it, and parentheses lead from the last one back to the first. -/

namespace ConcreteSyntax

open Parse
open Text (byteLength)
open Term (bracket)

/-- Every infix operator of a token binds more loosely than this. -/
def Kind.Below (kind : Kind) (p : Precedence) : Prop :=
  ∀ c, OperatorClass.ofInfix? kind = some c → c.precedence.rank < p.rank

theorem Kind.Below.mono {kind : Kind} {p q : Precedence} (h : kind.Below p)
    (hpq : p.rank ≤ q.rank) : kind.Below q :=
  fun c hc => Nat.lt_of_lt_of_le (h c hc) hpq

namespace Term

/-- How tightly an operator has to bind to take the right operand of a term from it. -/
def rightEdge : Term → Precedence
  | .binary mark _ _ => mark.operator.operandPrecedence .right
  | _ => .call

/-! ### The ways of reading -/

section Ways

variable (source : String) (e : Term) (bracketed : Bool)

/-- As a primary expression and postfix forms, after which others may follow. -/
def ReadsTight : Prop :=
  ∀ ⦃depth k : Nat⦄ ⦃σ : Setting⦄ ⦃draft : Draft⦄ ⦃cs : List Char⦄ ⦃kind : Kind⦄ ⦃s : Session⦄
    ⦃Q : Node → Session → Prop⦄, σ.Plain →
    s.Before source draft (bracket bracketed e.text ++ cs) → Follower cs kind →
    (∀ k n t, n.IsTerm source e → t.Before source draft cs →
      Gives source.toList σ (iterate (Grammar.upTo depth).postfixTurn k n) t Q) →
    Gives source.toList σ
      ((Grammar.upTo depth).primary >>= iterate (Grammar.upTo depth).postfixTurn k) s Q

/-- What a term is read to. -/
def Reads (draft : Draft) (cs : List Char) (n : Node) (s : Session) : Prop :=
  n.IsTerm source e ∧ s.Before source draft cs

/-- With the operators before it. -/
def ReadsPrefixed : Prop :=
  ∀ ⦃depth : Nat⦄ ⦃σ : Setting⦄ ⦃draft : Draft⦄ ⦃cs : List Char⦄ ⦃kind : Kind⦄ ⦃s : Session⦄,
    σ.Plain → s.Before source draft (bracket bracketed e.text ++ cs) → Follower cs kind →
    kind.isPostfix = false →
    Gives source.toList σ (Grammar.upTo depth).prefixed s (e.Reads source draft cs)

/-- With the infix operators in it, after which others may follow. -/
def ReadsInfix (min : Precedence) : Prop :=
  ∀ ⦃depth k : Nat⦄ ⦃σ : Setting⦄ ⦃draft : Draft⦄ ⦃cs : List Char⦄ ⦃kind : Kind⦄ ⦃s : Session⦄
    ⦃Q : Node → Session → Prop⦄, σ.Plain →
    s.Before source draft (bracket bracketed e.text ++ cs) → Follower cs kind →
    kind.isPostfix = false → (bracketed = false → kind.Below e.rightEdge) →
    (∀ k n t, n.IsTerm source e → t.Before source draft cs →
      Gives source.toList σ (iterate ((Grammar.upTo depth).infixTurn min) k n) t Q) →
    Gives source.toList σ
      ((Grammar.upTo depth).prefixed >>= iterate ((Grammar.upTo depth).infixTurn min) k) s Q

/-- As an expression that the operator after it has no part in. -/
def ReadsWhole (min : Precedence) : Prop :=
  ∀ ⦃depth : Nat⦄ ⦃σ : Setting⦄ ⦃draft : Draft⦄ ⦃cs : List Char⦄ ⦃kind : Kind⦄ ⦃s : Session⦄,
    σ.Plain → s.Before source draft (bracket bracketed e.text ++ cs) → Follower cs kind →
    kind.isPostfix = false → kind.Below min →
    Gives source.toList σ ((Grammar.upTo depth).parse (.expression min)) s
      (e.Reads source draft cs)

end Ways

end Term

/-! ### Going on -/

section Loops

variable {source : String} {draft : Draft} {cs : List Char} {kind : Kind} {s : Session}
  {σ : Setting} {g : Grammar} {n : Node} {text : List Char} {depth : Nat}

theorem advances_postfixTurn (n : Node) :
    ((Grammar.upTo depth).postfixTurn n).Advances text :=
  .of_rule depth .postfixTurn

theorem advances_infixTurn (min : Precedence) (n : Node) :
    ((Grammar.upTo depth).infixTurn min n).Advances text :=
  .of_rule depth .infixTurn

theorem advances_postfixForms (k : Nat) (n : Node) :
    (iterate (Grammar.upTo depth).postfixTurn k n).Advances text :=
  .iterate advances_postfixTurn k n

theorem advances_infixForms (min : Precedence) (k : Nat) (n : Node) :
    (iterate ((Grammar.upTo depth).infixTurn min) k n).Advances text :=
  .iterate (advances_infixTurn _) k n

/-- No postfix form begins here. -/
theorem Grammar.postfixTurn_other (h : s.kind.isPostfix = false) :
    g.postfixTurn n σ s = some (.done n, s) := by
  refine bind_eq_some.2 ⟨s, s, rfl, ?_⟩
  generalize s.kind = k at h
  cases k
  case openParen | openBracket | question | dot | colonColon => exact nomatch h
  all_goals rfl

/-- No postfix form follows. -/
theorem Grammar.postfixTurn_done (h : s.Before source draft cs) (hf : Follower cs kind)
    (hp : kind.isPostfix = false) : g.postfixTurn n σ s = some (.done n, s) := by
  obtain ⟨offset, h⟩ := h
  refine postfixTurn_other ?_
  rcases h.kind_eq hf with hk | ⟨hk, -⟩
  · rw [hk, hp]
  · rw [hk]
    rfl

/-- The token where an operator is wanted is none that binds tightly enough. -/
theorem Grammar.infixTurn_below {min : Precedence} (h : s.scanner.joinGreater.kind.Below min) :
    g.infixTurn min n σ s =
      some (.done n, { s with scanner := s.scanner.joinGreater }) := by
  refine bind_eq_some.2
    ⟨s.scanner.joinGreater.kind, { s with scanner := s.scanner.joinGreater }, rfl, ?_⟩
  cases hop : OperatorClass.ofInfix? s.scanner.joinGreater.kind with
  | none => rfl
  | some c =>
    show (if c.precedence.rank < min.rank then _ else _ : Parse _) σ _ = _
    rw [if_pos (h c hop)]
    rfl

/-- No infix operator follows that binds tightly enough. -/
theorem Grammar.infixTurn_done {min : Precedence} (h : s.Before source draft cs)
    (hf : Follower cs kind) (hb : kind.Below min) :
    ∃ s', g.infixTurn min n σ s = some (.done n, s') ∧ s'.Before source draft cs := by
  obtain ⟨offset, h⟩ := h
  obtain ⟨gap, word, rest, hc⟩ := hf.comes
  have hkind : s.scanner.joinGreater.kind = kind := (h.upon_joined hc).kind_eq
  exact ⟨_, infixTurn_below (hkind ▸ hb), h.joined.before⟩

/-- Outside a watch a nonterminal is read by its production. -/
theorem Parse.Gives.parse {nonterminal : Nonterminal} {Q : Node → Session → Prop}
    (hw : σ.watches = false)
    (h : ∀ depth, Gives text σ ((Grammar.upTo depth).production nonterminal) s Q) :
    Gives text σ ((Grammar.upTo depth).parse nonterminal) s Q := by
  cases depth with
  | zero => exact fun _ _ hrun => nomatch hrun
  | succ depth =>
    refine .step rfl ?_
    rw [hw]
    exact h depth

end Loops

/-! ### From one way to the next -/

namespace Term

variable {source : String} {e : Term} {b : Bool} {min : Precedence}

/-- The first token of a written term. -/
theorem starts_written (tight : Prop) (ht : tight → b = false → e.level = .call) {cs : List Char}
    {kind : Kind} (hf : Follower cs kind) : Starts (bracket b e.text ++ cs) tight := by
  cases b with
  | true =>
    rw [bracket_true_append]
    exact starts_openParen _ tight
  | false =>
    obtain ⟨kind, word, rest, hs, hcall⟩ := e.starts hf
    exact ⟨kind, word, rest, hs, fun h => hcall (ht h rfl)⟩

theorem ReadsTight.readsPrefixed (h : e.ReadsTight source b) (hb : b = false → e.level = .call) :
    e.ReadsPrefixed source b := by
  intro depth σ draft cs kind s hσ hs hf hp
  obtain ⟨first, word, rest, hopens, htight⟩ := starts_written True (fun _ => hb) hf
  have hpostfixed : Gives source.toList σ (Grammar.upTo depth).postfixed s
      (e.Reads source draft cs) := by
    refine Gives.thenLoop fun k => h hσ hs hf fun k n t hn ht => ?_
    refine .iterate advances_postfixTurn ?_
    exact .of_run (Grammar.postfixTurn_done ht hf hp) ⟨hn, ht⟩
  obtain ⟨offset, hupon⟩ := hs.upon_opens hopens
  refine .step rfl ?_
  rw [hupon.kind_eq]
  rcases (htight trivial).1 with rfl | rfl
  · exact hpostfixed
  · exact hpostfixed

theorem ReadsPrefixed.readsInfix (h : e.ReadsPrefixed source b) : e.ReadsInfix source b min := by
  intro depth k σ draft cs kind s Q hσ hs hf hp _ hQ
  exact .bind (h hσ hs hf hp) (advances_infixForms min k) fun n t hn => hQ k n t hn.1 hn.2

theorem ReadsInfix.readsWhole (h : e.ReadsInfix source b min)
    (hedge : b = false → min.rank ≤ e.rightEdge.rank) : e.ReadsWhole source b min := by
  intro depth σ draft cs kind s hσ hs hf hp hbelow
  obtain ⟨first, word, rest, hopens, -⟩ := starts_written (b := b) (e := e) False nofun hf
  obtain ⟨offset, hupon⟩ := hs.upon_opens hopens
  refine .parse hσ.watches fun depth => .step hupon.flush (.guarded hs.sound ?_)
  refine Gives.thenLoop fun k =>
    h hσ.deeper hs hf hp (fun hb => hbelow.mono (hedge hb)) fun k n t hn ht => ?_
  refine .iterate (advances_infixTurn _) ?_
  obtain ⟨t', hturn, ht'⟩ := Grammar.infixTurn_done ht hf hbelow
  exact .of_run hturn ⟨hn, ht'⟩

end Term

end ConcreteSyntax
