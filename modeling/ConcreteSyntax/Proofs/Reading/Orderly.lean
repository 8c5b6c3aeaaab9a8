import ConcreteSyntax.Grammar.Recovery
import ConcreteSyntax.Grammar.Speculation
import ConcreteSyntax.Grammar.Literal
import ConcreteSyntax.Grammar.Expression.Infix
import ConcreteSyntax.Node.Retag
import ConcreteSyntax.Proofs.Node.Quiet
import ConcreteSyntax.Proofs.Reading.Lenience

/-! # Orderly readings

`Orderly` says of a program of the grammar that it handles what it reads as it should: a node or a
draft in its hands goes into the open draft before another token is taken, an error or a missing
token enters the tree only where an error is owed, a child gets a label only in a draft that is no
error, a token is read under another kind only if that is the kind of a name, the turns of a loop move
on, and a nonterminal is called at the token where its caller began only if its rank is lower. What is
known before and after a step is a `Stage`. The rules follow the combinators of the grammar, one for
each; every production is derived from them once, and what follows from the rules holds of every
reading. -/

namespace ConcreteSyntax

open Parse

/-! ### Stages -/

/-- What is known of the kind of a draft: it is that of a *literal* in pieces, it is *proper* if it is
no error, *fair* if it is no error or an error is owed, and where the draft *failed* it may be one. -/
inductive Standing where
  | literal
  | proper
  | fair
  | failed
  deriving DecidableEq

namespace Standing

/-- One standing will do for another. Where an error is owed, what failed is fair. -/
inductive Serves (owed : Prop) : Standing → Standing → Prop
  | same (F : Standing) : Serves owed F F
  | proper : Serves owed .proper .fair
  | owed (h : owed) : Serves owed .failed .fair
  | failed : Serves owed .fair .failed

/-- A draft of this kind stands so while it is empty. -/
def Begins (F : Standing) (kind : Kind) : Prop :=
  match F with
  | .literal => kind.isPieced = true
  | .failed => kind.isFree = true ∨ kind = .error
  | _ => kind.isFree = true

end Standing

/-- What a program holds in its hands: what was built and is not in the open draft yet. What is
*lost* is good only for a reading that fails. -/
inductive Hand where
  | empty
  | node (n : Node)
  | draft (d : Draft) (standing : Standing)
  | lost

/-- Which changes may be made to what is in the hands. An error may be made only where one is owed,
of the kind of a fragment at that, a kind may be changed only of a leaf that is neither and of a draft
that is proper, and a draft may be dropped only if nothing is in it. -/
inductive Hand.Becomes (owed : Bool) : Hand → Hand → Prop
  | same (h : Hand) : Becomes owed h h
  | kind (n : Node) {kind : Kind} (h : kind.isName = true) (hl : n.isLeaf = true)
      (hn : n.kind ≠ .error) (hf : n.kind ≠ .fragmentSpecifier) :
      Becomes owed (.node n) (.node (n.withKind kind))
  | type (n : Node) : Becomes owed (.node n) (.node n.asType)
  | path (n : Node) : Becomes owed (.node n) (.node n.asPath)
  | chain (n : Node) : Becomes owed (.node n) (.node n.asLetChain)
  | ambiguous (n : Node) : Becomes owed (.node n) (.node (n.withFlags { ambiguous := true }))
  | error (n : Node) (h : owed = true) (hn : n.kind = .fragmentSpecifier) :
      Becomes owed (.node n) (.node (n.withFlags { error := true }))
  | retag (d : Draft) {kind : Kind} (h : kind.isFree = true) :
      Becomes owed (.draft d .proper) (.draft (d.setKind kind) .proper)
  | explained (d : Draft) {F F' : Standing} (h : F.Serves (owed = true) F') :
      Becomes owed (.draft d F) (.draft d F')
  | nothing (d : Draft) {F : Standing} (h : d.isEmpty = true) : Becomes owed (.draft d F) .empty
  | lost (h : Hand) : Becomes owed h .lost

/-- What is known at a point of a program. -/
structure Stage where
  /-- What is in the hands. -/
  hand : Hand
  /-- The kind of the current token, if it is known. -/
  at? : Option Kind
  /-- Whether a token was taken. -/
  moved : Bool
  /-- Whether an error is owed. -/
  owed : Bool
  /-- How the open draft stands. -/
  standing : Standing

/-- One stage will do for another. -/
structure Stage.Serves (a b : Stage) : Prop where
  hand : a.hand.Becomes a.owed b.hand
  at? : b.at? = none ∨ a.at? = b.at?
  moved : b.moved = true → a.moved = true
  owed : b.owed = true → a.owed = true
  standing : a.standing.Serves (a.owed = true) b.standing

/-- What a stage says of a session. -/
structure Stage.Fits (st : Stage) (s : Session) : Prop where
  at? : ∀ c, st.at? = some c → s.kind = c
  owed : st.owed = true → s.Owed

/-! ### Parts of the rules -/

/-- The setting of a reading that may watch for circles. -/
def Setting.watching (σ : Setting) (watches : Bool) (opened : List (Nonterminal × Nat)) : Setting :=
  { σ with watches, opened }

/-- A program beside the reading: it looks, reports and remarks, always with an outcome, and does
not ask whether the reading watches. Under more lenient options it does the same, unless it remarks
that they matter, and reports what they leave. A *severe* one leaves an error owed. -/
def Parse.Aside {α : Type} (severe : Bool) (m : Parse α) : Prop :=
  ∀ (σ : Setting) (s : Session), ∃ r s', (∀ watches opened, m (σ.watching watches opened) s = some (r, s')) ∧
    s.Beside severe s' ∧
    ∀ l : Lenience, s'.Untouched l →
      s.Untouched l ∧ m (σ.relaxed l) (s.relaxed l) = some (r, s'.relaxed l)

/-- A token may be read as a name of any kind. -/
def ReadAs (as? : Option Kind) : Prop := ∀ kind, as? = some kind → kind.isName = true

/-- Takes the current token as a word that is no reserved one, if it spells that word. -/
def Parse.takeWord (word : Kind) : Parse Unit := do
  if word.wordText = some (← tokenText) then consumeAs word else consume

/-- What may be dropped from the hands where nesting ends: nothing, or a draft without faulty tokens. -/
def Hand.Spare : Hand → Prop
  | .empty => True
  | .draft d _ => d.Faultless
  | _ => False

/-- How many more nonterminals a nonterminal may call at the token where it begins. -/
def Nonterminal.rank : Nonterminal → Nat
  | .innerReference | .elseIf => 2
  | .pattern | .innerReferenceType | .innerReferencePattern => 1
  | .expression _ | .operand | .blockLike => 1
  | _ => 0

/-- Whether a nonterminal may be called only where it is sure to take a token. -/
def Nonterminal.needsToken : Nonterminal → Bool
  | .repetition _ => true
  | _ => false

/-- What holds after a turn of a loop: another turn follows at a later token, or the loop is over. -/
def afterTurn {σ ρ : Type} (again : σ → Stage) (done : ρ → Stage) : Step σ ρ → Stage
  | .again state => { again state with moved := true }
  | .done result => done result

/-! ### The rules -/

/-- The program takes one stage to another, in a nonterminal of rank `k`. Where it is `free`, a token
was taken since that nonterminal began. -/
inductive Orderly (text : List Char) (g : Grammar) (k : Nat) :
    (free : Bool) → {α : Type} → Stage → Parse α → (α → Stage) → Prop
  | pure {f α st} {r : α} {q : α → Stage} (h : st.Serves (q r)) :
      Orderly text g k f st (pure r) q
  | bind {f α β st m p} {K : α → Parse β} {q : β → Stage} (first : Orderly text g k f st m p)
      (rest : ∀ r, Orderly text g k f (p r) (K r) q) : Orderly text g k f st (m >>= K) q
  /-- What follows a program may rely on what the program gives. -/
  | sure {f α β st m p} {K : α → Parse β} {q : β → Stage} (P : α → Prop)
      (hP : ∀ {σ s r s'}, s.Sound text → st.Fits s → m σ s = some (r, s') → P r)
      (first : Orderly text g k f st m p) (rest : ∀ r, P r → Orderly text g k f (p r) (K r) q) :
      Orderly text g k f st (m >>= K) q
  /-- Stages may be known better before, and told less of after. -/
  | serve {f α st st'} {m : Parse α} {p q : α → Stage} (before : st'.Serves st)
      (h : Orderly text g k f st m p) (after : ∀ r, (p r).Serves (q r)) : Orderly text g k f st' m q
  /-- Once a token was taken, all nonterminals may be called. -/
  | past {f f' α h a o F} {m : Parse α} {q : α → Stage}
      (rest : Orderly text g k f' ⟨h, a, false, o, F⟩ m fun r => { q r with moved := false }) :
      Orderly text g k f ⟨h, a, true, o, F⟩ m q
  /-- A token was taken if the offset rose, for whatever reason. -/
  | moves {f α st} {m : Parse α} {q : α → Stage} (moved : α → Bool)
      (h : Orderly text g k f st m q)
      (hm : ∀ {σ s r s'}, g.Leads text → s.Sound text → st.Fits s → m σ s = some (r, s') →
        moved r = true → s.offset < s'.offset) :
      Orderly text g k f st m fun r => { q r with moved := (q r).moved || moved r }
  /-- Looking at the session tells the kind of the current token. What was reported does not matter. -/
  | look {f α h a m o F} {K : Session → Parse α} {q : α → Stage}
      (blind : ∀ s report, K { s with report } = K s)
      (rest : ∀ s : Session, (∀ c, a = some c → s.kind = c) →
        Orderly text g k f ⟨h, some s.kind, m, o, F⟩ (K s) q) :
      Orderly text g k f ⟨h, a, m, o, F⟩ (get >>= K) q
  | aside {f α severe h a m o F} {p : Parse α} (hp : p.Aside severe) :
      Orderly text g k f ⟨h, a, m, o, F⟩ p fun _ => ⟨h, a, m, o || severe, F⟩
  | flush {f a m o F} :
      Orderly text g k f ⟨.empty, a, m, o, F⟩ flush fun _ => ⟨.empty, a, m, o, F⟩
  /-- A label is given only in a proper draft. -/
  | consumeWith {f label as? next a m o F} (hl : label = none ∨ F = .proper) (has : ReadAs as?)
      (hn : next.ReadsLiterals) :
      Orderly text g k f ⟨.empty, a, m, o, F⟩ (consumeWith label as? next)
        fun _ => ⟨.empty, none, m, o, F⟩
  | consumeWithAt {f label as? next c m o F} (hc : c ≠ .endOfFile)
      (hl : label = none ∨ F = .proper) (has : ReadAs as?) (hn : next.ReadsLiterals) :
      Orderly text g k f ⟨.empty, some c, m, o, F⟩ (consumeWith label as? next)
        fun _ => ⟨.empty, none, true, o, F⟩
  | takeWord {f word a m o F} :
      Orderly text g k f ⟨.empty, a, m, o, F⟩ (takeWord word) fun _ => ⟨.empty, none, m, o, F⟩
  | takeWordAt {f word c m o F} (hc : c ≠ .endOfFile) :
      Orderly text g k f ⟨.empty, some c, m, o, F⟩ (takeWord word)
        fun _ => ⟨.empty, none, true, o, F⟩
  | leaf {f as? c m o F} (hc : c ≠ .endOfFile) (has : ReadAs as?) :
      Orderly text g k f ⟨.empty, some c, m, o, F⟩ (leaf as?) fun n => ⟨.node n, none, true, o, F⟩
  /-- The pieces of a number go into the draft of a literal. -/
  | consumeNumber {f next c m o} (hc : c ≠ .endOfFile) (hn : next.ReadsLiterals) :
      Orderly text g k f ⟨.empty, some c, m, o, .literal⟩ (consumeNumber next)
        fun _ => ⟨.empty, none, true, o, .literal⟩
  | quotedLiteral {f c m o F} (hc : c = .stringToken ∨ c = .rawStringToken ∨ c = .charToken) :
      Orderly text g k f ⟨.empty, some c, m, o, F⟩ quotedLiteral
        fun n => ⟨.node n, none, true, o, F⟩
  | split {f c first h m o F} (hc : Scanner.SplitsInto c first) :
      Orderly text g k f ⟨h, some c, m, o, F⟩ (split first) fun _ => ⟨h, some first, m, o, F⟩
  | operatorKind {f h a m o F} :
      Orderly text g k f ⟨h, a, m, o, F⟩ operatorKind fun c => ⟨h, some c, m, o, F⟩
  | pushChild {f label n a m o F} (hl : label = none ∨ F = .proper) :
      Orderly text g k f ⟨.node n, a, m, o, F⟩ (modifyDraft (·.pushChild label n))
        fun _ => ⟨.empty, a, m, o, F⟩
  | pushAll {f d a m o} :
      Orderly text g k f ⟨.draft d .failed, a, m, o, .proper⟩ (pushAll d.children.toList)
        fun _ => ⟨.empty, a, m, o, .proper⟩
  | setKind {f kind h a m o F} (hF : F ≠ .literal) (hk : kind.isFree = true) :
      Orderly text g k f ⟨h, a, m, o, F⟩ (setKind kind) fun _ => ⟨h, a, m, o, .proper⟩
  | failDraft {f h a m o F} (hF : F ≠ .literal) :
      Orderly text g k f ⟨h, a, m, o, F⟩ failDraft fun _ => ⟨h, a, m, o, .failed⟩
  /-- A fresh draft is filled with what is in the hands, too. -/
  | collect {f kind body h a m o F F₀ a' m' o' F'}
      (hk : F₀.Begins kind)
      (filled : Orderly text g k f ⟨h, a, m, o, F₀⟩ body fun _ => ⟨.empty, a', m', o', F'⟩) :
      Orderly text g k f ⟨h, a, m, o, F⟩ (collect (.ofKind kind) body)
        fun d => ⟨.draft d F', a', m', o', F⟩
  /-- A draft in the hands is filled further. -/
  | refill {f d body a m o F F₀ a' m' o' F'}
      (filled : Orderly text g k f ⟨.empty, a, m, o, F₀⟩ body fun _ => ⟨.empty, a', m', o', F'⟩) :
      Orderly text g k f ⟨.draft d F₀, a, m, o, F⟩ (collect d body)
        fun d => ⟨.draft d F', a', m', o', F⟩
  | finish {f d F₀ a m o F} (hF : F₀ ≠ .failed) :
      Orderly text g k f ⟨.draft d F₀, a, m, o, F⟩ (finish d) fun n => ⟨.node n, a, m, o, F⟩
  | missing {f kind a m F} (hk : kind.isStandIn = true) :
      Orderly text g k f ⟨.empty, a, m, true, F⟩ (missing kind) fun n => ⟨.node n, a, m, true, F⟩
  | restricted {f α st restriction} {body : Parse α} {q : α → Stage}
      (inside : Orderly text g k f st body q) : Orderly text g k f st (restricted restriction body) q
  /-- At the limit of nesting, which is reported, what is in the hands is dropped. -/
  | guarded {f st body} {q : Node → Stage} (hh : st.hand.Spare)
      (inside : Orderly text g k f st body q)
      (limit : Orderly text g k f { st with hand := .empty, owed := true } skipGroup q) :
      Orderly text g k f st (guarded body) q
  | speculate {f α st ambiguity} {preferred : Parse (Option α)} {p : Option α → Stage}
      (tried : Orderly text g k f st preferred p) :
      Orderly text g k f st (speculate ambiguity preferred) fun
        | some r => p (some r)
        | none => st
  /-- The first turn may know more of its token than the later ones. -/
  | loop {f α ρ} {turn : α → Parse (Step α ρ)} {state : α} {st : Stage} (again : α → Stage)
      {done : ρ → Stage} (hst : st.moved = false) (hagain : ∀ x, (again x).moved = false)
      (first : Orderly text g k f st (turn state) (afterTurn again done))
      (later : ∀ x, Orderly text g k f (again x) (turn x)
        (afterTurn again fun r => { done r with moved := false })) :
      Orderly text g k f st (loop turn state) done
  | call {f nonterminal a m o F} (hr : f = true ∨ m = true ∨ nonterminal.rank < k)
      (hn : nonterminal.needsToken = false) :
      Orderly text g k f ⟨.empty, a, m, o, F⟩ (g.parse nonterminal)
        fun n => ⟨.node n, none, m, o, F⟩
  | callAt {f nonterminal c m o F} (hr : f = true ∨ m = true ∨ nonterminal.rank < k)
      (hc : nonterminal.takes c = true) :
      Orderly text g k f ⟨.empty, some c, m, o, F⟩ (g.parse nonterminal)
        fun n => ⟨.node n, none, true, o, F⟩

end ConcreteSyntax
