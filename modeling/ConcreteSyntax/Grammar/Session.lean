import ConcreteSyntax.Token.Scanner
import ConcreteSyntax.Node.Draft
import ConcreteSyntax.Options.Basic
import ConcreteSyntax.Grammar.Nonterminal
import ConcreteSyntax.Grammar.Ambiguity

/-! # Sessions

A session is one reading of a text: the scanner, the diagnostics so far, and the draft that is open.
`Parse` is the type of everything that reads: it may look at the setting, changes the session, and
has no result if it runs out of turns, which `Parse.loop` and the recursion between nonterminals
count. A `Grammar` reads every nonterminal; a production takes one for the parts inside it. -/

namespace ConcreteSyntax

/-! ### Settings -/

/-- What the place of an expression changes: a `{` after a path opens no literal in the head of an
`if`, and `let` is an operand in a condition. -/
structure Restriction where
  noStructLiteral : Bool := false
  allowLet : Bool := false
  deriving DecidableEq, Inhabited

/-- What a production may look at but not change. -/
structure Setting where
  file : String
  source : String
  options : Options
  depth : Nat := 0
  restriction : Restriction := {}
  /-- Whether a reading that failed once at a place is not tried there again. -/
  remembers : Bool := true
  /-- Whether the reading gives up where it goes round in a circle: a turn of a loop that is not the
  last and stays at its token, or a nonterminal inside itself at one token. -/
  watches : Bool := false
  /-- The nonterminals that are open and where each began; only a reading that watches keeps them. -/
  opened : List (Nonterminal × Nat) := []

/-- The number of turns that a loop may take. Each turn but the last few consumes a token. -/
def Setting.turns (s : Setting) : Nat := 4 * s.source.utf8ByteSize + 16

/-! ### The state -/

/-- The state of a reading. -/
structure Session where
  /-- The scanner, at the current token. -/
  scanner : Scanner
  report : Report := .empty
  /-- How many `{` recovery has skipped whose `}` is still to come. -/
  openBraces : Nat := 0
  /-- Where the last token or comment ended that entered the tree; a missing token stands here. -/
  consumedEnd : Nat := 0
  /-- The places where a preferred reading failed. -/
  declined : List (Nat × Ambiguity) := []
  remarks : Array Remark := #[]
  /-- The node under construction. -/
  draft : Draft

namespace Session

/-- A session at the first token of a text. -/
def start (text : String) : Session :=
  { scanner := (Scanner.ofText text).scan Lexeme.contextual? .usual
    draft := .ofKind .sourceFile }

/-- The kind of the current token. -/
def kind (s : Session) : Kind := s.scanner.kind

/-- Where the current token begins. -/
def offset (s : Session) : Nat := s.scanner.token.range.start

/-- Whether the current token is of this kind. -/
def isAt (s : Session) (kind : Kind) : Bool := s.kind == kind

/-- Whether the current token is of one of these kinds. -/
def isAtAny (s : Session) (kinds : List Kind) : Bool := kinds.contains s.kind

/-- The scanner some tokens further on. -/
def scannerAhead (s : Session) (n : Nat) : Scanner := s.scanner.ahead Lexeme.contextual? .usual n

/-- The kind of the token some places further on. -/
def ahead (s : Session) (n : Nat) : Kind := (s.scannerAhead n).kind

end Session

/-! ### Reading -/

/-- Something that reads a part of the text. -/
abbrev Parse := ReaderT Setting (StateT Session Option)

/-- A reading of every nonterminal. -/
structure Grammar where
  parse : Nonterminal → Parse Node

namespace Parse

variable {σ ρ : Type}

/-- What no turn is left for. -/
def outOfTurns : Parse ρ := fun _ _ => none

/-- What a turn of a loop ends with. -/
inductive Step (σ ρ : Type) where
  | again (state : σ)
  | done (result : ρ)

/-- Takes at most so many turns until one is the last. -/
def iterate (turn : σ → Parse (Step σ ρ)) : Nat → σ → Parse ρ
  | 0, _ => outOfTurns
  | turns + 1, state => do
    let before ← get
    match ← turn state with
    | .again state =>
      if (← read).watches && (← get).offset ≤ before.offset then outOfTurns
      else iterate turn turns state
    | .done result => return result

/-- Takes turns until one is the last. -/
def loop (turn : σ → Parse (Step σ ρ)) (state : σ) : Parse ρ := do
  iterate turn (← read).turns state

/-- Takes turns as long as they answer `true`. -/
def repeatWhile (turn : Parse Bool) : Parse Unit :=
  loop (fun () => return if ← turn then .again () else .done ()) ()

/-- Opens a nonterminal. A reading that watches gives up if it is open already at this token. -/
def opening (nonterminal : Nonterminal) (body : Parse ρ) : Parse ρ := do
  let setting ← read
  if setting.watches then
    let place := (nonterminal, (← get).offset)
    if setting.opened.contains place then outOfTurns
    else withReader (fun setting => { setting with opened := place :: setting.opened }) body
  else body

/-! ### The current token -/

/-- The kind of the current token. -/
def kind : Parse Kind := return (← get).kind

/-- Whether the current token is of this kind. -/
def isAt (kind : Kind) : Parse Bool := return (← get).isAt kind

/-- Whether the current token is of one of these kinds. -/
def isAtAny (kinds : List Kind) : Parse Bool := return (← get).isAtAny kinds

/-- Reads a part if a condition holds. -/
def provided (condition : Bool) (body : Parse Unit) : Parse Unit :=
  if condition then body else pure ()

/-- Reads a part if the current token is of this kind. -/
def ifAt (kind : Kind) (body : Parse Unit) : Parse Unit := do provided (← isAt kind) body

/-- The kind of the token some places further on. -/
def ahead (n : Nat) : Parse Kind := return (← get).ahead n

/-- Where the current token begins. -/
def offset : Parse Nat := return (← get).offset

/-- The range of the current token. -/
def tokenRange : Parse Range := return (← get).scanner.token.range

/-- The text of the token some places further on. -/
def textAhead (n : Nat) : Parse String :=
  return ((← get).scannerAhead n).tokenText (← read).source

/-- The text of the current token. -/
def tokenText : Parse String := textAhead 0

/-- Whether the current token is an identifier with this text: a contextual word. -/
def isAtWord (word : String) : Parse Bool := do
  if ← isAt .identifier then return (← tokenText) == word else return false

/-! ### Settings of a part -/

/-- The options of the reading. -/
def options : Parse Options := return (← read).options

/-- The restrictions of the place. -/
def restriction : Parse Restriction := return (← read).restriction

/-- Reads a part of an expression under other restrictions. -/
def restricted {α : Type} (restriction : Restriction) (body : Parse α) : Parse α :=
  withReader (fun setting => { setting with restriction }) body

/-- Reads a part without restrictions, as between delimiters. -/
def unrestricted {α : Type} (body : Parse α) : Parse α := restricted {} body

/-- Notes a choice. -/
def note (remark : Remark) : Parse Unit :=
  modify fun s => { s with remarks := s.remarks.push remark }

/-- Notes how an ambiguity was settled without trying. -/
def settle (ambiguity : Ambiguity) (chosen : Kind) : Parse Unit := do
  note (.settled ambiguity (← offset) chosen)

end Parse

end ConcreteSyntax
