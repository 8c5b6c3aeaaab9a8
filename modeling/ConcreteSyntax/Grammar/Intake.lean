import ConcreteSyntax.Grammar.Session
import ConcreteSyntax.Node.OfToken

/-! # Taking tokens in

Every token enters the tree through `Parse.take`, together with the comments before it, which go to
the open draft. `Parse.node` opens a draft, fills it and finishes it; a construct that has to come
next and does not is reported, and a missing leaf stands in for it (`Parse.expect`). -/

namespace ConcreteSyntax.Parse

/-! ### Reports -/

/-- Adds a diagnostic. -/
def add (diagnostic : Diagnostic) : Parse Unit :=
  modify fun s => { s with report := s.report.add diagnostic }

/-- Reports a message at a range. -/
def reportAt (range : Range) (message : Message) (arguments : List String) : Parse Unit := do
  add (.located (← read).file range message arguments)

/-- Reports a message at the current token. -/
def reportHere (message : Message) (arguments : List String) : Parse Unit := do
  reportAt (← tokenRange) message arguments

/-- Whether the scanner has found a fault in the current token, which is then explained already. -/
def isFaulty : Parse Bool := return !(← get).scanner.token.faults.isEmpty

/-- What a report calls the current token: its text. -/
def foundText : Parse String := do
  if ← isAt .endOfFile then return "end of file" else tokenText

/-- Reports that something else was expected where the current token is. -/
def reportExpected (what : String) : Parse Unit := do
  if ← isFaulty then return
  reportHere .expectedFound [what, ← foundText]

/-- Reports that the current token fits nowhere. -/
def reportUnexpected : Parse Unit := do
  if ← isFaulty then return
  reportHere .unexpected [← tokenText]

/-! ### The open draft -/

/-- Changes the open draft. -/
def modifyDraft (change : Draft → Draft) : Parse Unit :=
  modify fun s => { s with draft := change s.draft }

/-- Adds a child without a label. -/
def push (node : Node) : Parse Unit := modifyDraft (·.push node)

/-- Adds a child with a label. -/
def pushField (label : Field) (node : Node) : Parse Unit := modifyDraft (·.pushField label node)

/-- Adds several children. -/
def pushAll (children : List Child) : Parse Unit := modifyDraft (·.extend children)

/-- Changes the kind of the open draft. -/
def setKind (kind : Kind) : Parse Unit := modifyDraft (·.setKind kind)

/-- Marks the open draft as an error if a node is marked so. -/
def inheritError (node : Node) : Parse Unit :=
  modifyDraft (·.addFlags { error := node.flags.error })

/-- Turns the open draft into an error, which has no labels. -/
def failDraft : Parse Unit := modifyDraft fun d => (d.setKind .error).clearFields

/-- Fills a draft and leaves the open one as it was. -/
def collect (draft : Draft) (body : Parse Unit) : Parse Draft := do
  let outer := (← get).draft
  modify fun s => { s with draft }
  body
  let filled := (← get).draft
  modify fun s => { s with draft := outer }
  return filled

/-- The node that a draft becomes here. -/
def finish (draft : Draft) : Parse Node := return draft.finish (← get).consumedEnd

/-- Fills a draft and finishes it. -/
def resume (draft : Draft) (body : Parse Unit) : Parse Node := do finish (← collect draft body)

/-- Reads a node of this kind. -/
def node (kind : Kind) (body : Parse Unit) : Parse Node := resume (.ofKind kind) body

/-! ### Tokens -/

/-- Moves the comments before the current token to the open draft, or drops them if the options say
so. -/
def flush : Parse Unit := do
  let comments := (← get).scanner.leading
  match comments.getLast? with
  | none => return
  | some last =>
    modify fun s =>
      { s with scanner := { s.scanner with leading := [] }, consumedEnd := last.range.stop }
    if (← options).keepComments then
      comments.forM fun comment => push (.ofComment comment)

/-- Moves on from the current token. -/
def advance (next : Admitted) : Parse Unit :=
  modify fun s =>
    { s with
      scanner := s.scanner.scan Lexeme.contextual? next
      consumedEnd := s.scanner.token.range.stop }

/-- Takes the current token as a node, under another kind if one is given, and scans the next token.
Comments before it go to the open draft. There is nothing to take at the end. -/
def take (as? : Option Kind := none) (next : Admitted := .usual) : Parse (Option Node) := do
  if ← isAt .endOfFile then return none
  flush
  let setting ← read
  let token := (← get).scanner.token
  token.faults.forM fun fault => add (fault.diagnostic setting.file setting.source)
  advance next
  return some (.ofToken token as?)

/-- Takes the current token into the open draft. -/
def consumeWith (label : Option Field) (as? : Option Kind) (next : Admitted) : Parse Unit := do
  match ← take as? next with
  | some node => modifyDraft (·.pushChild label node)
  | none => return

/-- Takes the current token into the open draft. -/
def consume : Parse Unit := consumeWith none none .usual

/-- Takes the current token under a label. -/
def consumeField (label : Field) : Parse Unit := consumeWith (some label) none .usual

/-- Takes the current token under another kind. -/
def consumeAs (kind : Kind) : Parse Unit := consumeWith none (some kind) .usual

/-- Takes the current token under a label and another kind. -/
def consumeFieldAs (label : Field) (kind : Kind) : Parse Unit :=
  consumeWith (some label) (some kind) .usual

/-- Splits the current token and stands at its first part. -/
def split (first : Kind) : Parse Unit :=
  modify fun s => { s with scanner := s.scanner.split first }

/-! ### What has to come next -/

/-- A leaf without text that stands in for a token that is not there. -/
def missing (kind : Kind) : Parse Node :=
  return .leaf kind (.emptyAt (← get).consumedEnd) { missing := true }

/-- Adds a missing leaf. -/
def pushMissing (kind : Kind) : Parse Unit := do push (← missing kind)

/-- Adds a missing leaf under a label. -/
def pushMissingField (label : Field) (kind : Kind) : Parse Unit := do
  pushField label (← missing kind)

/-- Takes the current token as a leaf, under another kind if one is given. -/
def leaf (as? : Option Kind := none) : Parse Node := do
  match ← take as? with
  | some node => return node
  | none => missing (as?.getD .identifier)

/-- Takes a token of this kind, or reports it as missing. -/
def expect (kind : Kind) : Parse Unit := do
  if ← isAt kind then consume
  else
    reportHere .expected [kind.name]
    pushMissing kind

/-- Takes a token of this kind if it comes next. -/
def consumeIf (kind : Kind) : Parse Unit := ifAt kind consume

/-- Takes a token of this kind if it comes next, and says whether it did. -/
def accept (kind : Kind) : Parse Bool := do
  if ← isAt kind then
    consume
    return true
  else return false

/-- Takes a name, which enters the tree under a label and a kind of its own; a metavariable keeps
its kind. -/
def expectName (label : Field) (kind : Kind) : Parse Unit := do
  match ← Parse.kind with
  | .identifier => consumeFieldAs label kind
  | .metavariable => consumeField label
  | _ =>
    reportExpected kind.name
    pushMissingField label kind

/-- Takes a token of this kind under a label, or else a name. -/
def markOrName (mark : Kind) (label : Field) : Parse Unit := do
  if ← isAt mark then consumeField label else expectName label .identifier

/-- Reads a node under a label of the open draft. -/
def field (label : Field) (body : Parse Node) : Parse Unit := do pushField label (← body)

/-- Reads a node into the open draft. -/
def child (body : Parse Node) : Parse Unit := do push (← body)

end ConcreteSyntax.Parse
