import ConcreteSyntax.Grammar.Fragment
import ConcreteSyntax.Grammar.Literal
import ConcreteSyntax.Grammar.Recovery

/-! # Token trees

The arguments of a macro and the two sides of a macro rule: any tokens, balanced over the three
kinds of delimiters. `$( … )` with an operator is a repetition; in a pattern `$name:fragment` is a
binding. A closer that does not match is reported and left to the tree around it, so the rest of the
text stays balanced. -/

namespace ConcreteSyntax

open Parse

/-- Whether a mark says how often something is repeated. -/
def Kind.isRepetitionMark : Kind → Bool
  | .star | .plus | .question => true
  | _ => false

/-- Whether a token after the `)` of a repetition cannot be its separator. -/
def Kind.endsRepetition (k : Kind) : Bool :=
  k == .endOfFile || k == .dollar || k.isOpen || k.isClose

namespace Grammar

/-! ### Parts of a tree -/

/-- A name, a colon and the kind of fragment that the name binds. -/
def binding : Parse Node :=
  node .tokenBindingPattern do
    consumeField .name
    consume
    let current ← kind
    if current == .identifier || current.isWord then
      let word ← tokenText
      if Fragment.isSpecifier word then consumeFieldAs .type .fragmentSpecifier
      else
        reportHere .unknownFragment [word]
        let specifier ← leaf (some .fragmentSpecifier)
        pushField .type (specifier.withFlags { error := true })
    else
      reportExpected "fragment specifier"
      pushMissingField .type .fragmentSpecifier

/-- One tree, repetition, binding, lifetime, literal or other token. -/
def treeElement (g : Grammar) (form : TreeForm) (s : Session) : Parse Unit :=
  match s.kind with
  | .openParen | .openBracket | .openBrace => child (g.parse (.tokenTree form))
  | .dollar =>
    if s.ahead 1 == .openParen then child (g.parse (.repetition form)) else consume
  | .metavariable =>
    if form.hasBindings && s.ahead 1 == .colon then child binding else consume
  | .quote =>
    if s.ahead 1 == .identifier || (s.ahead 1).isWord then child lifetime else consume
  | current => if current.startsLiteral then child literal else consume

/-- The tokens up to a closer or the end of the text. -/
def treeContents (g : Grammar) (form : TreeForm) : Parse Unit :=
  repeatWhile do
    flush
    let s ← get
    if s.isAt .endOfFile || s.kind.isClose then return false
    g.treeElement form s
    return true

/-- Reports what stands in the place of a closer. -/
def reportInPlace (opener closer : Kind) (openRange : Range) (current : Kind) : Parse Unit :=
  if current == .endOfFile then reportAt openRange .unclosed [opener.name]
  else reportHere .mismatched [current.name, closer.name]

/-- Takes the closer of a tree or a repetition, or reports what stands in its place. Says whether it
was there. -/
def treeCloser (opener closer : Kind) (openRange : Range) : Parse Bool := do
  let current ← kind
  if current == closer then
    consume
    return true
  else
    reportInPlace opener closer openRange current
    pushMissing closer
    return false

/-! ### Trees -/

/-- The delimiters of a tree and what is between them. -/
def delimitedTree (g : Grammar) (form : TreeForm) : Parse Node :=
  node form.groupKind do
    let opener ← kind
    match opener.closer? with
    | none =>
      reportExpected "'(', '[' or '\x7b'"
      pushMissing .openParen
      pushMissing .closeParen
    | some closer =>
      let openRange ← tokenRange
      consume
      g.treeContents form
      let _ ← treeCloser opener closer openRange

/-- A token tree. -/
def tokenTree (g : Grammar) (form : TreeForm) : Parse Node := do
  flush
  guarded (g.delimitedTree form)

/-- A separator, if there is one, and the mark that says how often. -/
def repetitionMark : Parse Unit := do
  let current ← kind
  provided (!(current.isRepetitionMark || current.endsRepetition)) consume
  if (← kind).isRepetitionMark then consume
  else
    reportHere .repetitionOperator []
    pushMissing .star

/-- A repetition. -/
def repetition (g : Grammar) (form : TreeForm) : Parse Node :=
  node form.repetitionKind do
    consume
    let openRange ← tokenRange
    consume
    g.treeContents form
    if ← treeCloser .openParen .closeParen openRange then repetitionMark

/-! ### Calls of macros -/

/-- The call of a macro whose path was read. -/
def macroCall (g : Grammar) (path : Node) : Parse Node :=
  node .macroInvocation do
    pushField .macroName path
    expect .bang
    child (g.parse (.tokenTree .arguments))

end Grammar

end ConcreteSyntax
