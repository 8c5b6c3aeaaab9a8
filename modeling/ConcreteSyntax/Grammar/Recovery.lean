import ConcreteSyntax.Grammar.Intake

/-! # Recovery

What the grammar does with text that fits nowhere. Tokens that are skipped stay in the tree, under
an error node; a list that never closes becomes an error itself. `Parse.guarded` stops nesting at
the limit of the options. -/

namespace ConcreteSyntax.Parse

/-! ### Groups and nesting -/

/-- Skips one token, so many groups being open before it. The last closer is the last token. -/
def skipNext (nesting : Nat) : Parse (Step Nat Unit) := do
  let current ← kind
  if current == .endOfFile then return .done ()
  let nesting :=
    if current.isOpen then nesting + 1 else if current.isClose then nesting - 1 else nesting
  consume
  return if nesting == 0 then .done () else .again nesting

/-- Skips the current token, or the whole group that it opens. A closer and the end of the text are
left alone. -/
def skipGroup : Parse Node :=
  node .error do
    let first ← kind
    if first.isClose || first == .endOfFile then return
    loop skipNext 0

/-- Reports that the limit of nesting is reached. -/
def reportLimit : Parse Unit := do
  reportHere .nestingLimit [toString (← options).maxDepth]
  note (.nestingLimit (← offset))

/-- Skips what would nest deeper than the limit. -/
def skipNested : Parse Node := do
  reportLimit
  skipGroup

/-- Reads one level deeper. At the limit the construct is skipped instead. -/
def guarded (body : Parse Node) : Parse Node := do
  let setting ← read
  if setting.depth < setting.options.maxDepth then
    withReader (fun setting => { setting with depth := setting.depth + 1 }) body
  else skipNested

/-! ### Braces that were skipped -/

/-- Counts a `{` that is about to be skipped. -/
def countBrace (current : Kind) : Parse Unit := do
  if current == .openBrace then modify fun s => { s with openBraces := s.openBraces + 1 }

/-- Takes a `}` that closes a skipped `{`, and says whether there was one. -/
def absorbBrace : Parse Bool := do
  let s ← get
  if s.openBraces > 0 && s.isAt .closeBrace then
    modify fun s => { s with openBraces := s.openBraces - 1 }
    note (.absorbedBrace s.offset)
    consume
    return true
  else return false

/-! ### Up to a terminator -/

/-- Skips one token, unless it is a `}` or the end of the text. Says whether more may be skipped. -/
def skipUntil (terminator : Kind) : Parse Bool := do
  let current ← kind
  if current == .endOfFile || current == .closeBrace then return false
  countBrace current
  consume
  return current != terminator

/-- Skips everything up to a terminator, which is skipped too, or to a `}` or the end of the text,
which are not. -/
def recoverUntil (terminator : Kind) : Parse Unit := do
  note (.recovery terminator (← offset))
  reportUnexpected
  flush
  child (node .error (repeatWhile (skipUntil terminator)))

/-- Skips to the end of a statement. -/
def recoverStatement : Parse Unit := recoverUntil .semicolon

/-! ### Delimiters -/

/-- Reports that a closer is missing; at the end of the text the opener is reported. -/
def reportUnclosed (opener closer : Kind) (openRange : Range) : Parse Unit := do
  if ← isAt .endOfFile then reportAt openRange .unclosed [opener.name]
  else reportHere .expected [closer.name]

/-- Takes the closer of a group, or reports it as missing; at the end of the text the opener is
reported. -/
def close (opener : Kind) (openRange : Range) : Parse Unit := do
  let closer := opener.closer?.getD .closeParen
  if ← isAt closer then consume
  else
    reportUnclosed opener closer openRange
    pushMissing closer

/-- Reports an opener as missing and adds both delimiters as missing leaves. -/
def missingGroup (opener closer : Kind) : Parse Unit := do
  reportHere .expected [opener.name]
  pushMissing opener
  pushMissing closer

/-! ### Lists -/

/-- A form of list: its delimiters, the tokens at which an unclosed one ends, and the tokens with
which an element begins. -/
structure ListForm where
  opener : Kind
  closer : Kind
  ends : List Kind
  starts : Kind → Bool

namespace ListForm

/-- Whether a list ends here without its closer. -/
def breaksAt (form : ListForm) (current : Kind) : Bool :=
  current == .endOfFile || form.ends.contains current

end ListForm

/-- Skips one token, unless the closer, an end or, after the first, the start of an element stands
here. Says whether more may be skipped. -/
def skipInList (form : ListForm) : Parse Bool := do
  let s ← get
  if s.isAt form.closer || form.breaksAt s.kind then return false
  if !s.draft.isEmpty && form.starts s.kind then return false
  countBrace s.kind
  consume
  return true

/-- Puts what was skipped into the list: as an error before its closer or an element, or else token
by token. Says whether the list goes on. -/
def placeSkipped (form : ListForm) (skipped : Draft) : Parse Bool := do
  if skipped.isEmpty then return true
  let current ← kind
  if current == form.closer || form.starts current then
    push (← finish skipped)
    return true
  pushAll skipped.children.toList
  return false

/-- Skips tokens up to the closer, an end or the start of an element. Says whether the list goes
on. -/
def recoverInList (form : ListForm) : Parse Bool := do
  note (.listRecovery (← offset))
  reportUnexpected
  placeSkipped form (← collect (.ofKind .error) (repeatWhile (skipInList form)))

/-- Reports a comma that is missing between two elements. -/
def missingComma : Parse Unit := do
  reportHere .expected [","]
  pushMissing .comma

/-- Takes the comma after an element, unless the closer follows. Says whether the text moved on since
the element began. -/
def afterElement (form : ListForm) (before : Nat) : Parse Bool := do
  let s ← get
  if s.isAt .comma then
    consume
    return true
  if s.isAt form.closer then return true
  if s.offset == before then return false
  provided (form.starts s.kind) missingComma
  return true

/-- Reads one element and the comma after it. Says whether the text moved on. -/
def listElement (form : ListForm) (element : Parse Unit) : Parse Bool := do
  let before ← offset
  element
  afterElement form before

/-- Reads an element if one begins here, or skips what stands in its place. Says whether the list
goes on. -/
def listEntry (form : ListForm) (element : Parse Unit) (current : Kind) : Parse Bool := do
  if form.starts current then
    if ← listElement form element then return true else recoverInList form
  else recoverInList form

/-- One turn over a list: its closer, which is the last, or an entry. A list may also break off. -/
def listTurn (form : ListForm) (element : Parse Unit) : Parse (Step Unit Bool) := do
  flush
  let current ← kind
  if current == form.closer then
    consume
    return .done true
  if form.breaksAt current then return .done false
  if ← listEntry form element current then return .again () else return .done false

/-- Reads the elements of a list, commas between them, and its closer. Says whether it closed. -/
def listRest (form : ListForm) (element : Parse Unit) : Parse Bool :=
  loop (fun _ => listTurn form element) ()

/-- Reads a list into the open draft, which becomes an error without labels if the list never
closes. -/
def list (form : ListForm) (element : Parse Unit) : Parse Unit := do
  if ← isAt form.opener then
    let openRange ← tokenRange
    consume
    unless ← listRest form element do
      note (.unclosedList form.opener openRange.start)
      reportAt openRange .unclosed [form.opener.name]
      failDraft
  else missingGroup form.opener form.closer

end ConcreteSyntax.Parse
