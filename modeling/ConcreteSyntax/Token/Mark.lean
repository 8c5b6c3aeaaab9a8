import ConcreteSyntax.Token.Contextual

/-! # Marks, words and names

The lexeme at the front of a text: the longest mark that fits, a word or a name, a metavariable, or
whatever context-sensitive lexeme is admitted. A `>` is always read alone, so that it can close a
list of type arguments; the grammar joins it with what follows where an operator is wanted. -/

namespace ConcreteSyntax.Lexeme

variable [Text.Xid]

/-! ### Marks -/

/-- The marks that are not read by the longest match: a quote, an underscore and a dollar depend on
what follows, and a joined `>` is left to the grammar. -/
def exceptionalMarks : List Kind := [.quote, .underscore, .dollar, .gtEq, .shr, .shrEq]

/-- The marks of one length, each with its text. -/
def marksOfLength (length : Nat) : List (List Char × Kind) :=
  Kind.all.filterMap fun k =>
    match k.markText with
    | some text =>
      if text.length == length && !exceptionalMarks.contains k then some (text.toList, k) else none
    | none => none

/-- The marks with their texts, longer ones first. -/
def marks : List (List Char × Kind) := [3, 2, 1].flatMap marksOfLength

/-- The longest mark at the front of a text. -/
def mark? (cs : List Char) : Option Lexeme :=
  (marks.find? (·.1.isPrefixOf cs)).map fun (text, kind) => .plain kind text.length

/-! ### Words and names -/

/-- The kind of an identifier by its text. -/
def wordKind (word : List Char) : Kind :=
  if word = ['_'] then .underscore else (Kind.ofReserved? (String.ofList word)).getD .identifier

/-- The word or name at the front of a text; a character that begins neither is a fault. -/
def word (cs : List Char) : Lexeme :=
  let text := Text.identifierPrefix cs
  if text.isEmpty then { kind := .unknown, length := 1, fault := some .invalidCharacter }
  else .plain (wordKind text) text.length

/-- The name after `r#`, which is never a word. -/
def rawName? : List Char → Option Lexeme
  | 'r' :: '#' :: cs =>
    let text := Text.identifierPrefix cs
    if text.isEmpty then none
    else some { kind := .identifier, length := text.length + 2, flags := { rawIdentifier := true } }
  | _ => none

/-- The literal with a prefix, the raw name, or else the word at the front of a text. -/
def wordOrLiteral (recognize : Recognizer) (admitted : Admitted) (cs : List Char) : Lexeme :=
  let literal := match cs with
    | 'r' :: _ | 'b' :: _ | 'c' :: _ => recognize admitted cs
    | _ => none
  ((literal <|> rawName? cs)).getD (word cs)

/-- A metavariable, or the dollar alone if no name follows it. -/
def dollar (afterDollar : List Char) : Lexeme :=
  let name := Text.identifierPrefix afterDollar
  if name.isEmpty then .plain .dollar 1 else .plain .metavariable (name.length + 1)

/-! ### Any lexeme -/

/-- The lexeme at the front of a text that is not empty and begins with no white space. -/
def next (recognize : Recognizer) (admitted : Admitted) (cs : List Char) : Lexeme :=
  match mark? cs with
  | some lexeme => lexeme
  | none =>
    match cs with
    | '$' :: rest => dollar rest
    | '\'' :: _ => (recognize admitted cs).getD (.plain .quote 1)
    | c :: _ =>
      if c = '"' || c.isDigit then (recognize admitted cs).getD (.plain .errorSentinel 1)
      else wordOrLiteral recognize admitted cs
    | [] => .plain .endOfFile 0

end ConcreteSyntax.Lexeme
