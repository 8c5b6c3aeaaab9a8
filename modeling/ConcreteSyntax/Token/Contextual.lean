import ConcreteSyntax.Token.Comment
import ConcreteSyntax.Token.QuoteMark
import ConcreteSyntax.Token.StringLiteral
import ConcreteSyntax.Token.Number

/-! # Context-sensitive lexemes

Literals, comments, lifetimes and suffixes, recognised only where their class is admitted. -/

namespace ConcreteSyntax

/-- A way to recognise context-sensitive lexemes at the front of a text. -/
abbrev Recognizer := Admitted → List Char → Option Lexeme

namespace Lexeme

variable [Text.Xid]

/-- A lexeme where its class is admitted. -/
def onlyIf (admitted : Bool) (lexeme : Lexeme) : Option Lexeme :=
  if admitted then some lexeme else none

/-- The context-sensitive lexeme at the front of a text. A suffix, where it is admitted, is any
identifier and comes first. -/
def contextual? : Recognizer := fun admitted cs =>
  let suffix := if admitted.literalSuffix then Text.identifierPrefix cs else []
  if !suffix.isEmpty then some (.plain .literalSuffix suffix.length)
  else match cs with
    | '/' :: '/' :: _ => onlyIf admitted.lineComment (Comment.line cs)
    | '/' :: '*' :: rest => onlyIf admitted.blockComment (Comment.block rest)
    | '\'' :: rest => QuoteMark.scan? admitted rest
    | '"' :: rest => onlyIf admitted.string (StringLiteral.scan 0 {} rest)
    | 'r' :: rest => if admitted.rawString then StringLiteral.scanRaw? 0 {} rest else none
    | 'b' :: '\'' :: rest =>
      onlyIf admitted.char (QuoteMark.prefixed { bytePrefix := true } rest)
    | 'b' :: '"' :: rest =>
      onlyIf admitted.string (StringLiteral.scan 1 { bytePrefix := true } rest)
    | 'c' :: '"' :: rest => onlyIf admitted.string (StringLiteral.scan 1 { cPrefix := true } rest)
    | 'b' :: 'r' :: rest =>
      if admitted.rawString then StringLiteral.scanRaw? 1 { bytePrefix := true } rest else none
    | 'c' :: 'r' :: rest =>
      if admitted.rawString then StringLiteral.scanRaw? 1 { cPrefix := true } rest else none
    | c :: _ => if c.isDigit then onlyIf admitted.integer (Number.scan admitted.float cs) else none
    | [] => none

end Lexeme

end ConcreteSyntax
