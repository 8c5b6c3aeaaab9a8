import ConcreteSyntax.Grammar.Operator
import ConcreteSyntax.Node.Basic
import ConcreteSyntax.Token.Mark

/-! # Terms of operators

The expressions that names and operators make up, as terms (`Term`). A term is written with the
parentheses that the table of operators asks for and no others (`Term.text`), and read back from a
tree with its parentheses left out (`Term.ofNode?`). -/

namespace ConcreteSyntax

/-! ### Names and digits -/

/-- Whether some characters are an identifier that is no word. -/
def isName (cs : List Char) : Bool :=
  !cs.isEmpty && Text.identifierPrefix cs == cs && Lexeme.wordKind cs == .identifier

/-- An identifier that is no word. -/
structure Name where
  chars : List Char
  isName : isName chars = true
  deriving DecidableEq

/-- A row of decimal digits, as it stands for a place in a tuple. -/
structure Digits where
  chars : List Char
  isDigits : (!chars.isEmpty && chars.all Char.isDigit) = true
  deriving DecidableEq

namespace Name

/-- A text as a name, if it is one. -/
def ofText? (text : String) : Option Name :=
  if h : ConcreteSyntax.isName text.toList = true then some ⟨text.toList, h⟩ else none

end Name

namespace Digits

/-- A text as digits, if all of it are. -/
def ofText? (text : String) : Option Digits :=
  if h : (!text.toList.isEmpty && text.toList.all Char.isDigit) = true then some ⟨text.toList, h⟩
  else none

end Digits

/-! ### Marks -/

/-- The mark of an operator before its operand. -/
inductive UnaryMark where
  | minus | bang | star | amp | ampMut
  deriving DecidableEq

namespace UnaryMark

/-- The class of the operator. -/
def operator : UnaryMark → OperatorClass
  | .minus | .bang | .star => .unary
  | .amp | .ampMut => .reference

/-- The mark as it is written before its operand. -/
def text : UnaryMark → List Char
  | .minus => ['-']
  | .bang => ['!']
  | .star => ['*']
  | .amp => ['&']
  | .ampMut => ['&', 'm', 'u', 't', ' ']

/-- The operator of a token, references apart. -/
def ofKind? : Kind → Option UnaryMark
  | .minus => some .minus
  | .bang => some .bang
  | .star => some .star
  | _ => none

end UnaryMark

/-- The mark of an infix operator between two expressions: any but `as`, `..` and `..=`. -/
structure BinaryMark where
  kind : Kind
  operator : OperatorClass
  ofKind : OperatorClass.ofInfix? kind = some operator
  joins : operator ≠ .cast ∧ operator ≠ .range
  deriving DecidableEq

namespace BinaryMark

/-- The mark of a token. -/
def ofKind? (kind : Kind) : Option BinaryMark :=
  match h : OperatorClass.ofInfix? kind with
  | some operator =>
    if joins : operator ≠ .cast ∧ operator ≠ .range then some ⟨kind, operator, h, joins⟩ else none
  | none => none

/-- The mark as it is written. -/
def text (m : BinaryMark) : List Char := (m.kind.markText.getD "").toList

end BinaryMark

/-- How tightly the operand on one side of an operator has to bind: as tightly as the operator if
that associates to this side, and more tightly otherwise. -/
def OperatorClass.operandPrecedence (c : OperatorClass) (side : Associativity) : Precedence :=
  if c.associativity = side then c.precedence else c.precedence.next

/-! ### Terms -/

/-- An expression made of names and operators. -/
inductive Term where
  | name (name : Name)
  | unary (mark : UnaryMark) (operand : Term)
  | binary (mark : BinaryMark) (left right : Term)
  | field (value : Term) (name : Name)
  | element (value : Term) (digits : Digits)
  | await (value : Term)
  | question (body : Term)
  | index (indexed inside : Term)
  | call (function : Term) (arguments : List Term)

namespace Term

/-- How tightly the outermost operator of a term binds; a postfix form binds tightest. -/
def level : Term → Precedence
  | .unary mark _ => mark.operator.precedence
  | .binary mark _ _ => mark.operator.precedence
  | _ => .call

/-- A text between parentheses if it has to be. -/
def bracket (needed : Bool) (text : List Char) : List Char :=
  if needed then '(' :: (text ++ [')']) else text

/-- Whether a term binds too loosely for its place. -/
def isLooser (e : Term) (min : Precedence) : Bool := e.level.rank < min.rank

mutual

/-- A term as it is written, with no parentheses but those that its operators need. -/
def text : Term → List Char
  | .name n => n.chars
  | .unary mark operand =>
    mark.text ++ bracket (operand.isLooser mark.operator.precedence) operand.text
  | .binary mark left right =>
    bracket (left.isLooser (mark.operator.operandPrecedence .left)) left.text ++
      ' ' :: (mark.text ++
        ' ' :: bracket (right.isLooser (mark.operator.operandPrecedence .right)) right.text)
  | .field value n => bracket (value.isLooser .call) value.text ++ '.' :: n.chars
  | .element value digits => bracket (value.isLooser .call) value.text ++ '.' :: digits.chars
  | .await value => bracket (value.isLooser .call) value.text ++ ['.', 'a', 'w', 'a', 'i', 't']
  | .question body => bracket (body.isLooser .call) body.text ++ ['?']
  | .index indexed inside =>
    bracket (indexed.isLooser .call) indexed.text ++ '[' :: (inside.text ++ [']'])
  | .call function arguments =>
    bracket (function.isLooser .call) function.text ++ '(' :: (argumentsText arguments ++ [')'])

/-- The arguments of a call as they are written. -/
def argumentsText : List Term → List Char
  | [] => []
  | [e] => e.text
  | e :: es => e.text ++ ',' :: ' ' :: argumentsText es

end

/-! ### Reading a term back -/

mutual

/-- The term that a node stands for, parentheses left out. -/
def ofNode? (source : String) : Node → Option Term
  | ⟨.identifier, range, _, []⟩ => (Name.ofText? (range.slice source)).map .name
  | ⟨.parenthesizedExpression, _, _, [_, (none, inside), _]⟩ => ofNode? source inside
  | ⟨.unaryExpression, _, _, [(none, mark), (none, operand)]⟩ => do
    return .unary (← UnaryMark.ofKind? mark.kind) (← ofNode? source operand)
  | ⟨.referenceExpression, _, _, [_, (some .value, operand)]⟩ => do
    return .unary .amp (← ofNode? source operand)
  | ⟨.referenceExpression, _, _, [_, (none, ⟨.mutKw, _, _, _⟩), (some .value, operand)]⟩ => do
    return .unary .ampMut (← ofNode? source operand)
  | ⟨.fieldExpression, _, _,
      [(some .value, value), _, (some .field, ⟨.fieldIdentifier, range, _, _⟩)]⟩ => do
    return .field (← ofNode? source value) (← Name.ofText? (range.slice source))
  | ⟨.fieldExpression, _, _,
      [(some .value, value), _, (some .field, ⟨.integerLiteral, range, _, _⟩)]⟩ => do
    return .element (← ofNode? source value) (← Digits.ofText? (range.slice source))
  | ⟨.awaitExpression, _, _, [(none, value), _, _]⟩ => do
    return .await (← ofNode? source value)
  | ⟨.tryExpression, _, _, [(none, body), _]⟩ => do
    return .question (← ofNode? source body)
  | ⟨.indexExpression, _, _, [(none, indexed), _, (none, inside), _]⟩ => do
    return .index (← ofNode? source indexed) (← ofNode? source inside)
  | ⟨.callExpression, _, _,
      [(some .function, function), (some .arguments, ⟨.arguments, _, _, _ :: arguments⟩)]⟩ => do
    return .call (← ofNode? source function) (← ofArguments? source arguments)
  | ⟨kind, _, _, [(some .left, left), (_, mark), (some .right, right)]⟩ => do
    let mark ← BinaryMark.ofKind? mark.kind
    if mark.operator.nodeKind = kind then
      return .binary mark (← ofNode? source left) (← ofNode? source right)
    else none
  | _ => none

/-- The arguments that stand after the opening parenthesis of a call. -/
def ofArguments? (source : String) : List (Option Field × Node) → Option (List Term)
  | [(none, ⟨.closeParen, _, _, _⟩)] => some []
  | [(none, argument), (none, ⟨.closeParen, _, _, _⟩)] => do return [← ofNode? source argument]
  | (none, argument) :: (none, ⟨.comma, _, _, _⟩) :: more => do
    return (← ofNode? source argument) :: (← ofArguments? source more)
  | _ => none

end

end Term

end ConcreteSyntax
