import ConcreteSyntax.Kind.Name

/-! # Classes of kinds

The groups of kinds that the reader and its users ask about. Most are intervals of `Kind.index`.
A kind is *named* when it is a node or a leaf with content; marks and words are kept in a tree but
are anonymous. Words are found by their text with `Kind.ofReserved?` and `Kind.ofContextual?`. -/

namespace ConcreteSyntax.Kind

/-! ### Intervals -/

/-- Whether a kind lies between two others, ends included. -/
def between (k first last : Kind) : Bool := first.index ≤ k.index && k.index ≤ last.index

/-- Tokens come before the first node kind. -/
def isToken (k : Kind) : Bool := k.index < Kind.sourceFile.index

/-- A word with a meaning of its own, reserved or contextual. -/
def isWord (k : Kind) : Bool := k.between .asKw .unionKw

/-- A word that is never an identifier. -/
def isReserved (k : Kind) : Bool := k.between .asKw .yieldKw

/-- A delimiter, a mark or an operator. -/
def isMark (k : Kind) : Bool := k.between .openParen .shrEq

/-- An operator such as `+=`. -/
def isCompoundAssignment (k : Kind) : Bool := k.between .plusEq .shrEq

/-! ### Small classes -/

/-- A literal read as one token, which enters a tree as its pieces. -/
def isCompositeLiteral : Kind → Bool
  | .stringToken | .rawStringToken | .charToken => true
  | _ => false

/-- A comment of either form. -/
def isComment : Kind → Bool
  | .lineComment | .blockComment => true
  | _ => false

/-- A delimiter that opens a group. -/
def isOpen : Kind → Bool
  | .openParen | .openBracket | .openBrace => true
  | _ => false

/-- A delimiter that closes a group. -/
def isClose : Kind → Bool
  | .closeParen | .closeBracket | .closeBrace => true
  | _ => false

/-- The delimiter that closes what this one opens. -/
def closer? : Kind → Option Kind
  | .openParen => some .closeParen
  | .openBracket => some .closeBracket
  | .openBrace => some .closeBrace
  | _ => none

/-- A node, or a leaf whose text matters: the leaves that a reader of the tree asks for. -/
def isNamed (k : Kind) : Bool :=
  !k.isToken || match k with
  | .identifier | .typeIdentifier | .fieldIdentifier | .shorthandFieldIdentifier | .primitiveType
  | .metavariable | .fragmentSpecifier | .shebang | .literalSuffix | .stringContent
  | .escapeSequence | .docComment | .outerDocCommentMarker | .innerDocCommentMarker | .mutKw
  | .selfKw | .crateKw | .superKw | .errorSentinel => true
  | _ => false

/-! ### Words by their text -/

/-- The reserved words. -/
def reservedWords : List Kind := all.filter isReserved

/-- The words that are reserved only where the grammar says so. -/
def contextualWords : List Kind := all.filter fun k => k.isWord && !k.isReserved

/-- The reserved word with this text. -/
def ofReserved? (text : String) : Option Kind := reservedWords.find? (·.wordText == some text)

/-- The contextual word with this text. -/
def ofContextual? (text : String) : Option Kind := contextualWords.find? (·.wordText == some text)

/-- The names of the built-in types. -/
def primitiveTypeNames : List String :=
  ["u8", "i8", "u16", "i16", "u32", "i32", "u64", "i64", "u128", "i128", "isize", "usize", "f32",
    "f64", "bool", "str", "char"]

/-- Whether a text names a built-in type. -/
def isPrimitiveTypeName (text : String) : Bool := primitiveTypeNames.contains text

end ConcreteSyntax.Kind
