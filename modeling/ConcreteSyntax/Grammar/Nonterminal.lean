import ConcreteSyntax.Grammar.Operator

/-! # Nonterminals

The constructs that occur inside themselves. Every cycle of the grammar passes through one of them;
all other constructs are plain compositions. -/

namespace ConcreteSyntax

/-- The two forms of token trees: the arguments of a macro, and the pattern of a macro rule, in
which `$name:fragment` binds a name. -/
inductive TreeForm where
  | arguments | pattern
  deriving DecidableEq, Inhabited

namespace TreeForm

/-- The kind of a group of tokens. -/
def groupKind : TreeForm → Kind
  | .arguments => .tokenTree
  | .pattern => .tokenTreePattern

/-- The kind of a repetition `$( … )*`. -/
def repetitionKind : TreeForm → Kind
  | .arguments => .tokenRepetition
  | .pattern => .tokenRepetitionPattern

/-- Whether `$name:fragment` binds a name. -/
def hasBindings : TreeForm → Bool
  | .arguments => false
  | .pattern => true

end TreeForm

/-- A construct that occurs inside itself. -/
inductive Nonterminal where
  /-- Any type. -/
  | type
  /-- The inner reference of a type such as `&&T`. -/
  | innerReferenceType
  /-- A pattern, alternatives included. -/
  | pattern
  /-- A pattern without alternatives at its top. -/
  | singlePattern
  /-- The inner reference of a pattern such as `&&p`. -/
  | innerReferencePattern
  /-- An expression whose operators all bind at least this tightly. -/
  | expression (min : Precedence)
  /-- The operand of a prefix operator. -/
  | operand
  /-- The inner reference of an expression such as `&&x`. -/
  | innerReference
  /-- The expression that begins a statement and may end it, such as a block or an `if`. -/
  | blockLike
  /-- A block. -/
  | block
  /-- The `if` after an `else`. -/
  | elseIf
  /-- A group of tokens between delimiters. -/
  | tokenTree (form : TreeForm)
  /-- A repetition in a group of tokens. -/
  | repetition (form : TreeForm)
  /-- What follows `use`. -/
  | useClause
  /-- Items between braces. -/
  | declarationList
  deriving DecidableEq

end ConcreteSyntax
