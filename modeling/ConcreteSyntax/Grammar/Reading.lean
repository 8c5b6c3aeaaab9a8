import ConcreteSyntax.Grammar.Expression.Prefix
import ConcreteSyntax.Grammar.Pattern

/-! # The grammar

`Grammar.production` reads each nonterminal, once a grammar for the nonterminals inside it is given;
`Grammar.upTo` ties the knot to a given depth of nesting. The depth that a text needs is bounded by
its length: only so many nonterminals open one another before a token is consumed. -/

namespace ConcreteSyntax.Grammar

open Parse

/-- The production of a nonterminal. -/
def production (g : Grammar) : Nonterminal → Parse Node
  | .type => g.type
  | .innerReferenceType => guarded g.referenceType
  | .pattern => g.pattern
  | .singlePattern => g.singlePattern
  | .innerReferencePattern => guarded g.referencePattern
  | .expression min => g.expressionFrom min
  | .operand => g.operand
  | .innerReference => guarded g.reference
  | .blockLike => guarded g.primary
  | .block => g.block
  | .elseIf => g.elseIf
  | .tokenTree form => g.tokenTree form
  | .repetition form => g.repetition form
  | .useClause => g.useClause
  | .declarationList => g.declarationList

/-- Reads a nonterminal to a depth of nesting. -/
def parseUpTo : Nat → Nonterminal → Parse Node
  | 0, _ => outOfTurns
  | depth + 1, nonterminal => opening nonterminal (production ⟨parseUpTo depth⟩ nonterminal)

/-- The grammar to a depth of nesting. -/
def upTo (depth : Nat) : Grammar := ⟨parseUpTo depth⟩

/-- A whole text, read into the open draft. -/
def sourceFile (g : Grammar) : Parse Unit := do
  consumeIf .shebang
  g.statements { inBraces := false, itemsOnly := false }
  flush

end ConcreteSyntax.Grammar
