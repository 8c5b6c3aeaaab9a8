import ConcreteSyntax.Node.Traversal
import ConcreteSyntax.Node.SExpression
import ConcreteSyntax.Diagnostic.Basic
import ConcreteSyntax.Text.Character

/-! # Trees

What reading a text gives: the root, the text, the name of the file, and the diagnostics. A tree had
errors if its root does or if one of its diagnostics is an error. -/

namespace ConcreteSyntax

/-- The tree of a text. -/
structure Tree where
  root : Node
  source : String
  file : String
  diagnostics : List Diagnostic

namespace Tree

/-- Whether an error, a missing token or a diagnostic of an error came up. -/
def hadErrors (t : Tree) : Bool := t.root.hasError || t.diagnostics.any Diagnostic.isError

/-- The lines of the text. -/
def lines (t : Tree) : Lines := .ofText t.source

/-- The text of a node. -/
def textOf (t : Tree) (n : Node) : String := n.text t.source

/-- Every diagnostic with its line and column. -/
def renderDiagnostics (t : Tree) : List String :=
  let lines := t.lines
  t.diagnostics.map (·.render lines)

/-- The tree in one line. -/
def describe (t : Tree) : String :=
  let errors := if t.hadErrors then "true" else "false"
  "SyntaxTree \x7b file_name: " ++ Text.quoted t.file ++ ", root: " ++ t.root.brief
    ++ ", had_errors: " ++ errors ++ ", diagnostics: " ++ toString t.diagnostics.length ++ " \x7d"

end Tree

end ConcreteSyntax
