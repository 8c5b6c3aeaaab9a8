import ConcreteSyntax.Node.Basic

/-! # S-expressions

The named structure of a tree in one line: `(name child …)` with labels before the children that
have one, marks and words left out, and `(MISSING name)` for a token that is not there. -/

namespace ConcreteSyntax

namespace Node

/-- A missing token: its name, in quotes if it is a mark or a word. -/
def missingForm (n : Node) : String :=
  if n.isNamed then s!"(MISSING {n.name})" else s!"(MISSING \"{n.name}\")"

/-- What stands before a node: a space, if anything was written, and the label of the node. -/
def lead (out : String) (label : Option Field) : String :=
  let out := if out.isEmpty then out else out.push ' '
  match label with
  | some f => out ++ f.word ++ ": "
  | none => out

end Node

mutual

/-- The S-expression of a node that its parent labels `label`, written after `out`. -/
def Node.formOnto (out : String) (label : Option Field) : Node → String
  | ⟨kind, range, flags, children⟩ =>
    let node : Node := ⟨kind, range, flags, children⟩
    let out := Node.lead out label
    if node.isMissing then out ++ node.missingForm
    else Node.formAllOnto (out ++ "(" ++ node.name) children ++ ")"

/-- The S-expressions of the children that are named or missing, written after `out`. -/
def Node.formAllOnto (out : String) : List (Option Field × Node) → String
  | [] => out
  | (label, child) :: more =>
    if child.isNamed || child.isMissing then Node.formAllOnto (child.formOnto out label) more
    else Node.formAllOnto out more

end

/-- The S-expression of a node, which has no label where the writing starts. -/
def Node.toSExpression (n : Node) : String := n.formOnto "" none

end ConcreteSyntax
