import ConcreteSyntax.Node.Draft

/-! # Reading a node again

The same path is a value in one place and a type in another. `Node.asType` reads the path of a value
as one of a type, as for the `a::B` of `a::B {}`; `Node.asPath` reads the path of a type as the name
of a macro. `Node.asLetChain` flattens a condition that joins `let`s with `&&`. -/

namespace ConcreteSyntax.Node

/-- A node of another kind over the same text. Only the mark of an ambiguity is kept, errors are
counted again. -/
def rebuild (n : Node) (kind : Kind) (flags : NodeFlags) (children : List Child) : Node :=
  ({ kind, flags, children := children.toArray } : Draft).finishOver n.range

mutual

/-- The path of a value as the path of a type. -/
def asType : Node → Node
  | ⟨.identifier, range, flags, children⟩ => ⟨.typeIdentifier, range, flags, children⟩
  | ⟨.scopedIdentifier, range, flags, children⟩ =>
    rebuild ⟨.scopedIdentifier, range, flags, children⟩ .scopedTypeIdentifier
      { ambiguous := flags.ambiguous } (namesAsTypes children)
  | ⟨.genericFunction, range, flags, children⟩ =>
    rebuild ⟨.genericFunction, range, flags, children⟩ .genericType {} (functionsAsTypes children)
  | n => n

/-- The children of a path, its name read as a type. -/
def namesAsTypes : List (Option Field × Node) → List (Option Field × Node)
  | [] => []
  | (some .name, n) :: rest => (some .name, asType n) :: namesAsTypes rest
  | c :: rest => c :: namesAsTypes rest

/-- The children of a path with arguments, the path itself read as a type. -/
def functionsAsTypes : List (Option Field × Node) → List (Option Field × Node)
  | [] => []
  | (some .function, n) :: rest => (some .type, asType n) :: functionsAsTypes rest
  | c :: rest => c :: functionsAsTypes rest

end

mutual

/-- The path of a type as the path of a value. -/
def asPath : Node → Node
  | ⟨.typeIdentifier, range, flags, children⟩ => ⟨.identifier, range, flags, children⟩
  | ⟨.scopedTypeIdentifier, range, flags, children⟩ =>
    rebuild ⟨.scopedTypeIdentifier, range, flags, children⟩ .scopedIdentifier
      { ambiguous := flags.ambiguous } (namesAsPaths children)
  | n => n

/-- The children of a path, its name read as a value. -/
def namesAsPaths : List (Option Field × Node) → List (Option Field × Node)
  | [] => []
  | (some .name, n) :: rest => (some .name, asPath n) :: namesAsPaths rest
  | c :: rest => c :: namesAsPaths rest

end

/-! ### Conditions -/

/-- Whether a node is `a && b`. -/
def isConjunction (n : Node) : Bool :=
  n.kind == .binaryExpression && (n.childByField? .operator).any (·.kind == .ampAmp)

/-- Whether a child is an operand of a binary expression. -/
def isOperand : Option Field → Bool
  | some .left | some .right => true
  | _ => false

mutual

/-- Whether a condition joins a `let` with `&&`, at any depth. -/
def hasLet : Node → Bool
  | ⟨kind, range, flags, children⟩ =>
    kind == .letCondition ||
      (isConjunction ⟨kind, range, flags, children⟩ && anyOperandHasLet children)

/-- Whether an operand has a `let`. -/
def anyOperandHasLet : List (Option Field × Node) → Bool
  | [] => false
  | (label, n) :: rest => (isOperand label && hasLet n) || anyOperandHasLet rest

end

mutual

/-- The operands and the marks `&&` of a condition, in order. -/
def conjuncts : Node → List Node
  | ⟨kind, range, flags, children⟩ =>
    if isConjunction ⟨kind, range, flags, children⟩ then conjunctsOf children
    else [⟨kind, range, flags, children⟩]

/-- The operands and the marks among some children. -/
def conjunctsOf : List (Option Field × Node) → List Node
  | [] => []
  | (label, n) :: rest => (if isOperand label then conjuncts n else [n]) ++ conjunctsOf rest

end

/-- A condition in which `&&` joins a `let` is one flat chain; any other stays as it is. -/
def asLetChain (n : Node) : Node :=
  if isConjunction n && hasLet n then
    rebuild n .letChain {} (n.conjuncts.map fun part => (none, part))
  else n

end ConcreteSyntax.Node
