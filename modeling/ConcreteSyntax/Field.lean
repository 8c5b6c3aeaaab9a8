/-! # Field labels

A child of a node may carry a label that says which part of the node it is. Several children of one
node may carry the same label. -/

namespace ConcreteSyntax

/-- The label of a child. -/
inductive Field where
  | alias | alternative | argument | arguments | body | bounds | condition | consequence
  | defaultType | element | field | function | left | length | list | macroName | name | operator
  | parameters | path | pattern | returnType | right | trait | type | typeArguments
  | typeParameters | value
  deriving DecidableEq, Inhabited

namespace Field

/-- Every label, in alphabetical order. -/
def all : List Field := [
  .alias, .alternative, .argument, .arguments, .body, .bounds, .condition, .consequence,
  .defaultType, .element, .field, .function, .left, .length, .list, .macroName, .name, .operator,
  .parameters, .path, .pattern, .returnType, .right, .trait, .type, .typeArguments,
  .typeParameters, .value ]

/-- The label as a tree writes it. -/
def word : Field → String
  | .alias => "alias"
  | .alternative => "alternative"
  | .argument => "argument"
  | .arguments => "arguments"
  | .body => "body"
  | .bounds => "bounds"
  | .condition => "condition"
  | .consequence => "consequence"
  | .defaultType => "default_type"
  | .element => "element"
  | .field => "field"
  | .function => "function"
  | .left => "left"
  | .length => "length"
  | .list => "list"
  | .macroName => "macro"
  | .name => "name"
  | .operator => "operator"
  | .parameters => "parameters"
  | .path => "path"
  | .pattern => "pattern"
  | .returnType => "return_type"
  | .right => "right"
  | .trait => "trait"
  | .type => "type"
  | .typeArguments => "type_arguments"
  | .typeParameters => "type_parameters"
  | .value => "value"

/-- The label written so. -/
def ofWord? (text : String) : Option Field := all.find? (·.word == text)

end Field

end ConcreteSyntax
