/-! # Fragment specifiers

The words that may follow `$name:` in the pattern of a macro rule. -/

namespace ConcreteSyntax.Fragment

/-- Every fragment specifier. -/
def specifiers : List String :=
  ["block", "expr", "expr_2021", "ident", "item", "lifetime", "literal", "meta", "pat", "pat_param",
    "path", "stmt", "tt", "ty", "vis"]

/-- Whether a word is a fragment specifier. -/
def isSpecifier (word : String) : Bool := specifiers.contains word

end ConcreteSyntax.Fragment
