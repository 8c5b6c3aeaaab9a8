import ConcreteSyntax.Kind.Basic

/-! # How kinds are written

A word or a mark has a fixed text in the source, `Kind.wordText` and `Kind.markText`. The name of a
kind in a tree, `Kind.name`, is that text where there is one and a grammar name otherwise; the one
word whose name differs is `mut`. -/

namespace ConcreteSyntax.Kind

/-! ### Fixed texts -/

/-- The text of a reserved or contextual word. -/
def wordText : Kind → Option String
  | .asKw => some "as"
  | .asyncKw => some "async"
  | .awaitKw => some "await"
  | .breakKw => some "break"
  | .constKw => some "const"
  | .continueKw => some "continue"
  | .crateKw => some "crate"
  | .dynKw => some "dyn"
  | .elseKw => some "else"
  | .enumKw => some "enum"
  | .externKw => some "extern"
  | .falseKw => some "false"
  | .fnKw => some "fn"
  | .forKw => some "for"
  | .ifKw => some "if"
  | .implKw => some "impl"
  | .inKw => some "in"
  | .letKw => some "let"
  | .loopKw => some "loop"
  | .matchKw => some "match"
  | .modKw => some "mod"
  | .moveKw => some "move"
  | .mutKw => some "mut"
  | .pubKw => some "pub"
  | .refKw => some "ref"
  | .returnKw => some "return"
  | .selfKw => some "self"
  | .selfTypeKw => some "Self"
  | .staticKw => some "static"
  | .structKw => some "struct"
  | .superKw => some "super"
  | .traitKw => some "trait"
  | .trueKw => some "true"
  | .typeKw => some "type"
  | .unsafeKw => some "unsafe"
  | .useKw => some "use"
  | .whereKw => some "where"
  | .whileKw => some "while"
  | .yieldKw => some "yield"
  | .autoKw => some "auto"
  | .defaultKw => some "default"
  | .macroRulesKw => some "macro_rules"
  | .rawKw => some "raw"
  | .unionKw => some "union"
  | _ => none

/-- The text of a delimiter, a mark or an operator. -/
def markText : Kind → Option String
  | .openParen => some "("
  | .closeParen => some ")"
  | .openBracket => some "["
  | .closeBracket => some "]"
  | .openBrace => some "\x7b"
  | .closeBrace => some "\x7d"
  | .comma => some ","
  | .semicolon => some ";"
  | .colon => some ":"
  | .colonColon => some "::"
  | .dot => some "."
  | .dotDot => some ".."
  | .dotDotDot => some "..."
  | .dotDotEq => some "..="
  | .pound => some "#"
  | .dollar => some "$"
  | .question => some "?"
  | .atSign => some "@"
  | .arrow => some "->"
  | .fatArrow => some "=>"
  | .quote => some "'"
  | .underscore => some "_"
  | .tilde => some "~"
  | .bang => some "!"
  | .eq => some "="
  | .eqEq => some "=="
  | .bangEq => some "!="
  | .lt => some "<"
  | .ltEq => some "<="
  | .gt => some ">"
  | .gtEq => some ">="
  | .plus => some "+"
  | .minus => some "-"
  | .star => some "*"
  | .slash => some "/"
  | .percent => some "%"
  | .caret => some "^"
  | .amp => some "&"
  | .pipe => some "|"
  | .ampAmp => some "&&"
  | .pipePipe => some "||"
  | .shl => some "<<"
  | .shr => some ">>"
  | .plusEq => some "+="
  | .minusEq => some "-="
  | .starEq => some "*="
  | .slashEq => some "/="
  | .percentEq => some "%="
  | .caretEq => some "^="
  | .ampEq => some "&="
  | .pipeEq => some "|="
  | .shlEq => some "<<="
  | .shrEq => some ">>="
  | _ => none

/-! ### Names in a tree -/

/-- The grammar name of a kind without a fixed text. -/
def grammarName : Kind → String
  | .unknown => "unknown"
  | .endOfFile => "end"
  | .errorSentinel => "error_sentinel"
  | .lineCommentStart => "//"
  | .blockCommentStart => "/*"
  | .blockCommentEnd => "*/"
  | .outerDocCommentMarker => "outer_doc_comment_marker"
  | .innerDocCommentMarker => "inner_doc_comment_marker"
  | .docComment => "doc_comment"
  | .identifier => "identifier"
  | .typeIdentifier => "type_identifier"
  | .fieldIdentifier => "field_identifier"
  | .shorthandFieldIdentifier => "shorthand_field_identifier"
  | .primitiveType => "primitive_type"
  | .metavariable => "metavariable"
  | .fragmentSpecifier => "fragment_specifier"
  | .shebang => "shebang"
  | .integerToken => "integer"
  | .floatToken => "float"
  | .literalSuffix => "literal_suffix"
  | .stringToken => "string"
  | .rawStringToken => "raw_string"
  | .charToken => "char"
  | .stringStart | .stringEnd => "\""
  | .stringContent => "string_content"
  | .escapeSequence => "escape_sequence"
  | .rawStringStart => "raw_string_start"
  | .rawStringEnd => "raw_string_end"
  | .charStart | .charEnd => "'"
  | .charContent => "char_content"
  | .radixPrefix => "radix_prefix"
  | .digits => "digits"
  | .decimalPoint => "decimal_point"
  | .exponent => "exponent"
  | .sourceFile => "source_file"
  | .error => "ERROR"
  | .lineComment => "line_comment"
  | .blockComment => "block_comment"
  | .attributeItem => "attribute_item"
  | .innerAttributeItem => "inner_attribute_item"
  | .attributeBody => "attribute"
  | .visibilityModifier => "visibility_modifier"
  | .modItem => "mod_item"
  | .foreignModItem => "foreign_mod_item"
  | .externCrateDeclaration => "extern_crate_declaration"
  | .useDeclaration => "use_declaration"
  | .scopedUseList => "scoped_use_list"
  | .useList => "use_list"
  | .useAsClause => "use_as_clause"
  | .useWildcard => "use_wildcard"
  | .functionItem => "function_item"
  | .functionSignatureItem => "function_signature_item"
  | .functionModifiers => "function_modifiers"
  | .externModifier => "extern_modifier"
  | .parameters => "parameters"
  | .parameter => "parameter"
  | .selfParameter => "self_parameter"
  | .variadicParameter => "variadic_parameter"
  | .structItem => "struct_item"
  | .unionItem => "union_item"
  | .enumItem => "enum_item"
  | .enumVariantList => "enum_variant_list"
  | .enumVariant => "enum_variant"
  | .fieldDeclarationList => "field_declaration_list"
  | .fieldDeclaration => "field_declaration"
  | .orderedFieldDeclarationList => "ordered_field_declaration_list"
  | .traitItem => "trait_item"
  | .implItem => "impl_item"
  | .declarationList => "declaration_list"
  | .associatedType => "associated_type"
  | .typeItem => "type_item"
  | .constItem => "const_item"
  | .staticItem => "static_item"
  | .typeParameters => "type_parameters"
  | .typeParameter => "type_parameter"
  | .lifetimeParameter => "lifetime_parameter"
  | .constParameter => "const_parameter"
  | .whereClause => "where_clause"
  | .wherePredicate => "where_predicate"
  | .traitBounds => "trait_bounds"
  | .higherRankedTraitBound => "higher_ranked_trait_bound"
  | .removedTraitBound => "removed_trait_bound"
  | .forLifetimes => "for_lifetimes"
  | .macroDefinition => "macro_definition"
  | .macroRule => "macro_rule"
  | .macroInvocation => "macro_invocation"
  | .tokenTree => "token_tree"
  | .tokenRepetition => "token_repetition"
  | .tokenTreePattern => "token_tree_pattern"
  | .tokenRepetitionPattern => "token_repetition_pattern"
  | .tokenBindingPattern => "token_binding_pattern"
  | .letDeclaration => "let_declaration"
  | .expressionStatement => "expression_statement"
  | .emptyStatement => "empty_statement"
  | .block => "block"
  | .label => "label"
  | .lifetime => "lifetime"
  | .scopedTypeIdentifier => "scoped_type_identifier"
  | .genericType => "generic_type"
  | .typeArguments => "type_arguments"
  | .typeBinding => "type_binding"
  | .referenceType => "reference_type"
  | .pointerType => "pointer_type"
  | .tupleType => "tuple_type"
  | .unitType => "unit_type"
  | .arrayType => "array_type"
  | .functionType => "function_type"
  | .neverType => "never_type"
  | .abstractType => "abstract_type"
  | .dynamicType => "dynamic_type"
  | .boundedType => "bounded_type"
  | .qualifiedType => "qualified_type"
  | .bracketedType => "bracketed_type"
  | .unaryExpression => "unary_expression"
  | .referenceExpression => "reference_expression"
  | .tryExpression => "try_expression"
  | .binaryExpression => "binary_expression"
  | .assignmentExpression => "assignment_expression"
  | .compoundAssignmentExpr => "compound_assignment_expr"
  | .typeCastExpression => "type_cast_expression"
  | .rangeExpression => "range_expression"
  | .callExpression => "call_expression"
  | .arguments => "arguments"
  | .fieldExpression => "field_expression"
  | .indexExpression => "index_expression"
  | .awaitExpression => "await_expression"
  | .genericFunction => "generic_function"
  | .scopedIdentifier => "scoped_identifier"
  | .parenthesizedExpression => "parenthesized_expression"
  | .tupleExpression => "tuple_expression"
  | .unitExpression => "unit_expression"
  | .arrayExpression => "array_expression"
  | .structExpression => "struct_expression"
  | .fieldInitializerList => "field_initializer_list"
  | .fieldInitializer => "field_initializer"
  | .shorthandFieldInitializer => "shorthand_field_initializer"
  | .baseFieldInitializer => "base_field_initializer"
  | .ifExpression => "if_expression"
  | .elseClause => "else_clause"
  | .letCondition => "let_condition"
  | .letChain => "let_chain"
  | .matchExpression => "match_expression"
  | .matchBlock => "match_block"
  | .matchArm => "match_arm"
  | .matchPattern => "match_pattern"
  | .whileExpression => "while_expression"
  | .loopExpression => "loop_expression"
  | .forExpression => "for_expression"
  | .closureExpression => "closure_expression"
  | .closureParameters => "closure_parameters"
  | .returnExpression => "return_expression"
  | .breakExpression => "break_expression"
  | .continueExpression => "continue_expression"
  | .yieldExpression => "yield_expression"
  | .unsafeBlock => "unsafe_block"
  | .asyncBlock => "async_block"
  | .constBlock => "const_block"
  | .integerLiteral => "integer_literal"
  | .floatLiteral => "float_literal"
  | .stringLiteral => "string_literal"
  | .rawStringLiteral => "raw_string_literal"
  | .charLiteral => "char_literal"
  | .booleanLiteral => "boolean_literal"
  | .negativeLiteral => "negative_literal"
  | .tuplePattern => "tuple_pattern"
  | .tupleStructPattern => "tuple_struct_pattern"
  | .structPattern => "struct_pattern"
  | .fieldPattern => "field_pattern"
  | .remainingFieldPattern => "remaining_field_pattern"
  | .restPattern => "rest_pattern"
  | .slicePattern => "slice_pattern"
  | .refPattern => "ref_pattern"
  | .mutPattern => "mut_pattern"
  | .referencePattern => "reference_pattern"
  | .capturedPattern => "captured_pattern"
  | .orPattern => "or_pattern"
  | .rangePattern => "range_pattern"
  | _ => "unknown"

/-- The name a kind has in a tree: its fixed text if it has one, its grammar name if not. -/
def name (k : Kind) : String :=
  match k.wordText <|> k.markText with
  | some text => if k = .mutKw then "mutable_specifier" else text
  | none => k.grammarName

end ConcreteSyntax.Kind
