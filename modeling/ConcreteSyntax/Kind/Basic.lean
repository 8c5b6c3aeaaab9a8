/-! # Kinds of tokens and nodes

Every token and every node of a tree has one of these kinds. `Kind.index` is the place of a kind
in the list `Kind.all`; the groups of `Kind.Class` are intervals of it, so a new kind goes inside
its group. `Kind.tag` is the kind's own name, `Kind.ofTag?` finds a kind by it. -/

namespace ConcreteSyntax

/-- The kind of a token or of a node: tokens first, then nodes, each group together. -/
inductive Kind where
  -- anything else, the end of the text, and a construct that could not be read
  | unknown | endOfFile | errorSentinel
  -- delimiters and punctuation
  | openParen | closeParen | openBracket | closeBracket | openBrace | closeBrace | comma
  | semicolon | colon | colonColon | dot | dotDot | dotDotDot | dotDotEq | pound | dollar
  | question | atSign | arrow | fatArrow | quote | underscore | tilde
  -- operators
  | bang | eq | eqEq | bangEq | lt | ltEq | gt | gtEq | plus | minus | star | slash | percent
  | caret | amp | pipe | ampAmp | pipePipe | shl | shr
  -- compound assignments
  | plusEq | minusEq | starEq | slashEq | percentEq | caretEq | ampEq | pipeEq | shlEq | shrEq
  -- pieces of comments
  | lineCommentStart | blockCommentStart | blockCommentEnd | outerDocCommentMarker
  | innerDocCommentMarker | docComment
  -- reserved words
  | asKw | asyncKw | awaitKw | breakKw | constKw | continueKw | crateKw | dynKw | elseKw | enumKw
  | externKw | falseKw | fnKw | forKw | ifKw | implKw | inKw | letKw | loopKw | matchKw | modKw
  | moveKw | mutKw | pubKw | refKw | returnKw | selfKw | selfTypeKw | staticKw | structKw
  | superKw | traitKw | trueKw | typeKw | unsafeKw | useKw | whereKw | whileKw | yieldKw
  -- contextual words, which the scanner reads as identifiers
  | autoKw | defaultKw | macroRulesKw | rawKw | unionKw
  -- leaves with content
  | identifier | typeIdentifier | fieldIdentifier | shorthandFieldIdentifier | primitiveType
  | metavariable | fragmentSpecifier | shebang | integerToken | floatToken | literalSuffix
  -- whole literals, which stand in a tree only as their pieces
  | stringToken | rawStringToken | charToken
  -- pieces of literals
  | stringStart | stringEnd | stringContent | escapeSequence | rawStringStart | rawStringEnd
  | charStart | charEnd | charContent | radixPrefix | digits | decimalPoint | exponent
  -- the root, errors and comments
  | sourceFile | error | lineComment | blockComment
  -- items and declarations
  | attributeItem | innerAttributeItem | attributeBody | visibilityModifier | modItem
  | foreignModItem | externCrateDeclaration | useDeclaration | scopedUseList | useList
  | useAsClause | useWildcard | functionItem | functionSignatureItem | functionModifiers
  | externModifier | parameters | parameter | selfParameter | variadicParameter | structItem
  | unionItem | enumItem | enumVariantList | enumVariant | fieldDeclarationList | fieldDeclaration
  | orderedFieldDeclarationList | traitItem | implItem | declarationList | associatedType
  | typeItem | constItem | staticItem
  -- generics
  | typeParameters | typeParameter | lifetimeParameter | constParameter | whereClause
  | wherePredicate | traitBounds | higherRankedTraitBound | removedTraitBound | forLifetimes
  -- macros
  | macroDefinition | macroRule | macroInvocation | tokenTree | tokenRepetition | tokenTreePattern
  | tokenRepetitionPattern | tokenBindingPattern
  -- statements
  | letDeclaration | expressionStatement | emptyStatement | block | label | lifetime
  -- types
  | scopedTypeIdentifier | genericType | typeArguments | typeBinding | referenceType | pointerType
  | tupleType | unitType | arrayType | functionType | neverType | abstractType | dynamicType
  | boundedType | qualifiedType | bracketedType
  -- expressions
  | unaryExpression | referenceExpression | tryExpression | binaryExpression
  | assignmentExpression | compoundAssignmentExpr | typeCastExpression | rangeExpression
  | callExpression | arguments | fieldExpression | indexExpression | awaitExpression
  | genericFunction | scopedIdentifier | parenthesizedExpression | tupleExpression
  | unitExpression | arrayExpression | structExpression | fieldInitializerList | fieldInitializer
  | shorthandFieldInitializer | baseFieldInitializer | ifExpression | elseClause | letCondition
  | letChain | matchExpression | matchBlock | matchArm | matchPattern | whileExpression
  | loopExpression | forExpression | closureExpression | closureParameters | returnExpression
  | breakExpression | continueExpression | yieldExpression | unsafeBlock | asyncBlock | constBlock
  -- literals
  | integerLiteral | floatLiteral | stringLiteral | rawStringLiteral | charLiteral
  | booleanLiteral | negativeLiteral
  -- patterns
  | tuplePattern | tupleStructPattern | structPattern | fieldPattern | remainingFieldPattern
  | restPattern | slicePattern | refPattern | mutPattern | referencePattern | capturedPattern
  | orPattern | rangePattern
  deriving DecidableEq, Inhabited

namespace Kind

/-- Every kind, in order. -/
def all : List Kind := [
  .unknown, .endOfFile, .errorSentinel, .openParen, .closeParen, .openBracket, .closeBracket,
  .openBrace, .closeBrace, .comma, .semicolon, .colon, .colonColon, .dot, .dotDot, .dotDotDot,
  .dotDotEq, .pound, .dollar, .question, .atSign, .arrow, .fatArrow, .quote, .underscore, .tilde,
  .bang, .eq, .eqEq, .bangEq, .lt, .ltEq, .gt, .gtEq, .plus, .minus, .star, .slash, .percent,
  .caret, .amp, .pipe, .ampAmp, .pipePipe, .shl, .shr, .plusEq, .minusEq, .starEq, .slashEq,
  .percentEq, .caretEq, .ampEq, .pipeEq, .shlEq, .shrEq, .lineCommentStart, .blockCommentStart,
  .blockCommentEnd, .outerDocCommentMarker, .innerDocCommentMarker, .docComment, .asKw, .asyncKw,
  .awaitKw, .breakKw, .constKw, .continueKw, .crateKw, .dynKw, .elseKw, .enumKw, .externKw,
  .falseKw, .fnKw, .forKw, .ifKw, .implKw, .inKw, .letKw, .loopKw, .matchKw, .modKw, .moveKw,
  .mutKw, .pubKw, .refKw, .returnKw, .selfKw, .selfTypeKw, .staticKw, .structKw, .superKw,
  .traitKw, .trueKw, .typeKw, .unsafeKw, .useKw, .whereKw, .whileKw, .yieldKw, .autoKw,
  .defaultKw, .macroRulesKw, .rawKw, .unionKw, .identifier, .typeIdentifier, .fieldIdentifier,
  .shorthandFieldIdentifier, .primitiveType, .metavariable, .fragmentSpecifier, .shebang,
  .integerToken, .floatToken, .literalSuffix, .stringToken, .rawStringToken, .charToken,
  .stringStart, .stringEnd, .stringContent, .escapeSequence, .rawStringStart, .rawStringEnd,
  .charStart, .charEnd, .charContent, .radixPrefix, .digits, .decimalPoint, .exponent,
  .sourceFile, .error, .lineComment, .blockComment, .attributeItem, .innerAttributeItem,
  .attributeBody, .visibilityModifier, .modItem, .foreignModItem, .externCrateDeclaration,
  .useDeclaration, .scopedUseList, .useList, .useAsClause, .useWildcard, .functionItem,
  .functionSignatureItem, .functionModifiers, .externModifier, .parameters, .parameter,
  .selfParameter, .variadicParameter, .structItem, .unionItem, .enumItem, .enumVariantList,
  .enumVariant, .fieldDeclarationList, .fieldDeclaration, .orderedFieldDeclarationList,
  .traitItem, .implItem, .declarationList, .associatedType, .typeItem, .constItem, .staticItem,
  .typeParameters, .typeParameter, .lifetimeParameter, .constParameter, .whereClause,
  .wherePredicate, .traitBounds, .higherRankedTraitBound, .removedTraitBound, .forLifetimes,
  .macroDefinition, .macroRule, .macroInvocation, .tokenTree, .tokenRepetition, .tokenTreePattern,
  .tokenRepetitionPattern, .tokenBindingPattern, .letDeclaration, .expressionStatement,
  .emptyStatement, .block, .label, .lifetime, .scopedTypeIdentifier, .genericType, .typeArguments,
  .typeBinding, .referenceType, .pointerType, .tupleType, .unitType, .arrayType, .functionType,
  .neverType, .abstractType, .dynamicType, .boundedType, .qualifiedType, .bracketedType,
  .unaryExpression, .referenceExpression, .tryExpression, .binaryExpression,
  .assignmentExpression, .compoundAssignmentExpr, .typeCastExpression, .rangeExpression,
  .callExpression, .arguments, .fieldExpression, .indexExpression, .awaitExpression,
  .genericFunction, .scopedIdentifier, .parenthesizedExpression, .tupleExpression,
  .unitExpression, .arrayExpression, .structExpression, .fieldInitializerList, .fieldInitializer,
  .shorthandFieldInitializer, .baseFieldInitializer, .ifExpression, .elseClause, .letCondition,
  .letChain, .matchExpression, .matchBlock, .matchArm, .matchPattern, .whileExpression,
  .loopExpression, .forExpression, .closureExpression, .closureParameters, .returnExpression,
  .breakExpression, .continueExpression, .yieldExpression, .unsafeBlock, .asyncBlock, .constBlock,
  .integerLiteral, .floatLiteral, .stringLiteral, .rawStringLiteral, .charLiteral,
  .booleanLiteral, .negativeLiteral, .tuplePattern, .tupleStructPattern, .structPattern,
  .fieldPattern, .remainingFieldPattern, .restPattern, .slicePattern, .refPattern, .mutPattern,
  .referencePattern, .capturedPattern, .orPattern, .rangePattern ]

/-- The place of a kind among all kinds. -/
def index (k : Kind) : Nat := k.ctorIdx

/-- The kind's own name, as logs and listings spell it. -/
def tag : Kind → String
  | .unknown => "Unknown"
  | .endOfFile => "EndOfFile"
  | .errorSentinel => "ErrorSentinel"
  | .openParen => "OpenParen"
  | .closeParen => "CloseParen"
  | .openBracket => "OpenBracket"
  | .closeBracket => "CloseBracket"
  | .openBrace => "OpenBrace"
  | .closeBrace => "CloseBrace"
  | .comma => "Comma"
  | .semicolon => "Semicolon"
  | .colon => "Colon"
  | .colonColon => "ColonColon"
  | .dot => "Dot"
  | .dotDot => "DotDot"
  | .dotDotDot => "DotDotDot"
  | .dotDotEq => "DotDotEq"
  | .pound => "Pound"
  | .dollar => "Dollar"
  | .question => "Question"
  | .atSign => "At"
  | .arrow => "Arrow"
  | .fatArrow => "FatArrow"
  | .quote => "Quote"
  | .underscore => "Underscore"
  | .tilde => "Tilde"
  | .bang => "Bang"
  | .eq => "Eq"
  | .eqEq => "EqEq"
  | .bangEq => "BangEq"
  | .lt => "Lt"
  | .ltEq => "LtEq"
  | .gt => "Gt"
  | .gtEq => "GtEq"
  | .plus => "Plus"
  | .minus => "Minus"
  | .star => "Star"
  | .slash => "Slash"
  | .percent => "Percent"
  | .caret => "Caret"
  | .amp => "Amp"
  | .pipe => "Pipe"
  | .ampAmp => "AmpAmp"
  | .pipePipe => "PipePipe"
  | .shl => "Shl"
  | .shr => "Shr"
  | .plusEq => "PlusEq"
  | .minusEq => "MinusEq"
  | .starEq => "StarEq"
  | .slashEq => "SlashEq"
  | .percentEq => "PercentEq"
  | .caretEq => "CaretEq"
  | .ampEq => "AmpEq"
  | .pipeEq => "PipeEq"
  | .shlEq => "ShlEq"
  | .shrEq => "ShrEq"
  | .lineCommentStart => "LineCommentStart"
  | .blockCommentStart => "BlockCommentStart"
  | .blockCommentEnd => "BlockCommentEnd"
  | .outerDocCommentMarker => "OuterDocCommentMarker"
  | .innerDocCommentMarker => "InnerDocCommentMarker"
  | .docComment => "DocComment"
  | .asKw => "AsKw"
  | .asyncKw => "AsyncKw"
  | .awaitKw => "AwaitKw"
  | .breakKw => "BreakKw"
  | .constKw => "ConstKw"
  | .continueKw => "ContinueKw"
  | .crateKw => "CrateKw"
  | .dynKw => "DynKw"
  | .elseKw => "ElseKw"
  | .enumKw => "EnumKw"
  | .externKw => "ExternKw"
  | .falseKw => "FalseKw"
  | .fnKw => "FnKw"
  | .forKw => "ForKw"
  | .ifKw => "IfKw"
  | .implKw => "ImplKw"
  | .inKw => "InKw"
  | .letKw => "LetKw"
  | .loopKw => "LoopKw"
  | .matchKw => "MatchKw"
  | .modKw => "ModKw"
  | .moveKw => "MoveKw"
  | .mutKw => "MutKw"
  | .pubKw => "PubKw"
  | .refKw => "RefKw"
  | .returnKw => "ReturnKw"
  | .selfKw => "SelfKw"
  | .selfTypeKw => "SelfTypeKw"
  | .staticKw => "StaticKw"
  | .structKw => "StructKw"
  | .superKw => "SuperKw"
  | .traitKw => "TraitKw"
  | .trueKw => "TrueKw"
  | .typeKw => "TypeKw"
  | .unsafeKw => "UnsafeKw"
  | .useKw => "UseKw"
  | .whereKw => "WhereKw"
  | .whileKw => "WhileKw"
  | .yieldKw => "YieldKw"
  | .autoKw => "AutoKw"
  | .defaultKw => "DefaultKw"
  | .macroRulesKw => "MacroRulesKw"
  | .rawKw => "RawKw"
  | .unionKw => "UnionKw"
  | .identifier => "Identifier"
  | .typeIdentifier => "TypeIdentifier"
  | .fieldIdentifier => "FieldIdentifier"
  | .shorthandFieldIdentifier => "ShorthandFieldIdentifier"
  | .primitiveType => "PrimitiveType"
  | .metavariable => "Metavariable"
  | .fragmentSpecifier => "FragmentSpecifier"
  | .shebang => "Shebang"
  | .integerToken => "IntegerToken"
  | .floatToken => "FloatToken"
  | .literalSuffix => "LiteralSuffix"
  | .stringToken => "StringToken"
  | .rawStringToken => "RawStringToken"
  | .charToken => "CharToken"
  | .stringStart => "StringStart"
  | .stringEnd => "StringEnd"
  | .stringContent => "StringContent"
  | .escapeSequence => "EscapeSequence"
  | .rawStringStart => "RawStringStart"
  | .rawStringEnd => "RawStringEnd"
  | .charStart => "CharStart"
  | .charEnd => "CharEnd"
  | .charContent => "CharContent"
  | .radixPrefix => "RadixPrefix"
  | .digits => "Digits"
  | .decimalPoint => "DecimalPoint"
  | .exponent => "Exponent"
  | .sourceFile => "SourceFile"
  | .error => "Error"
  | .lineComment => "LineComment"
  | .blockComment => "BlockComment"
  | .attributeItem => "AttributeItem"
  | .innerAttributeItem => "InnerAttributeItem"
  | .attributeBody => "Attribute"
  | .visibilityModifier => "VisibilityModifier"
  | .modItem => "ModItem"
  | .foreignModItem => "ForeignModItem"
  | .externCrateDeclaration => "ExternCrateDeclaration"
  | .useDeclaration => "UseDeclaration"
  | .scopedUseList => "ScopedUseList"
  | .useList => "UseList"
  | .useAsClause => "UseAsClause"
  | .useWildcard => "UseWildcard"
  | .functionItem => "FunctionItem"
  | .functionSignatureItem => "FunctionSignatureItem"
  | .functionModifiers => "FunctionModifiers"
  | .externModifier => "ExternModifier"
  | .parameters => "Parameters"
  | .parameter => "Parameter"
  | .selfParameter => "SelfParameter"
  | .variadicParameter => "VariadicParameter"
  | .structItem => "StructItem"
  | .unionItem => "UnionItem"
  | .enumItem => "EnumItem"
  | .enumVariantList => "EnumVariantList"
  | .enumVariant => "EnumVariant"
  | .fieldDeclarationList => "FieldDeclarationList"
  | .fieldDeclaration => "FieldDeclaration"
  | .orderedFieldDeclarationList => "OrderedFieldDeclarationList"
  | .traitItem => "TraitItem"
  | .implItem => "ImplItem"
  | .declarationList => "DeclarationList"
  | .associatedType => "AssociatedType"
  | .typeItem => "TypeItem"
  | .constItem => "ConstItem"
  | .staticItem => "StaticItem"
  | .typeParameters => "TypeParameters"
  | .typeParameter => "TypeParameter"
  | .lifetimeParameter => "LifetimeParameter"
  | .constParameter => "ConstParameter"
  | .whereClause => "WhereClause"
  | .wherePredicate => "WherePredicate"
  | .traitBounds => "TraitBounds"
  | .higherRankedTraitBound => "HigherRankedTraitBound"
  | .removedTraitBound => "RemovedTraitBound"
  | .forLifetimes => "ForLifetimes"
  | .macroDefinition => "MacroDefinition"
  | .macroRule => "MacroRule"
  | .macroInvocation => "MacroInvocation"
  | .tokenTree => "TokenTree"
  | .tokenRepetition => "TokenRepetition"
  | .tokenTreePattern => "TokenTreePattern"
  | .tokenRepetitionPattern => "TokenRepetitionPattern"
  | .tokenBindingPattern => "TokenBindingPattern"
  | .letDeclaration => "LetDeclaration"
  | .expressionStatement => "ExpressionStatement"
  | .emptyStatement => "EmptyStatement"
  | .block => "Block"
  | .label => "Label"
  | .lifetime => "Lifetime"
  | .scopedTypeIdentifier => "ScopedTypeIdentifier"
  | .genericType => "GenericType"
  | .typeArguments => "TypeArguments"
  | .typeBinding => "TypeBinding"
  | .referenceType => "ReferenceType"
  | .pointerType => "PointerType"
  | .tupleType => "TupleType"
  | .unitType => "UnitType"
  | .arrayType => "ArrayType"
  | .functionType => "FunctionType"
  | .neverType => "NeverType"
  | .abstractType => "AbstractType"
  | .dynamicType => "DynamicType"
  | .boundedType => "BoundedType"
  | .qualifiedType => "QualifiedType"
  | .bracketedType => "BracketedType"
  | .unaryExpression => "UnaryExpression"
  | .referenceExpression => "ReferenceExpression"
  | .tryExpression => "TryExpression"
  | .binaryExpression => "BinaryExpression"
  | .assignmentExpression => "AssignmentExpression"
  | .compoundAssignmentExpr => "CompoundAssignmentExpr"
  | .typeCastExpression => "TypeCastExpression"
  | .rangeExpression => "RangeExpression"
  | .callExpression => "CallExpression"
  | .arguments => "Arguments"
  | .fieldExpression => "FieldExpression"
  | .indexExpression => "IndexExpression"
  | .awaitExpression => "AwaitExpression"
  | .genericFunction => "GenericFunction"
  | .scopedIdentifier => "ScopedIdentifier"
  | .parenthesizedExpression => "ParenthesizedExpression"
  | .tupleExpression => "TupleExpression"
  | .unitExpression => "UnitExpression"
  | .arrayExpression => "ArrayExpression"
  | .structExpression => "StructExpression"
  | .fieldInitializerList => "FieldInitializerList"
  | .fieldInitializer => "FieldInitializer"
  | .shorthandFieldInitializer => "ShorthandFieldInitializer"
  | .baseFieldInitializer => "BaseFieldInitializer"
  | .ifExpression => "IfExpression"
  | .elseClause => "ElseClause"
  | .letCondition => "LetCondition"
  | .letChain => "LetChain"
  | .matchExpression => "MatchExpression"
  | .matchBlock => "MatchBlock"
  | .matchArm => "MatchArm"
  | .matchPattern => "MatchPattern"
  | .whileExpression => "WhileExpression"
  | .loopExpression => "LoopExpression"
  | .forExpression => "ForExpression"
  | .closureExpression => "ClosureExpression"
  | .closureParameters => "ClosureParameters"
  | .returnExpression => "ReturnExpression"
  | .breakExpression => "BreakExpression"
  | .continueExpression => "ContinueExpression"
  | .yieldExpression => "YieldExpression"
  | .unsafeBlock => "UnsafeBlock"
  | .asyncBlock => "AsyncBlock"
  | .constBlock => "ConstBlock"
  | .integerLiteral => "IntegerLiteral"
  | .floatLiteral => "FloatLiteral"
  | .stringLiteral => "StringLiteral"
  | .rawStringLiteral => "RawStringLiteral"
  | .charLiteral => "CharLiteral"
  | .booleanLiteral => "BooleanLiteral"
  | .negativeLiteral => "NegativeLiteral"
  | .tuplePattern => "TuplePattern"
  | .tupleStructPattern => "TupleStructPattern"
  | .structPattern => "StructPattern"
  | .fieldPattern => "FieldPattern"
  | .remainingFieldPattern => "RemainingFieldPattern"
  | .restPattern => "RestPattern"
  | .slicePattern => "SlicePattern"
  | .refPattern => "RefPattern"
  | .mutPattern => "MutPattern"
  | .referencePattern => "ReferencePattern"
  | .capturedPattern => "CapturedPattern"
  | .orPattern => "OrPattern"
  | .rangePattern => "RangePattern"

/-- The kind of a given name. -/
def ofTag? (name : String) : Option Kind := all.find? (·.tag == name)

end Kind

end ConcreteSyntax
