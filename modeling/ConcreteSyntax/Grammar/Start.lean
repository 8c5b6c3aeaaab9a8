import ConcreteSyntax.Grammar.Session

/-! # First tokens

The tokens with which a construct may begin. A construct is tried only where one of them stands, and
recovery skips up to one of them. Where one token does not decide, a few more are looked at; nothing
is read for it. -/

namespace ConcreteSyntax

/-! ### One token -/

namespace Kind

/-- What may stand between the `::` of a path. -/
def startsSegment : Kind → Bool
  | .identifier | .selfKw | .selfTypeKw | .superKw | .crateKw | .metavariable => true
  | _ => false

/-- What may begin a path. -/
def startsPath (k : Kind) : Bool := k.startsSegment || k == .colonColon

/-- A `<`, alone or doubled. -/
def startsAngle (k : Kind) : Bool := k == .lt || k == .shl

/-- A literal that is one token. -/
def startsLiteral : Kind → Bool
  | .integerToken | .floatToken | .stringToken | .rawStringToken | .charToken => true
  | .trueKw | .falseKw => true
  | _ => false

/-- What may begin a type. -/
def startsType (k : Kind) : Bool :=
  k.startsPath || match k with
  | .lt | .openParen | .openBracket | .amp | .ampAmp | .star | .bang | .underscore => true
  | .implKw | .dynKw | .fnKw | .unsafeKw | .externKw | .forKw => true
  | _ => false

/-- What may begin the bound of a type parameter. -/
def startsBound (k : Kind) : Bool :=
  k.startsPath || match k with
  | .quote | .question | .forKw | .openParen | .lt => true
  | _ => false

/-- What may begin an argument between `<` and `>`. -/
def startsTypeArgument (k : Kind) : Bool :=
  k.startsType || k.startsLiteral || match k with
  | .quote | .openBrace | .minus => true
  | _ => false

/-- What may begin a pattern. -/
def startsPattern (k : Kind) : Bool :=
  k.startsPath || k.startsLiteral || match k with
  | .lt | .underscore | .dotDot | .dotDotEq | .openParen | .openBracket | .amp | .ampAmp | .refKw
  | .mutKw | .minus | .pipe => true
  | _ => false

/-- What may begin an expression, depending on its place. -/
def startsExpression (restriction : Restriction) (k : Kind) : Bool :=
  k.startsPath || k.startsLiteral || match k with
  | .errorSentinel | .lt | .shl | .openParen | .openBracket | .minus | .bang | .star | .amp => true
  | .ampAmp | .pipe | .pipePipe | .dotDot | .dotDotEq | .quote => true
  | .moveKw | .asyncKw | .unsafeKw | .constKw | .ifKw | .matchKw | .whileKw | .loopKw => true
  | .forKw | .returnKw | .breakKw | .continueKw | .yieldKw => true
  | .openBrace => !restriction.noStructLiteral
  | .letKw => restriction.allowLet
  | _ => false

/-- What may begin a parameter of a function. -/
def startsParameter (k : Kind) : Bool :=
  k.startsPattern || k.startsType || k == .pound || k == .dotDotDot

/-- What may end a range in a pattern: a literal, a negative literal or a path. -/
def startsRangeBound : Kind → Bool
  | .minus | .integerToken | .floatToken | .charToken | .stringToken | .rawStringToken | .identifier
  | .selfTypeKw | .selfKw | .superKw | .crateKw | .colonColon => true
  | _ => false

/-- What may follow the modifiers of a function. -/
def continuesFunction : Kind → Bool
  | .fnKw | .unsafeKw | .asyncKw | .externKw => true
  | _ => false

end Kind

/-! ### Several tokens -/

namespace Session

/-- Whether another segment follows the current `::`. -/
def nextIsSegment (s : Session) : Bool := (s.ahead 1).startsSegment

/-- Whether `<` follows the current token. -/
def nextIsAngle (s : Session) : Bool := (s.ahead 1).startsAngle

/-- Whether a `!` and a group follow: the rest of a call of a macro. -/
def isAtCall (s : Session) : Bool := s.isAt .bang && (s.ahead 1).isOpen

/-- Whether `async` opens a closure here. -/
def isAtAsyncClosure (s : Session) : Bool :=
  let isBar (k : Kind) : Bool := k == .pipe || k == .pipePipe
  match s.ahead 1 with
  | .pipe | .pipePipe => true
  | .moveKw => isBar (s.ahead 2)
  | _ => false

/-- Whether an expression begins here that may end a statement without a semicolon. -/
def isAtBlockLike (s : Session) : Bool :=
  match s.kind with
  | .openBrace | .ifKw | .matchKw | .whileKw | .loopKw | .forKw => true
  | .quote => s.ahead 2 == .colon
  | .unsafeKw | .constKw => s.ahead 1 == .openBrace
  | .asyncKw =>
    match s.ahead 1 with
    | .openBrace => true
    | .moveKw => s.ahead 2 == .openBrace
    | _ => false
  | _ => false

/-- Whether the receiver `self` is declared here, in one of its forms. -/
def isAtReceiver (s : Session) : Bool :=
  match s.kind with
  | .selfKw => s.ahead 1 != .colon && s.ahead 1 != .colonColon
  | .mutKw => s.ahead 1 == .selfKw && s.ahead 2 != .colon
  | .amp =>
    match s.ahead 1 with
    | .selfKw => true
    | .mutKw => s.ahead 2 == .selfKw
    | .quote =>
      match s.ahead 3 with
      | .selfKw => true
      | .mutKw => s.ahead 4 == .selfKw
      | _ => false
    | _ => false
  | _ => false

/-- Whether `extern` just before the token at `n` opens a block of foreign items. -/
def foreignAhead (s : Session) (n : Nat) : Bool :=
  match s.ahead n with
  | .openBrace => true
  | .stringToken | .rawStringToken => s.ahead (n + 1) == .openBrace
  | _ => false

end Session

/-- Whether a path and the call of a macro begin at a scanner, within so many segments. -/
def Scanner.isAtMacro : Nat → Scanner → Bool
  | 0, _ => false
  | segments + 1, s =>
    let next (s : Scanner) : Scanner := s.scan Lexeme.contextual? .usual
    let s := if s.kind == .colonColon then next s else s
    if s.kind.startsSegment then
      let s := next s
      match s.kind with
      | .bang => (next s).kind.isOpen
      | .colonColon => s.isAtMacro segments
      | _ => false
    else false

namespace Parse

/-- Whether a path and the call of a macro begin here. -/
def isAtMacro : Parse Bool := do
  let s ← get
  return s.kind.startsPath && s.scanner.isAtMacro (← read).turns

/-- Whether an expression may begin here. -/
def isAtExpression : Parse Bool := do
  return (← kind).startsExpression (← restriction)

/-- Whether an item begins here. -/
def isAtItem : Parse Bool := do
  let s ← get
  match s.kind with
  | .pound | .pubKw | .fnKw | .structKw | .enumKw | .traitKw | .implKw | .typeKw | .modKw | .useKw
  | .externKw => return true
  | .constKw | .unsafeKw => return s.ahead 1 != .openBrace
  | .staticKw =>
    return match s.ahead 1 with
    | .pipe | .pipePipe | .moveKw => false
    | _ => true
  | .asyncKw =>
    return match s.ahead 1 with
    | .fnKw | .unsafeKw | .externKw => true
    | _ => false
  | .identifier =>
    return match ← tokenText with
    | "union" => s.ahead 1 == .identifier
    | "auto" => s.ahead 1 == .traitKw
    | "default" =>
      match s.ahead 1 with
      | .fnKw | .implKw | .typeKw | .constKw | .unsafeKw | .asyncKw | .externKw => true
      | _ => false
    | "macro_rules" => s.ahead 1 == .bang
    | _ => false
  | _ => return false

end Parse

end ConcreteSyntax
