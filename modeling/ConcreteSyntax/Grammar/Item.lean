import ConcreteSyntax.Grammar.Item.Function
import ConcreteSyntax.Grammar.Item.MacroRules
import ConcreteSyntax.Grammar.Item.Module
import ConcreteSyntax.Grammar.Item.Structure

/-! # Items

An item is a draft that a visibility may open and that one of the productions of items fills. The
first tokens say which; the contextual words `union`, `auto`, `default` and `macro_rules` only count
before certain tokens. -/

namespace ConcreteSyntax.Grammar

open Parse

/-- A visibility without an item. -/
def notAnItem : Parse Unit := do
  reportExpected "item"
  failDraft

/-- An item that begins with `const`. -/
def itemAtConst (g : Grammar) (s : Session) : Parse Unit :=
  if (s.ahead 1).continuesFunction then g.functionItem else g.constItem

/-- An item that begins with `unsafe`. -/
def itemAtUnsafe (g : Grammar) (s : Session) : Parse Unit := do
  match s.ahead 1 with
  | .implKw => g.implItem
  | .traitKw => g.traitItem
  | .identifier => if (← textAhead 1) == "auto" then g.traitItem else g.functionItem
  | .externKw => if s.foreignAhead 2 then g.foreignModItem else g.functionItem
  | _ => g.functionItem

/-- An item that begins with `extern`. -/
def itemAtExtern (g : Grammar) (s : Session) : Parse Unit :=
  if s.ahead 1 == .crateKw then externCrateDeclaration
  else if s.foreignAhead 1 then g.foreignModItem
  else g.functionItem

/-- An item that begins with `default`. -/
def itemAtDefault (g : Grammar) (s : Session) : Parse Unit :=
  match s.ahead 1 with
  | .implKw => g.implItem
  | .typeKw => g.typeItem
  | .constKw => if (s.ahead 2).continuesFunction then g.functionItem else g.constItem
  | _ => g.functionItem

/-- An item that begins with a contextual word. -/
def itemAtWord (g : Grammar) (s : Session) : Parse Unit := do
  match ← tokenText with
  | "union" => if s.ahead 1 == .identifier then g.unionItem else notAnItem
  | "auto" => if s.ahead 1 == .traitKw then g.traitItem else notAnItem
  | "macro_rules" => if s.ahead 1 == .bang then g.macroDefinition else notAnItem
  | "default" => g.itemAtDefault s
  | _ => notAnItem

/-- An item after its visibility, by its first tokens. -/
def itemForm (g : Grammar) : Parse Unit := do
  let s ← get
  match s.kind with
  | .fnKw | .asyncKw => g.functionItem
  | .constKw => g.itemAtConst s
  | .unsafeKw => g.itemAtUnsafe s
  | .externKw => g.itemAtExtern s
  | .staticKw => g.staticItem
  | .structKw => g.structItem
  | .enumKw => g.enumItem
  | .traitKw => g.traitItem
  | .implKw => g.implItem
  | .typeKw => g.typeItem
  | .modKw => g.modItem
  | .useKw => g.useDeclaration
  | .identifier => g.itemAtWord s
  | _ => notAnItem

/-- Reads an item or an attribute into the open draft, and says whether one stood here. -/
def item (g : Grammar) : Parse Bool := do
  flush
  if ← isAt .pound then
    child g.attributeItem
    return true
  else if ← isAtItem then
    child <| node .error do
      visibilityIf
      g.itemForm
    return true
  else return false

end ConcreteSyntax.Grammar
