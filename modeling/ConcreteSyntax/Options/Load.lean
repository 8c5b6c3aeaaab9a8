import ConcreteSyntax.Files
import ConcreteSyntax.Options.Document

/-! # Options from a file -/

namespace ConcreteSyntax

/-- Why a file gives no options. -/
inductive OptionsError where
  | unreadable (path : String) (cause : AccessError)
  | invalid (flaw : Json.Flaw)

namespace Options

/-- The options in a file. -/
def load (files : Files) (path : String) : Except OptionsError Options :=
  match files.readText path with
  | .error cause => .error (.unreadable path cause)
  | .ok text => match ofJson? text with
    | .ok options => .ok options
    | .error flaw => .error (.invalid flaw)

end Options

/-- The message of a failure, unless the document itself is at fault. -/
def OptionsError.message? : OptionsError → Option String
  | .unreadable path cause => some s!"Failed to read options file '{path}': {cause.text}"
  | .invalid _ => none

end ConcreteSyntax
