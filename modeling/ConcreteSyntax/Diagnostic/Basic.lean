import ConcreteSyntax.Diagnostic.Message
import ConcreteSyntax.Text.Lines

/-! # Diagnostics

A diagnostic is a filled message that may know its file and its range. `Diagnostic.summary` needs no
text and gives a byte offset; `Diagnostic.render` gives a line and a column. -/

namespace ConcreteSyntax

/-- A problem found in a text. -/
structure Diagnostic where
  file : Option String
  range : Option Range
  message : String
  code : Nat
  severity : Severity
  deriving DecidableEq, Inhabited

namespace Diagnostic

/-- A message with its arguments, at a place that may be known in part. -/
def ofMessage (file : Option String) (range : Option Range) (m : Message)
    (arguments : List String) : Diagnostic :=
  ⟨file, range, m.fill arguments, m.code, m.severity⟩

/-- A message at a range of a file. -/
def located (file : String) (range : Range) (m : Message) (arguments : List String) : Diagnostic :=
  ofMessage (some file) (some range) m arguments

/-- Whether the problem is an error. -/
def isError (d : Diagnostic) : Bool := d.severity == .error

/-- A number with at least four digits. -/
def fourDigits (n : Nat) : String :=
  let digits := toString n
  String.ofList (List.replicate (4 - digits.length) '0') ++ digits

/-- The severity, the number and the text. -/
def body (d : Diagnostic) : String :=
  s!"{d.severity.word}[E{fourDigits d.code}]: {d.message}"

/-- The diagnostic in one line, its place as a byte offset. -/
def summary (d : Diagnostic) : String :=
  match d.file, d.range with
  | some file, some range => s!"{file}@{range.start}: {d.body}"
  | some file, none => s!"{file}: {d.body}"
  | none, _ => d.body

/-- The diagnostic in one line, its place as a line and a column. -/
def render (d : Diagnostic) (lines : Lines) : String :=
  match d.range with
  | none => d.summary
  | some range =>
    let file := d.file.getD "<input>"
    let place := (lines.lineColumn range.start).render
    s!"{file}:{place}: {d.body}"

/-- Where a diagnostic stands among others: its first byte, the start of the text if unknown. -/
def sortKey (d : Diagnostic) : Nat :=
  match d.range with
  | none => 0
  | some range => range.start

end Diagnostic

/-- The diagnostics of one reading, in the order of their report. -/
structure Report where
  items : Array Diagnostic := #[]

namespace Report

/-- A report without diagnostics. -/
def empty : Report := {}

/-- One diagnostic more. -/
def add (r : Report) (d : Diagnostic) : Report := ⟨r.items.push d⟩

/-- The number of diagnostics. -/
def size (r : Report) : Nat := r.items.size

/-- Whether nothing was reported. -/
def isEmpty (r : Report) : Bool := r.items.isEmpty

/-- Only the first `count` diagnostics. -/
def truncate (r : Report) (count : Nat) : Report := ⟨r.items.take count⟩

/-- Whether an error was reported. -/
def hasErrors (r : Report) : Bool := r.items.any Diagnostic.isError

/-- The diagnostics in order. -/
def toList (r : Report) : List Diagnostic := r.items.toList

/-- The diagnostics by their first byte; those at one byte keep their order. -/
def sortByPosition (r : Report) : Report :=
  ⟨(r.items.toList.mergeSort fun d e => d.sortKey ≤ e.sortKey).toArray⟩

end Report

end ConcreteSyntax
