import ConcreteSyntax.Files
import ConcreteSyntax.Parse

/-! # Sources and batches

A source is a text with the name of its file. Sources are read independently of one another, so a
batch is a map (`Source.parseAll`), and a file that cannot be loaded only fails in its own place
(`Files.parseAll`). A `Summary` is what remains of a tree without its nodes. -/

namespace ConcreteSyntax

/-! ### Sources -/

/-- A text and the name of its file. -/
structure Source where
  file : String
  text : String
  deriving DecidableEq

/-- Why a path gives no source. -/
inductive LoadError where
  | unreadable (path : String) (cause : AccessError)
  | notText (path : String)
  deriving DecidableEq

/-- The message of a failure. -/
def LoadError.message : LoadError → String
  | .unreadable path cause => s!"Failed to read '{path}': {cause.text}"
  | .notText path => s!"'{path}' is not valid UTF-8"

namespace Source

/-- The source at a path. -/
def load (files : Files) (path : String) : Except LoadError Source :=
  match files.readText path with
  | .ok text => .ok ⟨path, text⟩
  | .error .notText => .error (.notText path)
  | .error cause => .error (.unreadable path cause)

/-- The tree of a source. -/
def parse (options : Options) (source : Source) : Tree := .parse source.file source.text options

/-- What `digest` makes of the tree of each source, in order. -/
def parseAll {α : Type} (sources : List Source) (options : Options) (digest : Tree → α) : List α :=
  sources.map fun source => digest (source.parse options)

end Source

namespace Files

/-- The tree of the source at a path. -/
def parse (files : Files) (options : Options) (path : String) : Except LoadError Tree :=
  (Source.load files path).map (·.parse options)

/-- What `digest` makes of the tree at each path, or the failure in its place, in order. -/
def parseAll {α : Type} (files : Files) (paths : List String) (options : Options)
    (digest : Tree → α) : List (Except LoadError α) :=
  paths.map fun path => (files.parse options path).map digest

end Files

/-! ### Summaries -/

/-- The outcome of a reading without the tree. -/
structure Summary where
  file : String
  nodeCount : Nat
  hadErrors : Bool
  diagnostics : List String
  deriving DecidableEq

/-- The summary of a tree. -/
def Summary.ofTree (tree : Tree) : Summary :=
  ⟨tree.file, tree.root.count, tree.hadErrors, tree.renderDiagnostics⟩

end ConcreteSyntax
