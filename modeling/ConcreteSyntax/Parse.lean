import ConcreteSyntax.Grammar.Reading
import ConcreteSyntax.Tree

/-! # Reading a text

`Tree.parse` reads any text to a tree; what is wrong with the text is in the diagnostics of the
tree. `Tree.parseWithRemarks` also gives the choices of the grammar. -/

namespace ConcreteSyntax

namespace Setting

/-- A depth of nesting that no text of the setting exceeds. -/
def nesting (s : Setting) : Nat := 16 * s.source.utf8ByteSize + 64

/-- The session after a whole text was read. -/
def run? (s : Setting) : Option Session :=
  ((Grammar.upTo s.nesting).sourceFile s (.start s.source)).map (·.2)

end Setting

namespace Session

/-- The tree that a session has built. The root spans the whole text, and the diagnostics are
sorted. -/
def tree (s : Session) (setting : Setting) : Tree :=
  { root := s.draft.finishOver ⟨0, setting.source.utf8ByteSize⟩
    source := setting.source
    file := setting.file
    diagnostics := s.report.sortByPosition.toList }

end Session

namespace Tree

/-- The tree of a text, and the choices of the grammar. Without an outcome of the run, the text
stays unread. -/
def parseWithRemarks (file source : String) (options : Options) : Tree × List Remark :=
  let setting : Setting := { file, source, options }
  let session := setting.run?.getD (.start source)
  (session.tree setting, session.remarks.toList)

/-- The tree of a text. -/
def parse (file source : String) (options : Options) : Tree :=
  (parseWithRemarks file source options).1

end Tree

end ConcreteSyntax
