import LayeredConfig.Document.Node
import LayeredConfig.Document.Line
import LayeredConfig.Text.Lines

/-!
# Reading a configuration text

A top-level header opens a section, and the marked lines that follow it at once are its body. A marked
header opens a section inside the one that it belongs to, and takes the lines that are indented further
than its own marker. Any other line closes all sections. Lines that fit nowhere are skipped.
-/

namespace LayeredConfig

/-- A section whose body is being read: lines from `column` on belong to it. -/
structure OpenSection where
  key : String
  column : Nat
  deriving DecidableEq, Repr

/-- The document read so far and the sections that are open, outermost first. -/
structure Draft where
  document : Document
  opened : List OpenSection

namespace Draft

def empty : Draft := ⟨[], []⟩

/-- The keys that lead to the innermost open section. -/
def path (draft : Draft) : List String := draft.opened.map OpenSection.key

/-- Leaves open the sections that a marked line at `column` belongs to. -/
def closeTo (draft : Draft) (column : Nat) : Draft :=
  { draft with opened := draft.opened.takeWhile (·.column ≤ column) }

/-- Writes what a marked line at `column` holds into the innermost open section. -/
def add (draft : Draft) (column : Nat) : Item → Draft
  | .header key =>
    { document := draft.document.insertAt draft.path key (.branch [])
      opened := draft.opened ++ [⟨key, column + 1⟩] }
  | .leaf key value =>
    { draft with document := draft.document.insertAt draft.path key (.text value) }
  | .malformed => draft

def step (draft : Draft) : Line → Draft
  | .marked column item =>
    if draft.opened = [] then draft else (draft.closeTo column).add column item
  | .header key =>
    { document := draft.document.insertAt [] key (.branch [])
      opened := [⟨key, 0⟩] }
  | .blank | .stray => { draft with opened := [] }

end Draft

def Document.ofLines (lines : List Line) : Document := (lines.foldl Draft.step .empty).document

/-- Reads a configuration text. Every text is one. -/
def Document.ofText (text : String) : Document :=
  ofLines ((Text.lines text.toList).map Line.ofText)

end LayeredConfig
