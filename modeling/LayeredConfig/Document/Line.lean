import LayeredConfig.Text.Blank
import LayeredConfig.Text.Split

/-!
# Lines of a configuration text

A line is read by itself, without its neighbours: it is blank, or starts with the marker `-` after an
indentation, or is plain. A colon at the end of a marked or a plain line makes it the header of a section.
-/

namespace LayeredConfig

/-- What a marked line puts into the section that it belongs to. -/
inductive Item where
  /-- A section under a key; the lines indented further are its own. -/
  | header (key : String)
  | leaf (key value : String)
  /-- Nothing, for want of a colon. -/
  | malformed
  deriving DecidableEq, Repr

inductive Line where
  | blank
  /-- A marked line, whose marker comes after `column` blanks. -/
  | marked (column : Nat) (item : Item)
  | header (key : String)
  /-- Any other line. It belongs to nothing. -/
  | stray
  deriving DecidableEq, Repr

open Text

def headerText? (trimmed : List Char) : Option (List Char) :=
  if trimmed.getLast? = some ':' then some trimmed.dropLast else none

/-- The key of a section header without its final colon: what stands between the marker and the next
colon. -/
def sectionKey (head : List Char) : String :=
  let named := ((cutAtChar '-' head).map Prod.snd).getD head
  let key := ((cutAtChar ':' named).map Prod.fst).getD named
  String.ofList (trim key)

/-- Key and value of a marked line, which the first colon divides. Tabs anywhere in the line are
dropped. -/
def leaf? (trimmed : List Char) : Option (String × String) := do
  let (_, named) ← cutAtChar '-' (trimmed.filter (· ≠ '\t'))
  let (key, value) ← cutAtChar ':' named
  return (String.ofList (trim key), String.ofList (trim value))

/-- Reads a marked line, given without the blanks at its ends. -/
def Item.ofText (trimmed : List Char) : Item :=
  match headerText? trimmed with
  | some head => .header (sectionKey head)
  | none =>
    match leaf? trimmed with
    | some (key, value) => .leaf key value
    | none => .malformed

def Line.ofText (line : List Char) : Line :=
  match trimStart line with
  | [] => .blank
  | '-' :: _ => .marked (line.takeWhile isBlank).length (.ofText (trim line))
  | _ =>
    match headerText? (trim line) with
    | some head => .header (String.ofList (trim head))
    | none => .stray

end LayeredConfig
