import LayeredConfig.Entries

/-!
# Documents

A document is what a configuration text holds: top-level sections with texts and further sections in
them, in the order of the text.
-/

namespace LayeredConfig

/-- A text, or a section with its entries. -/
inductive Node where
  | text (value : String)
  | branch (entries : List (String × Node))

/-- The entries of a configuration text. -/
abbrev Document := Entries Node

/-- Writes `node` under `key` in the section that the keys of `path` lead to. Where they lead to no
section, nothing is written. -/
def Document.insertAt (document : Document) (path : List String) (key : String) (node : Node) :
    Document :=
  match path with
  | [] => Entries.insert document key node
  | name :: path =>
    Entries.modify document name fun
      | .text value => .text value
      | .branch entries => .branch (Document.insertAt entries path key node)

end LayeredConfig
