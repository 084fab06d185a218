import LayeredConfig.Document.Node

/-!
# Changing the section at a path

Every write into a document is a change of the entries of one section. Changes of the same section come
together, and so do those of a section and of one of its own.
-/

namespace LayeredConfig

/-- The node with its entries changed. A text has none. -/
def Node.updateEntries (change : Document → Document) : Node → Node
  | .text value => .text value
  | .branch entries => .branch (change entries)

/-- Changes the entries of the section that the keys of `path` lead to, if they lead to one. -/
def Document.updateAt (document : Document) (path : List String) (change : Document → Document) :
    Document :=
  match path with
  | [] => change document
  | name :: path =>
    Entries.modify document name (.updateEntries fun entries => Document.updateAt entries path change)

theorem Node.updateEntries_id : Node.updateEntries (fun entries => entries) = id := by
  funext node
  cases node with
  | text value => rfl
  | branch entries => rfl

theorem Node.updateEntries_comp (first second : Document → Document) :
    Node.updateEntries second ∘ Node.updateEntries first = Node.updateEntries (second ∘ first) := by
  funext node
  cases node with
  | text value => rfl
  | branch entries => rfl

namespace Document

variable (document : Document) (path : List String)

theorem insertAt_cons (name key : String) (node : Node) :
    document.insertAt (name :: path) key node =
      document.modify name (.updateEntries fun entries => insertAt entries path key node) := by
  rw [insertAt]
  rfl

theorem insertAt_eq_updateAt (key : String) (node : Node) :
    document.insertAt path key node = document.updateAt path (Entries.insert · key node) := by
  induction path generalizing document with
  | nil => rfl
  | cons name path ih => simp only [insertAt_cons, updateAt, ih]

theorem updateAt_id : (document.updateAt path fun entries => entries) = document := by
  induction path generalizing document with
  | nil => rfl
  | cons name path ih => simp only [updateAt, ih, Node.updateEntries_id, Entries.modify_id]

theorem updateAt_updateAt (first second : Document → Document) :
    (document.updateAt path first).updateAt path second =
      document.updateAt path fun entries => second (first entries) := by
  induction path generalizing document with
  | nil => rfl
  | cons name path ih =>
      rw [updateAt, updateAt, updateAt, Entries.modify_modify, Node.updateEntries_comp]
      simp only [Function.comp_def, ih]

theorem updateAt_concat (name : String) (change : Document → Document) :
    document.updateAt (path ++ [name]) change =
      document.updateAt path (Entries.modify · name (.updateEntries change)) := by
  induction path generalizing document with
  | nil => rfl
  | cons first path ih => simp only [List.cons_append, updateAt, ih]

end Document

end LayeredConfig
