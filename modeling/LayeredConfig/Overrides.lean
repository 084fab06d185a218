import LayeredConfig.Store.Basic
import LayeredConfig.Text.Lowercase
import LayeredConfig.Text.Split

/-!
# Overrides from variables

A variable whose name is a prefix, a separator and a path overrides the entry at that path. The separator
also divides the path, whose names are taken in lower case. A path has a section and a key at least, and no
empty name. The sections that it goes through are made where there are none.
-/

namespace LayeredConfig

structure Overrides where
  /-- What the names of overriding variables start with. -/
  namePrefix : String
  separator : String
  separator_ne : separator ≠ ""

namespace Overrides

/-- There are no overrides with an empty separator. -/
def ofNames? (namePrefix separator : String) : Option Overrides :=
  if h : separator ≠ "" then some ⟨namePrefix, separator, h⟩ else none

/-- The path that the variable of that name overrides, if it overrides any. -/
def path? (overrides : Overrides) (name : String) : Option (List String) := do
  let rest ← Text.dropMark (overrides.namePrefix ++ overrides.separator).toList name.toList
  let names := (Text.splitAt overrides.separator.toList rest).map Text.lowercase
  if 2 ≤ names.length ∧ [] ∉ names then some (names.map String.ofList) else none

end Overrides

namespace Store

/-- The section under `key`, which is made if there is none. A scalar under `key` is replaced. -/
def enter (store : Store) (id : SectionId) (key : String) : SectionId × Store :=
  match store.child? id key with
  | some child => (child, store)
  | none =>
    let (child, store) := store.alloc []
    (child, store.insert id key (.nested .plain child))

def setPath (store : Store) (id : SectionId) (path : List String) (text : String) : Store :=
  match path with
  | [] => store
  | [key] => store.insert id key (.text text)
  | key :: path =>
    let (child, store) := store.enter id key
    store.setPath child path text

theorem enter_of_some {store : Store} {id child : SectionId} {key : String}
    (h : store.child? id key = some child) : store.enter id key = (child, store) := by
  rw [enter, h]

theorem enter_of_none {store : Store} {id : SectionId} {key : String} (h : store.child? id key = none) :
    store.enter id key =
      (store.size, (store.alloc []).2.insert id key (.nested .plain store.size)) := by
  rw [enter, h]
  rfl

theorem setPath_cons_cons (store : Store) (id : SectionId) (key next : String) (path : List String)
    (text : String) :
    store.setPath id (key :: next :: path) text =
      (store.enter id key).2.setPath (store.enter id key).1 (next :: path) text := rfl

end Store

namespace Overrides

def applyOne (overrides : Overrides) (id : SectionId) (state : Nat × Store) (entry : String × String) :
    Nat × Store :=
  match overrides.path? entry.1 with
  | some path => (state.1 + 1, state.2.setPath id path entry.2)
  | none => state

/-- Applies variables to a section, in order, and counts those that override something. -/
def apply (overrides : Overrides) (store : Store) (id : SectionId) (vars : List (String × String)) :
    Nat × Store :=
  vars.foldl (overrides.applyOne id) (0, store)

end Overrides

end LayeredConfig
