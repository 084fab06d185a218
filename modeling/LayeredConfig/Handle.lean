import LayeredConfig.Conversion
import LayeredConfig.Reference.Resolution
import LayeredConfig.Store.Equality

/-!
# Handles

A handle reads and writes one section of a store, and knows the root that its references start from.
Every access goes to a key of that section, or of a section directly in it. A read as a certain kind converts
the value that it finds and keeps the converted value, so that the next read as that kind finds it ready. A
read or write that fails leaves the store as it was.
-/

namespace LayeredConfig

structure Handle where
  /-- The section that the handle reads from. -/
  scope : SectionId
  /-- The section whose entries are the top-level sections. -/
  root : SectionId
  deriving DecidableEq, Repr

/-! ## Access -/

namespace Handle

def ofRoot (root : SectionId) : Handle := ⟨root, root⟩

variable (store : Store) (handle : Handle)

def keys : List String := (store.entries handle.scope).keys

/-- The section that an access goes to: the handle's own, or the one of that name in it. -/
def owner (within : Option String) : Except Failure SectionId :=
  match within with
  | none => .ok handle.scope
  | some name =>
    match store.child? handle.scope name with
    | some id => .ok id
    | none => .error (.sectionNotFound name)

/-- The value under a key. References in a text are resolved. -/
def lookup (within : Option String) (key : String) : Except Failure (Option Value) := do
  let owner ← handle.owner store within
  match store.get? owner key with
  | some (.scalar (.text raw)) =>
    let text ← store.resolve handle.root owner raw
    return some (.text text)
  | value? => return value?

def put (within : Option String) (key : String) (value : Value) : Except Failure Store := do
  let owner ← handle.owner store within
  return store.insert owner key value

/-- Reads the value under a key as a value of the kind `target`. A value of another kind is converted, and
the converted value is kept in its place. -/
def read (target : Kind) (within : Option String) (key : String) :
    Except Failure (Option Value × Store) := do
  match ← handle.lookup store within key with
  | none => return (none, store)
  | some value =>
    if value.kind = target then return (some value, store)
    else
      let converted ← value.convert key target
      let store ← handle.put store within key converted
      return (some converted, store)

def readText (within : Option String) (key : String) : Except Failure (Option String × Store) := do
  let (value?, store) ← handle.read store (.scalar .text) within key
  return (value?.bind Value.render, store)

/-- A handle on the section under a key, with the same root. -/
def readNested (within : Option String) (key : String) : Except Failure (Option Handle × Store) := do
  let (value?, store) ← handle.read store (.nested .handedOut) within key
  return ((value?.bind Value.section?).map fun id => { handle with scope := id }, store)

def equal (other : Handle) : Bool := store.sectionsEqual handle.scope other.scope

end Handle

end LayeredConfig
