import LayeredConfig.Handle
import LayeredConfig.Json
import LayeredConfig.Store.Outline

/-!
# Projections

The projection of a section is the plain value of everything in it: sections become objects, scalars keep
their type, and the references of texts are resolved in the section that they stand in. A section that
contains itself has no projection.
-/

namespace LayeredConfig

inductive Projection where
  | text (value : String)
  | int (value : Int)
  | bool (value : Bool)
  | list (items : List String)
  | object (fields : List (String × Projection))

/-- Projects a scalar that stands in the section `scope`. -/
def Store.projectScalar (store : Store) (root scope : SectionId) : Scalar → Except Failure Projection
  | .text raw => (store.resolve root scope raw).map .text
  | .int n => .ok (.int n.toInt)
  | .long n => .ok (.int n.toInt)
  | .bool b => .ok (.bool b)
  | .array items => .ok (.list items)

/-- Projects the entries of a section in a place where the sections of `opened` are open, innermost first.
The first failure ends the projection. -/
def Store.projectWithin (store : Store) (root : SectionId) (opened : List SectionId) (id : SectionId) :
    Except Failure (List (String × Projection)) :=
  if hopened : id ∈ opened then .error (.selfContaining opened.length)
  else if hid : id < store.size then
    (store.entries id).mapM fun entry => do
      let value ←
        match entry.2 with
        | .scalar value => store.projectScalar root id value
        | .nested _ child =>
          have := Store.unopened_cons_lt hid hopened
          (store.projectWithin root (id :: opened) child).map .object
      return (entry.1, value)
  else .ok []
termination_by store.unopened opened

def Handle.projection (store : Store) (handle : Handle) : Except Failure Projection :=
  (store.projectWithin handle.root [] handle.scope).map .object

mutual

def Projection.toJson : Projection → Json
  | .text value => .text value
  | .int value => .int value
  | .bool value => .bool value
  | .list items => .array (items.map .text)
  | .object fields => .object (Projection.fieldsToJson fields)

def Projection.fieldsToJson : List (String × Projection) → List (String × Json)
  | [] => []
  | (key, value) :: rest => (key, value.toJson) :: Projection.fieldsToJson rest

end

/-- Pairs in the order of their keys, which is that of the characters' codes. -/
def sortByKey {α : Type} (fields : List (String × α)) : List (String × α) :=
  fields.mergeSort fun left right => !decide (right.1 < left.1)

end LayeredConfig
