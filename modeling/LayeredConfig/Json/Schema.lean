import LayeredConfig.Entries
import LayeredConfig.Json

/-!
# Shapes of JSON documents

A schema says which types the fields of a document have. Extraction keeps the fields that the schema
names and drops the others; it fails if a field is missing or of another type.
-/

namespace LayeredConfig

inductive Schema where
  | any
  | text
  | bool
  /-- A whole number from 0 to `limit`. -/
  | natural (limit : Nat)
  | record (fields : List (String × Schema))

mutual

/-- The part of a document that the schema names. The fields of a record may also come as the items of
an array, in the order of the record. -/
def Schema.extract : Schema → Json → Option Json
  | .any, json => some json
  | .text, .text value => some (.text value)
  | .bool, .bool value => some (.bool value)
  | .natural limit, .int n => if 0 ≤ n ∧ n ≤ limit then some (.int n) else none
  | .record fields, .object values => (Schema.extractFields fields values).map .object
  | .record fields, .array items => (Schema.extractItems fields items).map .object
  | _, _ => none

def Schema.extractFields : List (String × Schema) → List (String × Json) → Option (List (String × Json))
  | [], _ => some []
  | (key, schema) :: rest, values => do
    let value ← schema.extract (← Entries.get? values key)
    return (key, value) :: (← Schema.extractFields rest values)

def Schema.extractItems : List (String × Schema) → List Json → Option (List (String × Json))
  | [], [] => some []
  | (key, schema) :: rest, item :: items => do
    let value ← schema.extract item
    return (key, value) :: (← Schema.extractItems rest items)
  | _, _ => none

end

end LayeredConfig
