import LayeredConfig.Proofs.Projection.Walk

/-!
# Projections with inferred types

The walk of a projection with the types of its texts inferred on the way, which is what inference makes of the
projection afterwards.
-/

namespace LayeredConfig

theorem inferFields_fieldsToJson (fields : List (String × Projection)) :
    Json.inferFields (Projection.fieldsToJson fields) =
      fields.map fun field => (field.1, field.2.toJson.infer) := by
  induction fields with
  | nil => rfl
  | cons field rest ih => rw [List.map_cons, ← ih]; rfl

namespace Store

variable (store : Store) (root : SectionId) (opened : List SectionId) (id : SectionId)

def inferredWithin : Except Failure (List (String × Json)) :=
  (store.projectWithin root opened id).map fun fields => Json.inferFields (Projection.fieldsToJson fields)

def inferredValue (value : Value) : Except Failure Json :=
  (store.projectValue root opened id value).map fun projection => projection.toJson.infer

theorem inferredWithin_eq : store.inferredWithin root opened id =
    if id ∈ opened then .error (.selfContaining opened.length)
    else (store.entries id).mapM fun entry =>
      (store.inferredValue root opened id entry.2).map fun value => (entry.1, value) := by
  rw [inferredWithin, projectWithin_eq]
  split
  · rfl
  · rw [funext inferFields_fieldsToJson, map_mapM]
    congr 1
    funext entry
    rw [inferredValue]
    cases store.projectValue root opened id entry.2 <;> rfl

theorem inferredValue_text (raw : String) :
    store.inferredValue root opened id (.text raw) = (store.resolve root id raw).map inferText := by
  change ((store.resolve root id raw).map Projection.text).map _ = _
  cases store.resolve root id raw <;> rfl

theorem inferredValue_nested (role : Role) (child : SectionId) :
    store.inferredValue root opened id (.nested role child) =
      (store.inferredWithin root (id :: opened) child).map .object := by
  rw [inferredValue, projectValue, inferredWithin]
  cases store.projectWithin root (id :: opened) child <;> rfl

end Store

theorem Handle.infer_projection (store : Store) (handle : Handle) :
    (handle.projection store).map (fun projection => projection.toJson.infer) =
      (store.inferredWithin handle.root [] handle.scope).map .object := by
  rw [Handle.projection, Store.inferredWithin]
  cases store.projectWithin handle.root [] handle.scope <;> rfl

end LayeredConfig
