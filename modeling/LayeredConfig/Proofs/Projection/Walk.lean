import LayeredConfig.Projection
import LayeredConfig.Proofs.Failure.Steps

/-!
# The walk of a projection

A projection goes down into sections, and comes to an end because the sections around a place are all different.
Its equation here has no bounds in it, and an induction on the walk goes from a section to those in it.
-/

namespace LayeredConfig.Store

variable {store : Store}

/-- What holds of a place, if it holds of all places one level further down, holds of every place. -/
theorem walk_induction (store : Store) {motive : List SectionId → SectionId → Prop}
    (step : ∀ opened id, (id ∉ opened → id < store.size → ∀ child, motive (id :: opened) child) →
      motive opened id) (opened : List SectionId) (id : SectionId) : motive opened id :=
  step opened id fun hopened hid child =>
    have := unopened_cons_lt hid hopened
    walk_induction store step (id :: opened) child
termination_by store.unopened opened

/-- What stands under a key of the section `id`, in a place where the sections of `opened` are open. -/
def projectValue (store : Store) (root : SectionId) (opened : List SectionId) (id : SectionId) :
    Value → Except Failure Projection
  | .scalar content => store.projectScalar root id content
  | .nested _ child => (store.projectWithin root (id :: opened) child).map .object

theorem projectWithin_eq (store : Store) (root : SectionId) (opened : List SectionId) (id : SectionId) :
    store.projectWithin root opened id =
      if id ∈ opened then .error (.selfContaining opened.length)
      else (store.entries id).mapM fun entry =>
        (store.projectValue root opened id entry.2).map fun value => (entry.1, value) := by
  rw [projectWithin]
  split
  · rfl
  · split
    · congr 1
      funext entry
      rcases entry with ⟨key, content | ⟨role, child⟩⟩
      · exact bind_pure_eq_map _ _
      · exact bind_pure_eq_map _ _
    · rename_i hid
      rw [entries_of_size_le (Nat.le_of_not_lt hid)]
      rfl

end LayeredConfig.Store
