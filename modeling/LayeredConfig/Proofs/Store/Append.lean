import LayeredConfig.Proofs.Store.Carried
import LayeredConfig.Proofs.Store.Path

/-!
# A store behind another

The sections of one store can be put behind those of another, under names that are moved up. Whatever is done to the
sections in the back is the same as if it had been done before they were put there.
-/

namespace LayeredConfig

/-- The value with the name of its section moved up. -/
def Value.moved (offset : Nat) : Value → Value
  | .scalar content => .scalar content
  | .nested role id => .nested role (offset + id)

@[simp] theorem Value.section?_moved (offset : Nat) (value : Value) :
    (value.moved offset).section? = value.section?.map (offset + ·) := by
  cases value <;> rfl

@[simp] theorem Value.kind_moved (offset : Nat) (value : Value) : (value.moved offset).kind = value.kind := by
  cases value <;> rfl

namespace Store

/-- The sections of `base`, and behind them those of `fresh`. -/
def append (base fresh : Store) : Store :=
  ⟨base.cells ++ fresh.cells.map fun entries => entries.mapValues (Value.moved base.size)⟩

variable (base fresh : Store) (id : SectionId) (key : String)

@[simp] theorem append_empty : base.append empty = base := by
  simp [append, empty]

/-! ## Entries -/

@[simp] theorem entries_append :
    (base.append fresh).entries (base.size + id) = (fresh.entries id).mapValues (Value.moved base.size) := by
  have hlt : ¬ base.cells.size + id < base.cells.size := by omega
  cases hcell : fresh.cells[id]? <;>
    simp [append, entries, size, Array.getElem?_append, hlt, hcell]

@[simp] theorem get?_append :
    (base.append fresh).get? (base.size + id) key = (fresh.get? id key).map (Value.moved base.size) := by
  rw [get?, entries_append, Entries.get?_mapValues, get?]

theorem insert_append (value : Value) :
    (base.append fresh).insert (base.size + id) key (value.moved base.size) =
      base.append (fresh.insert id key value) := by
  refine congrArg Store.mk (Array.ext_getElem? fun i => ?_)
  simp only [append, insert, size, Array.getElem?_modify, Array.getElem?_append, Array.getElem?_map]
  by_cases hi : i < base.cells.size
  · have hne : base.cells.size + id ≠ i := by omega
    simp [hi, hne]
  · obtain ⟨j, rfl⟩ := Nat.exists_eq_add_of_le (Nat.le_of_not_lt hi)
    simp only [hi, if_false, Nat.add_sub_cancel_left, Nat.add_left_cancel_iff]
    split
    · cases fresh.cells[j]? <;> simp [Entries.insert_mapValues]
    · rfl

theorem alloc_append (entries : Entries Value) :
    (base.append fresh).alloc (entries.mapValues (Value.moved base.size)) =
      (base.size + fresh.size, base.append (fresh.alloc entries).2) := by
  simp [alloc, append, size]

theorem carries_append (base : Store) : Carries base.append (base.size + ·) (Value.moved base.size) where
  scalar _ := rfl
  nested _ := rfl
  names := Value.section?_moved base.size
  get? := base.get?_append
  insert := base.insert_append
  alloc := base.alloc_append

/-! ## Trees -/

theorem shape_moved (value : Value) : (base.append fresh).shape (value.moved base.size) = fresh.shape value := by
  cases value with
  | scalar content => rfl
  | nested role id => simp [Value.moved, shape]

theorem shapeAt_moved (value : Value) (path : List String) :
    (base.append fresh).shapeAt (value.moved base.size) path = fresh.shapeAt value path := by
  rw [shapeAt, (carries_append base).follow, shapeAt]
  cases fresh.follow value path with
  | none => rfl
  | some found => exact congrArg some (shape_moved base fresh found)

end Store

end LayeredConfig
