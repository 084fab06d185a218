import LayeredConfig.Handle
import LayeredConfig.Proofs.Store.Append

/-!
# Access to a store behind another

An access to sections behind another store gives what it gives where they stand alone.
-/

namespace LayeredConfig

theorem Value.convert_moved (offset : Nat) (key : String) (target : Kind) (value : Value) :
    (value.moved offset).convert key target = (value.convert key target).map (Value.moved offset) := by
  cases target with
  | nested role => cases value <;> rfl
  | scalar kind =>
      cases value with
      | nested role id => rfl
      | scalar content =>
          simp only [convert, moved]
          cases Scalar.ofText? kind content.render <;> rfl

namespace Handle

def moved (offset : Nat) (handle : Handle) : Handle := ⟨offset + handle.scope, offset + handle.root⟩

variable (base fresh : Store) (handle : Handle) (within : Option String) (key : String)

theorem read_append (target : Kind) :
    (handle.moved base.size).read (base.append fresh) target within key =
      (handle.read fresh target within key).map fun read =>
        (read.1.map (Value.moved base.size), base.append read.2) := by
  have hlookup : (handle.moved base.size).lookup (base.append fresh) within key = _ :=
    (Store.carries_append base).lookup fresh key handle within
  have hput (value : Value) : (handle.moved base.size).put (base.append fresh) within key (value.moved base.size) = _ :=
    (Store.carries_append base).put fresh key handle within value
  rw [read, read, hlookup]
  rcases handle.lookup fresh within key with failure | _ | value
  · rfl
  · rfl
  · simp only [bind, Except.bind, Except.map, Option.map_some, Value.kind_moved]
    split
    · rfl
    · rw [Value.convert_moved]
      cases value.convert key target with
      | error failure => rfl
      | ok converted =>
          simp only [Except.map, hput]
          cases handle.put fresh within key converted <;> rfl

theorem readText_append :
    (handle.moved base.size).readText (base.append fresh) within key =
      (handle.readText fresh within key).map fun read => (read.1, base.append read.2) := by
  rw [readText, readText, read_append]
  rcases handle.read fresh (.scalar .text) within key with failure | ⟨_ | value, after⟩
  · rfl
  · rfl
  · simp [bind, Except.bind, Except.map, pure, Except.pure, (Store.carries_append base).render]

end Handle

end LayeredConfig
