import LayeredConfig.Proofs.Handle.Append
import LayeredConfig.Proofs.Layers.Loading

/-!
# A load into a store behind another

A load into any store is the load into an empty one, put behind what the store holds. So what it gives depends on
nothing but the documents and the variables.
-/

namespace LayeredConfig

def Snapshot.moved (offset : Nat) (snapshot : Snapshot) : Snapshot :=
  { snapshot with handle := snapshot.handle.moved offset }

namespace Layers

variable (layers : Layers) (base fresh : Store) (root : SectionId)

theorem addLayer_append (source : Source) (name : String) :
    addLayer source (base.append fresh) (base.size + root) name =
      (addLayer source fresh root name).map base.append := by
  simp only [addLayer, bind, Except.bind]
  cases source.read name with
  | error failure => rfl
  | ok text => exact congrArg Except.ok ((Store.carries_append base).merge fresh root (Document.ofText text))

theorem override_append (vars : List (String × String)) :
    layers.override vars (base.append fresh) (base.size + root) =
      base.append (layers.override vars fresh root) := by
  rw [override, override]
  cases layers.overrides with
  | none => rfl
  | some overrides => exact congrArg Prod.snd ((Store.carries_append base).apply fresh root overrides vars)

theorem readEnvironment_append :
    readEnvironment (base.append fresh) (base.size + root) =
      (readEnvironment fresh root).map fun read => (read.1, base.append read.2) := by
  have hread := Handle.readText_append base fresh (.ofRoot root) (some Snapshot.applicationSection) "env"
  change (Handle.ofRoot (base.size + root)).readText _ _ _ = _ at hread
  rw [readEnvironment, readEnvironment, hread]
  rcases (Handle.ofRoot root).readText fresh (some Snapshot.applicationSection) "env" with
    failure | ⟨_ | environment, after⟩
  · cases failure <;> rfl
  · rfl
  · rfl

theorem loadBase_append (world : World) :
    layers.loadBase world base =
      (layers.loadBase world .empty).map fun loaded => (base.size + loaded.1, base.append loaded.2) := by
  have hmade : base.alloc [] = (base.size + (Store.empty.alloc []).1, base.append (Store.empty.alloc []).2) := by
    have halloc := base.alloc_append .empty []
    rwa [Store.append_empty] at halloc
  simp only [loadBase, hmade, bind, Except.bind]
  generalize Store.empty.alloc [] = made
  obtain ⟨root, fresh⟩ := made
  simp only [addLayer_append]
  cases addLayer world.source fresh root layers.applicationDocument with
  | error failure => rfl
  | ok application =>
      simp only [Except.map, addLayer_append]
      cases addLayer world.source application root layers.modelDocument with
      | error failure => rfl
      | ok model => simp only [override_append, pure, Except.pure]

/-- A load into a store is the load into an empty one, moved behind it. -/
theorem load_append (world : World) :
    layers.load world base =
      (layers.load world .empty).map fun loaded => (loaded.1.moved base.size, base.append loaded.2) := by
  simp only [load, bind, Except.bind]
  rw [loadBase_append]
  rcases layers.loadBase world .empty with failure | ⟨root, fresh⟩
  · rfl
  · simp only [Except.map, readEnvironment_append]
    rcases readEnvironment fresh root with failure | ⟨environment, read⟩
    · rfl
    · simp only [Except.map, addLayer_append]
      cases addLayer world.source read root (layers.environmentDocument environment) with
      | error failure => rfl
      | ok last =>
          simp only [override_append, pure, Except.pure]
          rfl

/-! ## Loads into different stores -/

variable {layers} {world : World} {store after : Store}

theorem load_ok_elsewhere {snapshot : Snapshot} (h : layers.load world store = .ok (snapshot, after))
    (elsewhere : Store) :
    ∃ other fresh, layers.load world elsewhere = .ok (other, fresh) ∧ snapshot.environment = other.environment ∧
      ∀ path, after.shapeAt snapshot.handle.tree path = fresh.shapeAt other.handle.tree path := by
  rw [load_append] at h
  cases hempty : layers.load world .empty with
  | error failure =>
      rw [hempty] at h
      cases h
  | ok loaded =>
      rw [hempty] at h
      cases h
      refine ⟨loaded.1.moved elsewhere.size, elsewhere.append loaded.2, ?_, rfl, fun path => ?_⟩
      · rw [load_append, hempty]
        rfl
      · have hhere := Store.shapeAt_moved store loaded.2 loaded.1.handle.tree path
        have hthere := Store.shapeAt_moved elsewhere loaded.2 loaded.1.handle.tree path
        exact hhere.trans hthere.symm

theorem load_error_elsewhere {failure : Failure} (h : layers.load world store = .error failure)
    (elsewhere : Store) : layers.load world elsewhere = .error failure := by
  rw [load_append] at h ⊢
  cases hempty : layers.load world .empty with
  | error reason =>
      rw [hempty] at h
      cases h
      rfl
  | ok loaded =>
      rw [hempty] at h
      cases h

end Layers

end LayeredConfig
