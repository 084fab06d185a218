import LayeredConfig.Configuration
import LayeredConfig.Proofs.Handle.Edits
import LayeredConfig.Proofs.Store.Writes

/-!
# What a load writes

A load makes all sections that it writes to. This holds of every stage of it, so that a load which fails, and leaves
behind what its stages have made so far, has changed nothing that was there before either.
-/

namespace LayeredConfig

namespace Layers

variable {store after : Store} {region : Set SectionId} {root : SectionId}

/-! ## The stages -/

theorem addLayer_edits {source : Source} {name : String} (hroot : root ∈ region)
    (h : addLayer source store root name = .ok after) : store.Edits region after := by
  obtain ⟨text, -, h⟩ := bind_eq_ok_iff.mp h
  cases h
  exact Store.merge_edits hroot _

theorem override_edits (layers : Layers) (hclosed : store.Closed region) (hroot : root ∈ region)
    (vars : List (String × String)) : store.Edits region (layers.override vars store root) := by
  rw [override]
  cases layers.overrides with
  | none => exact .refl
  | some overrides => exact overrides.apply_edits hclosed hroot vars

theorem readEnvironment_eq_ok_iff {environment : String} :
    readEnvironment store root = .ok (environment, after) ↔
      (Handle.ofRoot root).readText store (some Snapshot.applicationSection) "env" =
        .ok (some environment, after) := by
  rw [readEnvironment]
  split <;> simp_all

/-- Reading the environment leaves the store as it is, unless its entry holds a scalar that is no text. -/
theorem readEnvironment_unchanged_of_text {environment : String}
    (htext : ∀ {owner content}, (Handle.ofRoot root).owner store (some Snapshot.applicationSection) = .ok owner →
      store.get? owner "env" = some (.scalar content) → ∃ text, content = .text text)
    (h : readEnvironment store root = .ok (environment, after)) : after = store := by
  obtain ⟨owner, found, howner, hfinds, hresult⟩ :=
    Handle.read_eq_ok_some_iff.mp (Handle.readText_eq_ok_some_iff.mp (readEnvironment_eq_ok_iff.mp h))
  rcases hresult with ⟨_, _, rfl⟩ | ⟨hkind, hconvert, _⟩
  · rfl
  · cases hfinds with
    | resolved => exact absurd rfl hkind
    | held hheld _ =>
        cases found with
        | nested role id => cases hconvert
        | scalar content =>
            obtain ⟨text, rfl⟩ := htext howner hheld
            exact absurd rfl hkind

theorem readEnvironment_edits {environment : String} (hclosed : store.Closed region) (hroot : root ∈ region)
    (h : readEnvironment store root = .ok (environment, after)) : store.Edits region after :=
  Handle.readText_edits hclosed hroot (readEnvironment_eq_ok_iff.mp h)

/-! ## A load with what it leaves behind -/

/-- Loads a configuration, and tells what is in the store afterwards whether or not that succeeds. -/
def loadLeaving (layers : Layers) (world : World) (store : Store) : Except Failure Snapshot × Store :=
  let (root, store) := store.alloc []
  match addLayer world.source store root layers.applicationDocument with
  | .error failure => (.error failure, store)
  | .ok store =>
    match addLayer world.source store root layers.modelDocument with
    | .error failure => (.error failure, store)
    | .ok store =>
      let store := layers.override world.vars store root
      match readEnvironment store root with
      | .error failure => (.error failure, store)
      | .ok (environment, store) =>
        match addLayer world.source store root (layers.environmentDocument environment) with
        | .error failure => (.error failure, store)
        | .ok store => (.ok ⟨.ofRoot root, environment⟩, layers.override world.vars store root)

theorem load_eq_loadLeaving (layers : Layers) (world : World) (store : Store) :
    layers.load world store =
      (layers.loadLeaving world store).1.map fun snapshot => (snapshot, (layers.loadLeaving world store).2) := by
  simp only [load, loadBase, loadLeaving, bind, Except.bind, pure, Except.pure]
  cases addLayer world.source (store.alloc []).2 (store.alloc []).1 layers.applicationDocument with
  | error failure => rfl
  | ok application =>
      dsimp only
      cases addLayer world.source application (store.alloc []).1 layers.modelDocument with
      | error failure => rfl
      | ok model =>
          dsimp only
          rcases readEnvironment (layers.override world.vars model (store.alloc []).1) (store.alloc []).1 with
            failure | ⟨environment, read⟩
          · rfl
          · dsimp only
            cases addLayer world.source read (store.alloc []).1 (layers.environmentDocument environment) <;> rfl

theorem load_eq_ok_iff {layers : Layers} {world : World} {snapshot : Snapshot} :
    layers.load world store = .ok (snapshot, after) ↔ layers.loadLeaving world store = (.ok snapshot, after) := by
  rw [load_eq_loadLeaving]
  rcases layers.loadLeaving world store with ⟨_ | _, _⟩ <;> simp [Except.map]

theorem load_eq_error_iff {layers : Layers} {world : World} {failure : Failure} :
    layers.load world store = .error failure ↔ (layers.loadLeaving world store).1 = .error failure := by
  rw [load_eq_loadLeaving]
  rcases layers.loadLeaving world store with ⟨_ | _, _⟩ <;> simp [Except.map]

/-! ## In the middle of a load -/

/-- All that was done since `before` was done in new sections, and `root` is one of them. -/
structure Loading (before : Store) (root : SectionId) (store : Store) : Prop where
  edits : before.Edits ∅ store
  root_mem : root ∈ before.grown ∅ store

namespace Loading

variable {before : Store}

theorem closed (h : Loading before root store) : store.Closed (before.grown ∅ store) :=
  h.edits.closed before.closed_empty

theorem start (before : Store) : Loading before (before.alloc []).1 (before.alloc []).2 where
  edits := Store.Edits.refl.alloc fun entry hentry => by cases hentry
  root_mem := .inr ⟨Nat.le_refl _, by rw [Store.size_alloc]; exact Nat.lt_succ_self _⟩

theorem step (h : Loading before root store) (hstep : store.Edits (before.grown ∅ store) after) :
    Loading before root after where
  edits := h.edits.trans hstep
  root_mem := Store.grown_mono hstep.size_le h.root_mem

theorem addLayer (h : Loading before root store) {source : Source} {name : String}
    (hadd : Layers.addLayer source store root name = .ok after) : Loading before root after :=
  h.step (addLayer_edits h.root_mem hadd)

theorem override (h : Loading before root store) (layers : Layers) (vars : List (String × String)) :
    Loading before root (layers.override vars store root) :=
  h.step (layers.override_edits h.closed h.root_mem vars)

theorem readEnvironment (h : Loading before root store) {environment : String}
    (hread : Layers.readEnvironment store root = .ok (environment, after)) : Loading before root after :=
  h.step (readEnvironment_edits h.closed h.root_mem hread)

end Loading

/-- What holds of the store with the new root, and is kept by every stage, holds of what a load leaves behind. -/
theorem loadLeaving_induction {layers : Layers} {world : World} {motive : Store → Prop} (store : Store)
    (hstart : motive (store.alloc []).2)
    (hlayer : ∀ {before after name}, motive before →
      addLayer world.source before (store.alloc []).1 name = .ok after → motive after)
    (hoverride : ∀ {before}, motive before → motive (layers.override world.vars before (store.alloc []).1))
    (henvironment : ∀ {before after environment}, motive before →
      readEnvironment before (store.alloc []).1 = .ok (environment, after) → motive after) :
    motive (layers.loadLeaving world store).2 := by
  simp only [loadLeaving]
  cases happlication : addLayer world.source (store.alloc []).2 (store.alloc []).1 layers.applicationDocument with
  | error failure => exact hstart
  | ok application =>
      have hload := hlayer hstart happlication
      dsimp only
      cases hmodel : addLayer world.source application (store.alloc []).1 layers.modelDocument with
      | error failure => exact hload
      | ok model =>
          have hload := hoverride (hlayer hload hmodel)
          dsimp only
          cases hread : readEnvironment (layers.override world.vars model (store.alloc []).1)
            (store.alloc []).1 with
          | error failure => exact hload
          | ok result =>
              obtain ⟨environment, read⟩ := result
              have hload := henvironment hload hread
              dsimp only
              cases hlast : addLayer world.source read (store.alloc []).1 (layers.environmentDocument environment) with
              | error failure => exact hload
              | ok last => exact hoverride (hlayer hload hlast)

theorem loading_loadLeaving (layers : Layers) (world : World) (store : Store) :
    Loading store (store.alloc []).1 (layers.loadLeaving world store).2 := by
  apply loadLeaving_induction store
  · exact Loading.start store
  · exact fun h hadd => h.addLayer hadd
  · exact fun h => h.override layers world.vars
  · exact fun h hread => h.readEnvironment hread

theorem handle_of_loadLeaving {layers : Layers} {world : World} {snapshot : Snapshot}
    (h : (layers.loadLeaving world store).1 = .ok snapshot) : snapshot.handle = .ofRoot store.size := by
  simp only [loadLeaving] at h
  split at h
  · cases h
  · split at h
    · cases h
    · split at h
      · cases h
      · split at h
        · cases h
        · cases h
          rfl

end Layers

end LayeredConfig
