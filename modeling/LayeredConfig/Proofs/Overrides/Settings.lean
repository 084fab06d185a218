import LayeredConfig.Proofs.Overrides.Names

/-!
# What variables set

To apply variables is to set the paths that they spell, one after another, and to count them. So what is kept when a
path is set is kept by all of them.
-/

namespace LayeredConfig.Overrides

variable (overrides : Overrides)

/-- The paths that the variables set and the texts that they are set to, in order. -/
def settings (vars : List (String × String)) : List (List String × String) :=
  vars.filterMap fun entry => (overrides.path? entry.1).map fun path => (path, entry.2)

theorem mem_settings_iff {vars : List (String × String)} {setting : List String × String} :
    setting ∈ overrides.settings vars ↔
      ∃ entry ∈ vars, overrides.Spells entry.1 setting.1 ∧ entry.2 = setting.2 := by
  simp only [settings, List.mem_filterMap, Option.map_eq_some_iff, path?_eq_some_iff]
  constructor
  · rintro ⟨entry, hentry, path, hspells, rfl⟩
    exact ⟨entry, hentry, hspells, rfl⟩
  · rintro ⟨entry, hentry, hspells, htext⟩
    exact ⟨entry, hentry, setting.1, hspells, Prod.ext rfl htext⟩

theorem two_le_length_of_mem_settings {vars : List (String × String)} {setting : List String × String}
    (h : setting ∈ overrides.settings vars) : 2 ≤ setting.1.length := by
  obtain ⟨_, _, hspells, _⟩ := overrides.mem_settings_iff.mp h
  exact hspells.two_le_length

theorem foldl_applyOne (vars : List (String × String)) (id : SectionId) (count : Nat) (store : Store) :
    vars.foldl (overrides.applyOne id) (count, store) =
      (count + (overrides.settings vars).length,
        (overrides.settings vars).foldl (fun store setting => store.setPath id setting.1 setting.2) store) := by
  induction vars generalizing count store with
  | nil => rfl
  | cons entry vars ih =>
      rw [List.foldl_cons, applyOne]
      cases hpath : overrides.path? entry.1 with
      | none => simp [ih, settings, hpath]
      | some path => simp [ih, settings, hpath, Nat.add_assoc, Nat.add_comm 1]

theorem apply_eq (store : Store) (id : SectionId) (vars : List (String × String)) :
    overrides.apply store id vars = ((overrides.settings vars).length,
      (overrides.settings vars).foldl (fun store setting => store.setPath id setting.1 setting.2) store) := by
  rw [apply, foldl_applyOne, Nat.zero_add]

/-- What holds of a store, and is kept when a path of a section and a key at least is set, holds after variables are
applied. -/
theorem apply_induction {motive : Store → Prop} {store : Store} {id : SectionId} (vars : List (String × String))
    (hstart : motive store)
    (hset : ∀ {before path}, 2 ≤ path.length → motive before → ∀ text, motive (before.setPath id path text)) :
    motive (overrides.apply store id vars).2 := by
  rw [apply_eq]
  refine List.foldlRecOn _ _ hstart fun before hbefore setting hsetting => ?_
  exact hset (overrides.two_le_length_of_mem_settings hsetting) hbefore setting.2

end LayeredConfig.Overrides
