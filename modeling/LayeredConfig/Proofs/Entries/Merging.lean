import LayeredConfig.Entries

/-!
# Writes into a merge

Entries that are written into a merge may be written into what is merged before, if the merge has their keys from there.
The keys keep their places in both cases.
-/

namespace LayeredConfig.Entries

variable {α : Type} {entries later : Entries α} {key other : String} {value : α} {change : α → α}

theorem insert_eq_modify (h : key ∈ entries.keys) (value : α) : entries.insert key value = entries.modify key fun _ => value := by
  induction entries with
  | nil => cases h
  | cons entry rest ih =>
      by_cases hkey : entry.1 = key
      · simp [insert, modify, hkey]
      · simp only [keys_cons, List.mem_cons, Ne.symm hkey, false_or] at h
        simp [insert, modify, hkey, ih h]

theorem modify_insert_of_ne (h : other ≠ key) :
    (entries.insert other value).modify key change = (entries.modify key change).insert other value := by
  induction entries with
  | nil => simp [insert, modify, h]
  | cons entry rest ih =>
      by_cases hkey : entry.1 = key
      · simp [insert, modify, hkey, Ne.symm h]
      · by_cases hother : entry.1 = other
        · simp [insert, modify, hother, h]
        · simp [insert, modify, hkey, hother, ih]

theorem merge_cons (entries : Entries α) (entry : String × α) (later : Entries α) :
    entries.merge (entry :: later) = (entries.insert entry.1 entry.2).merge later := rfl

theorem mem_keys_insert (h : key ∈ entries.keys) (other : String) (value : α) : key ∈ (entries.insert other value).keys := by
  rw [keys_insert]
  split
  · exact h
  · exact List.mem_append_left [other] h

theorem mem_keys_insert_self (entries : Entries α) (key : String) (value : α) : key ∈ (entries.insert key value).keys :=
  List.mem_map_of_mem (mem_insert_self entries key value)

theorem mem_keys_merge (h : key ∈ entries.keys) (later : Entries α) : key ∈ (entries.merge later).keys := by
  induction later generalizing entries with
  | nil => exact h
  | cons entry later ih => exact ih (mem_keys_insert h entry.1 entry.2)

theorem mem_keys_merge_of_later (entries : Entries α) (h : key ∈ later.keys) : key ∈ (entries.merge later).keys := by
  induction later generalizing entries with
  | nil => cases h
  | cons entry later ih =>
      rw [merge_cons]
      rcases List.mem_cons.mp h with rfl | hlater
      · exact mem_keys_merge (mem_keys_insert_self entries entry.1 entry.2) later
      · exact ih (entries.insert entry.1 entry.2) hlater

theorem modify_merge_of_not_mem (h : key ∉ later.keys) :
    (entries.merge later).modify key change = (entries.modify key change).merge later := by
  induction later generalizing entries with
  | nil => rfl
  | cons entry later ih =>
      simp only [keys_cons, List.mem_cons, not_or] at h
      rw [merge_cons, merge_cons, ih h.2, modify_insert_of_ne (Ne.symm h.1)]

theorem get?_eq_none_of_not_mem (h : key ∉ entries.keys) : entries.get? key = none :=
  Option.eq_none_iff_forall_ne_some.mpr fun _ hvalue => h (List.mem_map_of_mem (mem_of_get? hvalue))

/-- The later entries are read first. -/
theorem get?_merge (hnodup : later.keys.Nodup) (entries : Entries α) (key : String) :
    (entries.merge later).get? key = (later.get? key).or (entries.get? key) := by
  induction later generalizing entries with
  | nil => rfl
  | cons entry later ih =>
      obtain ⟨hnew, hnodup⟩ := List.nodup_cons.mp hnodup
      rw [merge_cons, ih hnodup, get?_insert, get?_cons]
      by_cases hkey : entry.1 = key
      · subst hkey
        rw [if_pos rfl, if_pos rfl, get?_eq_none_of_not_mem hnew, Option.none_or, Option.some_or]
      · rw [if_neg hkey, if_neg hkey]

/-- Keys that are there already keep their places, and the others come after them. -/
theorem keys_merge (hnodup : later.keys.Nodup) (entries : Entries α) :
    (entries.merge later).keys = entries.keys ++ later.keys.filter (· ∉ entries.keys) := by
  induction later generalizing entries with
  | nil => simp [merge]
  | cons entry later ih =>
      obtain ⟨hnew, hnodup⟩ := List.nodup_cons.mp hnodup
      rw [merge_cons, ih hnodup, keys_insert, keys_cons, List.filter_cons]
      by_cases hkey : entry.1 ∈ entries.keys
      · simp [hkey]
      · have hlater : ∀ key ∈ Entries.keys later, key ≠ entry.1 := by
          rintro _ hmem rfl
          exact hnew hmem
        have hfilter : (Entries.keys later).filter (· ∉ entries.keys ++ [entry.1]) =
            (Entries.keys later).filter (· ∉ entries.keys) := by
          refine List.filter_congr fun key hmem => ?_
          simp [hlater key hmem]
        rw [if_neg hkey, if_pos (by simpa using hkey), hfilter, List.append_assoc]
        rfl

/-- A change of an entry that the merge has from the later entries can be made there. -/
theorem merge_modify (hnodup : later.keys.Nodup) (h : key ∈ later.keys) :
    entries.merge (later.modify key change) = (entries.merge later).modify key change := by
  induction later generalizing entries with
  | nil => cases h
  | cons entry later ih =>
      obtain ⟨hnew, hnodup⟩ := List.nodup_cons.mp hnodup
      by_cases hkey : entry.1 = key
      · subst hkey
        rw [merge_cons, modify_merge_of_not_mem hnew, modify_insert]
        simp [modify, merge_cons]
      · have hlater : key ∈ Entries.keys later := by simpa [Ne.symm hkey] using h
        simp only [modify, hkey, if_false]
        rw [merge_cons, merge_cons, ih hnodup hlater]

/-- What is written last can be written into the later entries. -/
theorem merge_insert (hnodup : later.keys.Nodup) (key : String) (value : α) :
    entries.merge (later.insert key value) = (entries.merge later).insert key value := by
  by_cases h : key ∈ later.keys
  · rw [insert_eq_modify h, insert_eq_modify (mem_keys_merge_of_later entries h), merge_modify hnodup h]
  · rw [insert_of_not_mem h, merge, List.foldl_append]
    rfl

end LayeredConfig.Entries
