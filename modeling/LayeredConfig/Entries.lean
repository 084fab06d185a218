/-!
# Entries in insertion order

A list of keys with values, in which a key that is written again keeps its place. `get?_insert` says
what a reader sees after a write, `keys_insert` what becomes of the order.
-/

namespace LayeredConfig

/-- Keys with values, oldest key first. -/
abbrev Entries (α : Type) := List (String × α)

namespace Entries

variable {α β : Type}

def get? (entries : Entries α) (key : String) : Option α :=
  (entries.find? fun entry => entry.1 = key).map Prod.snd

def keys (entries : Entries α) : List String := entries.map Prod.fst

/-- Replaces the value under `key` in its place, or adds the key at the end. -/
def insert (entries : Entries α) (key : String) (value : α) : Entries α :=
  match entries with
  | [] => [(key, value)]
  | entry :: rest =>
    if entry.1 = key then (key, value) :: rest else entry :: insert rest key value

/-- Changes the value under `key`, if there is one. -/
def modify (entries : Entries α) (key : String) (change : α → α) : Entries α :=
  match entries with
  | [] => []
  | entry :: rest =>
    if entry.1 = key then (key, change entry.2) :: rest else entry :: modify rest key change

def mapValues (entries : Entries α) (f : α → β) : Entries β := entries.map fun entry => (entry.1, f entry.2)

/-- Writes all entries of `later`, in order. -/
def merge (entries later : Entries α) : Entries α :=
  later.foldl (fun merged entry => merged.insert entry.1 entry.2) entries

/-! ## Reading -/

@[simp] theorem get?_nil (key : String) : get? ([] : Entries α) key = none := rfl

theorem get?_cons (entry : String × α) (rest : Entries α) (key : String) :
    get? (entry :: rest) key = if entry.1 = key then some entry.2 else get? rest key := by
  by_cases h : entry.1 = key <;> simp [get?, h]

theorem mem_of_get? {entries : Entries α} {key : String} {value : α} (h : entries.get? key = some value) :
    (key, value) ∈ entries := by
  obtain ⟨entry, hfind, rfl⟩ := Option.map_eq_some_iff.mp h
  obtain rfl : entry.1 = key := by simpa using List.find?_some hfind
  exact List.mem_of_find?_eq_some hfind

theorem get?_insert (entries : Entries α) (key other : String) (value : α) :
    (entries.insert key value).get? other = if key = other then some value else entries.get? other := by
  induction entries with
  | nil => simp [insert, get?_cons]
  | cons entry rest ih =>
    by_cases h : entry.1 = key
    · simp only [insert, h, if_true, get?_cons]
      split <;> rfl
    · by_cases ho : entry.1 = other
      · simp_all [insert, get?_cons, eq_comm]
      · simp [insert, h, get?_cons, ho, ih]

@[simp] theorem get?_insert_self (entries : Entries α) (key : String) (value : α) :
    (entries.insert key value).get? key = some value := by
  simp [get?_insert]

theorem get?_modify (entries : Entries α) (key other : String) (change : α → α) :
    (entries.modify key change).get? other =
      if key = other then (entries.get? other).map change else entries.get? other := by
  induction entries with
  | nil => simp [modify]
  | cons entry rest ih =>
    by_cases h : entry.1 = key
    · by_cases hk : key = other <;> simp [modify, h, get?_cons, hk]
    · by_cases ho : entry.1 = other
      · simp_all [modify, get?_cons, eq_comm]
      · simp [modify, h, get?_cons, ho, ih]

theorem mem_insert {entries : Entries α} {key : String} {value : α} {entry : String × α}
    (h : entry ∈ entries.insert key value) : entry = (key, value) ∨ entry ∈ entries := by
  induction entries with
  | nil => exact .inl (List.mem_singleton.mp h)
  | cons first rest ih =>
    by_cases hkey : first.1 = key
    · simp only [insert, hkey, if_true, List.mem_cons] at h
      exact h.imp_right (List.mem_cons_of_mem first)
    · simp only [insert, hkey, if_false, List.mem_cons] at h
      rcases h with rfl | hmem
      · exact .inr List.mem_cons_self
      · exact (ih hmem).imp_right (List.mem_cons_of_mem first)

theorem mem_insert_self (entries : Entries α) (key : String) (value : α) :
    (key, value) ∈ entries.insert key value := by
  induction entries with
  | nil => simp [insert]
  | cons first rest ih => by_cases h : first.1 = key <;> simp [insert, h, ih]

theorem mem_modify {entries : Entries α} {key : String} {change : α → α} {entry : String × α}
    (h : entry ∈ entries.modify key change) :
    entry ∈ entries ∨ ∃ value, (key, value) ∈ entries ∧ entry = (key, change value) := by
  induction entries with
  | nil => cases h
  | cons first rest ih =>
    by_cases hkey : first.1 = key
    · simp only [modify, hkey, if_true, List.mem_cons] at h
      rcases h with rfl | hmem
      · exact .inr ⟨first.2, by simp [← hkey], rfl⟩
      · exact .inl (List.mem_cons_of_mem first hmem)
    · simp only [modify, hkey, if_false, List.mem_cons] at h
      rcases h with rfl | hmem
      · exact .inl List.mem_cons_self
      · rcases ih hmem with hrest | ⟨value, hvalue, heq⟩
        · exact .inl (List.mem_cons_of_mem first hrest)
        · exact .inr ⟨value, List.mem_cons_of_mem first hvalue, heq⟩

/-! ## Order -/

@[simp] theorem keys_nil : keys ([] : Entries α) = [] := rfl

@[simp] theorem keys_cons (entry : String × α) (rest : Entries α) :
    keys (entry :: rest) = entry.1 :: keys rest := rfl

theorem keys_insert (entries : Entries α) (key : String) (value : α) :
    (entries.insert key value).keys =
      if key ∈ entries.keys then entries.keys else entries.keys ++ [key] := by
  induction entries with
  | nil => simp [insert, keys]
  | cons entry rest ih =>
    by_cases h : entry.1 = key
    · simp [insert, h]
    · simp only [insert, h, if_false, keys_cons, ih, List.mem_cons, eq_comm (a := key), false_or]
      split <;> simp

@[simp] theorem keys_modify (entries : Entries α) (key : String) (change : α → α) :
    (entries.modify key change).keys = entries.keys := by
  induction entries with
  | nil => rfl
  | cons entry rest ih => by_cases h : entry.1 = key <;> simp [modify, h, ih]

theorem get?_of_mem {entries : Entries α} (hnodup : entries.keys.Nodup) {key : String} {value : α}
    (h : (key, value) ∈ entries) : entries.get? key = some value := by
  induction entries with
  | nil => cases h
  | cons entry rest ih =>
    simp only [keys_cons, List.nodup_cons] at hnodup
    rcases List.mem_cons.mp h with rfl | hmem
    · simp [get?_cons]
    · have hne : entry.1 ≠ key := fun heq => hnodup.1 (heq ▸ List.mem_map_of_mem hmem)
      rw [get?_cons, if_neg hne]
      exact ih hnodup.2 hmem

theorem nodup_keys_insert {entries : Entries α} (h : entries.keys.Nodup) (key : String) (value : α) :
    (entries.insert key value).keys.Nodup := by
  rw [keys_insert]
  split
  · exact h
  · rename_i hkey
    refine List.nodup_append.mpr ⟨h, by simp, ?_⟩
    rintro a ha b hb rfl
    exact hkey (List.mem_singleton.mp hb ▸ ha)

/-! ## Other values under the same keys -/

@[simp] theorem mapValues_nil (f : α → β) : mapValues [] f = [] := rfl

@[simp] theorem mapValues_cons (entry : String × α) (rest : Entries α) (f : α → β) :
    mapValues (entry :: rest) f = (entry.1, f entry.2) :: mapValues rest f := rfl

@[simp] theorem keys_mapValues (entries : Entries α) (f : α → β) : (entries.mapValues f).keys = entries.keys := by
  simp [keys, mapValues]

theorem get?_mapValues (entries : Entries α) (f : α → β) (key : String) :
    (entries.mapValues f).get? key = (entries.get? key).map f := by
  induction entries with
  | nil => rfl
  | cons entry rest ih => by_cases h : entry.1 = key <;> simp [get?_cons, h, ih]

theorem insert_mapValues (entries : Entries α) (f : α → β) (key : String) (value : α) :
    (entries.mapValues f).insert key (f value) = (entries.insert key value).mapValues f := by
  induction entries with
  | nil => rfl
  | cons entry rest ih => by_cases h : entry.1 = key <;> simp [insert, h, ih]

/-! ## One write after another -/

theorem modify_insert (entries : Entries α) (key : String) (value : α) (change : α → α) :
    (entries.insert key value).modify key change = entries.insert key (change value) := by
  induction entries with
  | nil => simp [insert, modify]
  | cons entry rest ih => by_cases h : entry.1 = key <;> simp [insert, modify, h, ih]

theorem modify_modify (entries : Entries α) (key : String) (first second : α → α) :
    (entries.modify key first).modify key second = entries.modify key (second ∘ first) := by
  induction entries with
  | nil => rfl
  | cons entry rest ih => by_cases h : entry.1 = key <;> simp [modify, h, ih]

theorem modify_id (entries : Entries α) (key : String) : entries.modify key id = entries := by
  induction entries with
  | nil => rfl
  | cons entry rest ih =>
    by_cases h : entry.1 = key
    · subst h
      simp [modify]
    · simp [modify, h, ih]

theorem insert_of_get? {entries : Entries α} {key : String} {value : α} (h : entries.get? key = some value) :
    entries.insert key value = entries := by
  induction entries with
  | nil => cases h
  | cons entry rest ih =>
    rw [get?_cons] at h
    split at h
    · rename_i hkey
      obtain rfl := Option.some.inj h
      simp [insert, ← hkey]
    · rename_i hkey
      simp [insert, hkey, ih h]

theorem insert_of_not_mem {entries : Entries α} {key : String} (h : key ∉ entries.keys) (value : α) :
    entries.insert key value = entries ++ [(key, value)] := by
  induction entries with
  | nil => rfl
  | cons entry rest ih =>
    simp only [keys_cons, List.mem_cons, not_or] at h
    simp [insert, Ne.symm h.1, ih h.2]

/-- Entries under new keys that differ from each other are added as they are. -/
theorem merge_eq_append {entries later : Entries α} (h : (entries ++ later).keys.Nodup) :
    entries.merge later = entries ++ later := by
  induction later generalizing entries with
  | nil => simp [merge]
  | cons entry later ih =>
    have hnew : entry.1 ∉ entries.keys := by
      intro hmem
      rw [keys, List.map_append] at h
      exact (List.nodup_append.mp h).2.2 _ hmem _ List.mem_cons_self rfl
    rw [← List.singleton_append, ← List.append_assoc] at h ⊢
    rw [← ih h, ← insert_of_not_mem hnew]
    rfl

theorem nil_merge {later : Entries α} (h : later.keys.Nodup) : merge [] later = later :=
  merge_eq_append (by rwa [List.nil_append])

end Entries

end LayeredConfig
