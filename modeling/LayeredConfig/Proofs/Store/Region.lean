import LayeredConfig.Store.Basic
import Mathlib.Data.Set.Insert
import Mathlib.Logic.Relation
import Mathlib.Order.Interval.Set.Basic

/-!
# Regions of the store

Whatever is done to a store is a row of two kinds of writes: an entry is written, or a section is made. If every
write goes to a region of the store, and what is written names only sections of the region or sections that were
made on the way, then no other section changes, and the region stays closed with what was added to it.
-/

namespace LayeredConfig

/-- The value is no section, or one of the region. -/
def Value.Within (region : Set SectionId) (value : Value) : Prop :=
  ∀ id, value.section? = some id → id ∈ region

theorem Value.Within.mono {region larger : Set SectionId} {value : Value} (h : value.Within region)
    (hsubset : region ⊆ larger) : value.Within larger := fun id hid => hsubset (h id hid)

namespace Store

/-- The section `child` stands in `parent`. -/
def Links (store : Store) (parent child : SectionId) : Prop :=
  ∃ entry ∈ store.entries parent, entry.2.section? = some child

/-- The second section is the first, or stands in it at some depth. -/
abbrev Reaches (store : Store) : SectionId → SectionId → Prop := Relation.ReflTransGen store.Links

/-- Only sections of the region stand in its sections. -/
def Closed (store : Store) (region : Set SectionId) : Prop :=
  ∀ parent ∈ region, ∀ entry ∈ store.entries parent, entry.2.Within region

/-- The region, and the sections that `after` has and `store` has not. -/
def grown (store : Store) (region : Set SectionId) (after : Store) : Set SectionId :=
  region ∪ Set.Ico store.size after.size

/-- The second store comes from the first by writes to the region and to sections that are made. -/
inductive Edits (store : Store) (region : Set SectionId) : Store → Prop where
  | refl : Edits store region store
  | insert {after id key value} : Edits store region after → id ∈ store.grown region after →
      value.Within (store.grown region after) → Edits store region (after.insert id key value)
  | alloc {after entries} : Edits store region after →
      (∀ entry ∈ entries, entry.2.Within (store.grown region after)) →
      Edits store region (after.alloc entries).2

variable {store middle after : Store} {region : Set SectionId} {id : SectionId} {key : String}

/-! ## Closed regions -/

theorem Closed.of_get? {value : Value} (h : store.Closed region) (hid : id ∈ region)
    (hvalue : store.get? id key = some value) : value.Within region :=
  h id hid (key, value) (Entries.mem_of_get? hvalue)

theorem Closed.of_child? {child : SectionId} (h : store.Closed region) (hid : id ∈ region)
    (hchild : store.child? id key = some child) : child ∈ region := by
  obtain ⟨value, hvalue, hsection⟩ := Option.bind_eq_some_iff.mp hchild
  exact h.of_get? hid hvalue child hsection

theorem Closed.of_reaches {inner : SectionId} (h : store.Closed region) (hid : id ∈ region)
    (hreaches : store.Reaches id inner) : inner ∈ region := by
  induction hreaches with
  | refl => exact hid
  | tail _ hlink ih =>
      obtain ⟨entry, hentry, hsection⟩ := hlink
      exact h _ ih entry hentry _ hsection

theorem closed_empty (store : Store) : store.Closed ∅ := fun _ hid => absurd hid (Set.notMem_empty _)

/-! ## The region grows -/

theorem subset_grown : region ⊆ store.grown region after := Set.subset_union_left

@[simp] theorem grown_self : store.grown region store = region := by
  rw [grown, Set.Ico_self, Set.union_empty]

@[simp] theorem grown_insert (value : Value) :
    store.grown region (after.insert id key value) = store.grown region after := by
  rw [grown, grown, size_insert]

theorem grown_alloc (h : store.size ≤ after.size) (entries : Entries Value) :
    store.grown region (after.alloc entries).2 = Insert.insert after.size (store.grown region after) := by
  ext id
  simp only [grown, size_alloc, Set.mem_union, Set.mem_Ico, Set.mem_insert_iff]
  grind

theorem grown_mono (h : middle.size ≤ after.size) : store.grown region middle ⊆ store.grown region after :=
  Set.union_subset_union_right region (Set.Ico_subset_Ico_right h)

theorem grown_grown (hmiddle : store.size ≤ middle.size) (hafter : middle.size ≤ after.size) :
    middle.grown (store.grown region middle) after = store.grown region after := by
  ext id
  simp only [grown, Set.mem_union, Set.mem_Ico]
  grind

namespace Edits

theorem size_le (h : store.Edits region after) : store.size ≤ after.size := by
  induction h with
  | refl => exact Nat.le_refl _
  | insert _ _ _ ih => rwa [size_insert]
  | alloc _ _ ih =>
      rw [size_alloc]
      exact Nat.le_succ_of_le ih

theorem mono {larger : Set SectionId} (h : store.Edits region after) (hsubset : region ⊆ larger) :
    store.Edits larger after := by
  have hgrown (after : Store) : store.grown region after ⊆ store.grown larger after :=
    Set.union_subset_union_left _ hsubset
  induction h with
  | refl => exact .refl
  | insert _ hid hvalue ih => exact ih.insert (hgrown _ hid) (hvalue.mono (hgrown _))
  | alloc _ hentries ih => exact ih.alloc fun entry hentry => (hentries entry hentry).mono (hgrown _)

theorem trans (h : store.Edits region middle) (hnext : middle.Edits (store.grown region middle) after) :
    store.Edits region after := by
  induction hnext with
  | refl => exact h
  | insert hnext hid hvalue ih =>
      rw [grown_grown h.size_le hnext.size_le] at hid hvalue
      exact ih.insert hid hvalue
  | alloc hnext hentries ih =>
      rw [grown_grown h.size_le hnext.size_le] at hentries
      exact ih.alloc hentries

/-- The region after an edit of an edit. -/
theorem grown_trans (h : store.Edits region middle) (hnext : middle.Edits (store.grown region middle) after) :
    middle.grown (store.grown region middle) after = store.grown region after :=
  grown_grown h.size_le hnext.size_le

/-! ## What an edit keeps -/

/-- Sections outside the region have the entries that they had. -/
theorem entries_eq (h : store.Edits region after) (hid : id ∉ store.grown region after) :
    after.entries id = store.entries id := by
  induction h with
  | refl => rfl
  | insert _ hplace _ ih =>
      rw [grown_insert] at hid
      have hne : _ ≠ id := ne_of_mem_of_not_mem hplace hid
      rw [entries_insert_of_ne hne, ih hid]
  | alloc hedits _ ih =>
      rw [grown_alloc hedits.size_le, Set.mem_insert_iff, not_or] at hid
      rw [entries_alloc_of_ne hid.1, ih hid.2]

theorem entries_eq_of_lt (h : store.Edits region after) (hlt : id < store.size) (hid : id ∉ region) :
    after.entries id = store.entries id :=
  h.entries_eq fun hgrown => hgrown.elim hid fun hnew => absurd hnew.1 (Nat.not_le_of_lt hlt)

theorem closed (h : store.Edits region after) (hclosed : store.Closed region) :
    after.Closed (store.grown region after) := by
  induction h with
  | refl => rwa [grown_self]
  | insert _ _ hvalue ih =>
      rw [grown_insert]
      intro parent hparent entry hentry
      rcases mem_entries_insert hentry with ⟨_, rfl⟩ | hold
      · exact hvalue
      · exact ih parent hparent entry hold
  | @alloc middle entries hedits hentries ih =>
      rw [grown_alloc hedits.size_le]
      intro parent hparent entry hentry
      by_cases hnew : parent = middle.size
      · rw [hnew, show middle.size = (middle.alloc entries).1 from rfl, entries_alloc_self] at hentry
        exact (hentries entry hentry).mono (Set.subset_insert _ _)
      · rw [entries_alloc_of_ne hnew] at hentry
        exact (ih parent (hparent.resolve_left hnew) entry hentry).mono (Set.subset_insert _ _)

end Edits

end Store

end LayeredConfig
