import LayeredConfig.Proofs.Handle.Access
import LayeredConfig.Proofs.Store.Region

/-!
# Where an access writes

An access through a handle stays in every closed region that has the handle's section in it, and gives nothing that
is not in the region.
-/

namespace LayeredConfig.Handle

/-- The sections that the handle knows are in the region. -/
def Within (region : Set SectionId) (handle : Handle) : Prop := handle.scope ∈ region ∧ handle.root ∈ region

theorem Within.mono {region larger : Set SectionId} {handle : Handle} (h : handle.Within region)
    (hsubset : region ⊆ larger) : handle.Within larger := ⟨hsubset h.1, hsubset h.2⟩

variable {store after : Store} {region : Set SectionId} {handle : Handle} {within : Option String}
  {key : String} {owner : SectionId} {value : Value}

theorem owner_mem (hclosed : store.Closed region) (hscope : handle.scope ∈ region)
    (h : handle.owner store within = .ok owner) : owner ∈ region := by
  cases within with
  | none =>
      cases h
      exact hscope
  | some name =>
      simp only [Handle.owner] at h
      cases hchild : store.child? handle.scope name with
      | none =>
          rw [hchild] at h
          cases h
      | some child =>
          rw [hchild] at h
          cases h
          exact hclosed.of_child? hscope hchild

theorem Finds.value_within (hclosed : store.Closed region) (howner : owner ∈ region)
    (h : Finds store handle owner key value) : value.Within region := by
  obtain ⟨stored, hstored, hsection⟩ := h.exists_stored
  intro id hid
  exact hclosed.of_get? howner hstored id (hsection ▸ hid)

theorem lookup_within (hclosed : store.Closed region) (hscope : handle.scope ∈ region)
    (h : handle.lookup store within key = .ok (some value)) : value.Within region := by
  obtain ⟨owner, howner, hfinds⟩ := lookup_eq_ok_some_iff.mp h
  exact hfinds.value_within hclosed (owner_mem hclosed hscope howner)

theorem put_edits (hclosed : store.Closed region) (hscope : handle.scope ∈ region) (hvalue : value.Within region)
    (h : handle.put store within key value = .ok after) : store.Edits region after := by
  obtain ⟨owner, howner, h⟩ := bind_eq_ok_iff.mp h
  cases h
  refine Store.Edits.refl.insert ?_ ?_
  · exact Store.subset_grown (owner_mem hclosed hscope howner)
  · exact hvalue.mono Store.subset_grown

/-- A read that finds nothing changes nothing. -/
theorem read_eq_ok_none {target : Kind} (h : handle.read store target within key = .ok (none, after)) :
    after = store := by
  obtain ⟨found?, -, h⟩ := bind_eq_ok_iff.mp h
  cases found? with
  | none =>
      cases h
      rfl
  | some found =>
      by_cases hkind : found.kind = target
      · simp only [hkind, if_true] at h
        cases h
      · simp only [hkind, if_false] at h
        obtain ⟨converted, -, h⟩ := bind_eq_ok_iff.mp h
        obtain ⟨written, -, h⟩ := bind_eq_ok_iff.mp h
        cases h

theorem read_edits {target : Kind} {value? : Option Value} (hclosed : store.Closed region)
    (hscope : handle.scope ∈ region) (h : handle.read store target within key = .ok (value?, after)) :
    store.Edits region after ∧ ∀ value, value? = some value → value.Within region := by
  cases value? with
  | none =>
      obtain rfl := read_eq_ok_none h
      exact ⟨.refl, fun value hvalue => by cases hvalue⟩
  | some value =>
      obtain ⟨owner, found, howner, hfinds, hresult⟩ := read_eq_ok_some_iff.mp h
      have hmem := owner_mem hclosed hscope howner
      have hfound := hfinds.value_within hclosed hmem
      rcases hresult with ⟨_, rfl, rfl⟩ | ⟨_, hconvert, rfl⟩
      · refine ⟨.refl, fun other hother => ?_⟩
        cases hother
        exact hfound
      · have hvalue : value.Within region := fun id hid =>
          hfound id (Value.section?_of_convert hconvert ▸ hid)
        refine ⟨Store.Edits.refl.insert (Store.subset_grown hmem) (hvalue.mono Store.subset_grown), ?_⟩
        intro other hother
        cases hother
        exact hvalue

theorem readText_edits {text? : Option String} (hclosed : store.Closed region) (hscope : handle.scope ∈ region)
    (h : handle.readText store within key = .ok (text?, after)) : store.Edits region after := by
  obtain ⟨⟨value?, left⟩, hread, h⟩ := bind_eq_ok_iff.mp h
  cases h
  exact (read_edits hclosed hscope hread).1

theorem readNested_edits {nested? : Option Handle} (hclosed : store.Closed region)
    (hscope : handle.scope ∈ region) (h : handle.readNested store within key = .ok (nested?, after)) :
    store.Edits region after ∧
      ∀ nested, nested? = some nested → nested.scope ∈ region ∧ nested.root = handle.root := by
  obtain ⟨⟨value?, left⟩, hread, h⟩ := bind_eq_ok_iff.mp h
  cases h
  obtain ⟨hedits, hvalue⟩ := read_edits hclosed hscope hread
  refine ⟨hedits, fun nested hnested => ?_⟩
  obtain ⟨id, hid, rfl⟩ := Option.map_eq_some_iff.mp hnested
  obtain ⟨value, hsome, hsection⟩ := Option.bind_eq_some_iff.mp hid
  exact ⟨hvalue value hsome id hsection, rfl⟩

end LayeredConfig.Handle
