import LayeredConfig.Proofs.Entries.Match
import LayeredConfig.Proofs.Projection.Walk
import LayeredConfig.Proofs.Reference.Failures
import LayeredConfig.Proofs.Store.Region

/-!
# Which sections have a projection

The walk of a projection comes to every section that can be reached, and has around each place the sections of one way
to it. So it fails where a section contains itself and where a text does not resolve, and nowhere else: neither
where it comes to a section twice, nor at any depth.
-/

namespace LayeredConfig

namespace Store

/-- The section stands in itself at some depth. -/
def Cyclic (store : Store) (id : SectionId) : Prop := Relation.TransGen store.Links id id

/-- Every text of the section resolves. -/
def Resolvable (store : Store) (root id : SectionId) : Prop :=
  ∀ key raw, (key, Value.text raw) ∈ store.entries id → ∃ text, store.resolve root id raw = .ok text

variable {store : Store} {root id inner : SectionId} {opened : List SectionId} {fields : List (String × Projection)}

/-! ## A projection that is there -/

theorem projectWithin_eq_ok_iff :
    store.projectWithin root opened id = .ok fields ↔ id ∉ opened ∧
      Entries.Match (fun value field => store.projectValue root opened id value = .ok field)
        (store.entries id) fields := by
  rw [projectWithin_eq]
  split
  · rename_i hopened
    simp [hopened]
  · rename_i hopened
    have hpair (entry : String × Value) (field : String × Projection) :
        ((store.projectValue root opened id entry.2).map fun value => (entry.1, value)) = .ok field ↔
          entry.1 = field.1 ∧ store.projectValue root opened id entry.2 = .ok field.2 := by
      rw [map_eq_ok_iff]
      constructor
      · rintro ⟨value, hvalue, rfl⟩
        exact ⟨rfl, hvalue⟩
      · rintro ⟨hkey, hvalue⟩
        exact ⟨field.2, hvalue, Prod.ext hkey rfl⟩
    simp [mapM_eq_ok_iff, hpair, hopened]

theorem resolvable_of_projectWithin (h : store.projectWithin root opened id = .ok fields) :
    store.Resolvable root id := by
  intro key raw hraw
  obtain ⟨_, hfields⟩ := projectWithin_eq_ok_iff.mp h
  obtain ⟨field, hfield⟩ := hfields.exists_of_mem hraw
  obtain ⟨text, htext, _⟩ := map_eq_ok_iff.mp hfield
  exact ⟨text, htext⟩

theorem projectWithin_of_links (h : store.projectWithin root opened id = .ok fields) (hlink : store.Links id inner) :
    ∃ fields, store.projectWithin root (id :: opened) inner = .ok fields := by
  obtain ⟨⟨key, value⟩, hentry, hsection⟩ := hlink
  obtain ⟨_, hfields⟩ := projectWithin_eq_ok_iff.mp h
  obtain ⟨field, hfield⟩ := hfields.exists_of_mem hentry
  cases value with
  | scalar content => cases hsection
  | nested role child =>
      cases hsection
      obtain ⟨within, hwithin, _⟩ := map_eq_ok_iff.mp hfield
      exact ⟨within, hwithin⟩

theorem projectWithin_of_reaches (h : store.projectWithin root opened id = .ok fields)
    (hreaches : store.Reaches id inner) :
    ∃ around fields, store.projectWithin root around inner = .ok fields := by
  induction hreaches with
  | refl => exact ⟨opened, fields, h⟩
  | tail _ hlink ih =>
      obtain ⟨around, within, hwithin⟩ := ih
      exact ⟨_, projectWithin_of_links hwithin hlink⟩

theorem not_mem_of_projectWithin (h : store.projectWithin root opened id = .ok fields)
    (hreaches : store.Reaches id inner) : inner ∉ opened := by
  induction hreaches using Relation.ReflTransGen.head_induction_on generalizing opened fields with
  | refl => exact (projectWithin_eq_ok_iff.mp h).1
  | head hlink _ ih =>
      obtain ⟨within, hwithin⟩ := projectWithin_of_links h hlink
      exact fun hmem => ih hwithin (List.mem_cons_of_mem _ hmem)

theorem not_cyclic_of_projectWithin (h : store.projectWithin root opened id = .ok fields) : ¬ store.Cyclic id := by
  intro hcyclic
  obtain ⟨child, hlink, hback⟩ := Relation.TransGen.head'_iff.mp hcyclic
  obtain ⟨within, hwithin⟩ := projectWithin_of_links h hlink
  exact not_mem_of_projectWithin hwithin hback List.mem_cons_self

/-! ## A projection that fails -/

/-- A way back to one of the sections around a place, or to a section that lies further down, closes a cycle. -/
def ClosesCycle (store : Store) (opened : List SectionId) (id : SectionId) : Prop :=
  (∃ outer ∈ opened, store.Reaches id outer) ∨ ∃ inner, store.Reaches id inner ∧ store.Cyclic inner

theorem ClosesCycle.of_child (hlink : store.Links id inner) (h : store.ClosesCycle (id :: opened) inner) :
    store.ClosesCycle opened id := by
  rcases h with ⟨outer, houter, hreaches⟩ | ⟨deeper, hreaches, hcyclic⟩
  · rcases List.mem_cons.mp houter with rfl | hmem
    · exact .inr ⟨outer, .refl, .head' hlink hreaches⟩
    · exact .inl ⟨outer, hmem, .head hlink hreaches⟩
  · exact .inr ⟨deeper, .head hlink hreaches, hcyclic⟩

/-- A projection that fails has come back to a section around a place, or to a text that does not resolve. -/
theorem projectWithin_eq_error {failure : Failure} (h : store.projectWithin root opened id = .error failure) :
    (∃ depth, failure = .selfContaining depth) ∧ store.ClosesCycle opened id ∨
      ∃ inner key raw, store.Reaches id inner ∧ (key, Value.text raw) ∈ store.entries inner ∧
        store.resolve root inner raw = .error failure := by
  induction opened, id using store.walk_induction with
  | step opened id ih =>
      rw [projectWithin_eq] at h
      split at h
      · rename_i hopened
        cases h
        exact .inl ⟨⟨_, rfl⟩, .inl ⟨id, hopened, .refl⟩⟩
      · rename_i hopened
        obtain ⟨⟨key, value⟩, hentry, hfails⟩ := exists_of_mapM_eq_error h
        have hvalue := map_eq_error_iff.mp hfails
        cases value with
        | scalar content =>
            cases content with
            | text raw => exact .inr ⟨id, key, raw, .refl, hentry, map_eq_error_iff.mp hvalue⟩
            | _ => cases hvalue
        | nested role child =>
            have hlink : store.Links id child := ⟨_, hentry, rfl⟩
            rcases ih hopened (lt_size_of_mem_entries hentry) child (map_eq_error_iff.mp hvalue) with
              ⟨hfailure, hcycle⟩ | ⟨inner, name, raw, hreaches, hraw, hresolve⟩
            · exact .inl ⟨hfailure, hcycle.of_child hlink⟩
            · exact .inr ⟨inner, name, raw, .head hlink hreaches, hraw, hresolve⟩

end Store

namespace Handle

variable {store : Store} {handle : Handle}

theorem projection_eq_error {failure : Failure} (h : handle.projection store = .error failure) :
    (∃ depth, failure = .selfContaining depth) ∧ (∃ id, store.Reaches handle.scope id ∧ store.Cyclic id) ∨
      failure.OfReference ∧ ∃ id key raw, store.Reaches handle.scope id ∧
        (key, Value.text raw) ∈ store.entries id ∧ store.resolve handle.root id raw = .error failure := by
  rcases Store.projectWithin_eq_error (map_eq_error_iff.mp h) with
    ⟨hfailure, ⟨outer, houter, _⟩ | hcyclic⟩ | ⟨id, key, raw, hreaches, hraw, hresolve⟩
  · cases houter
  · exact .inl ⟨hfailure, hcyclic⟩
  · exact .inr ⟨Store.ofReference_of_resolve hresolve, id, key, raw, hreaches, hraw, hresolve⟩

/-- There is a projection exactly if no section that can be reached contains itself and all their texts resolve. It
fails as self-containing only if one of these sections does contain itself, and otherwise as one of their texts does. -/
theorem exists_projection_iff (store : Store) (handle : Handle) :
    ((∃ projection, handle.projection store = .ok projection) ↔
      ∀ id, store.Reaches handle.scope id → ¬ store.Cyclic id ∧ store.Resolvable handle.root id) ∧
    ∀ failure, handle.projection store = .error failure →
      (∃ depth, failure = .selfContaining depth) ∧ (∃ id, store.Reaches handle.scope id ∧ store.Cyclic id) ∨
        failure.OfReference ∧ ∃ id key raw, store.Reaches handle.scope id ∧
          (key, Value.text raw) ∈ store.entries id ∧ store.resolve handle.root id raw = .error failure := by
  refine ⟨⟨?_, ?_⟩, fun failure => projection_eq_error⟩
  · rintro ⟨projection, h⟩ id hreaches
    obtain ⟨fields, hfields, _⟩ := map_eq_ok_iff.mp h
    obtain ⟨around, within, hwithin⟩ := Store.projectWithin_of_reaches hfields hreaches
    exact ⟨Store.not_cyclic_of_projectWithin hwithin, Store.resolvable_of_projectWithin hwithin⟩
  · intro h
    cases hprojection : handle.projection store with
    | ok projection => exact ⟨projection, rfl⟩
    | error failure =>
        rcases projection_eq_error hprojection with ⟨_, id, hreaches, hcyclic⟩ | ⟨_, id, key, raw, hreaches, hraw, hfails⟩
        · exact absurd hcyclic (h id hreaches).1
        · obtain ⟨text, htext⟩ := (h id hreaches).2 key raw hraw
          rw [hfails] at htext
          cases htext

end Handle

end LayeredConfig
