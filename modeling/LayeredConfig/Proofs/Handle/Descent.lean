import LayeredConfig.Document.Draft
import LayeredConfig.Proofs.Handle.Access
import LayeredConfig.Proofs.Projection.Success
import LayeredConfig.Proofs.Store.Roles
import Mathlib.Data.List.Permutation

/-!
# From handle to handle down a tree

A handle on a section gives handles on the sections in it, and these give more. What is read through the last handle
of such a row is what the projection from the first one has in that place, although the sections on the way have
been handed out since.
-/

namespace LayeredConfig

/-- The value that a path leads to. -/
def Projection.follow (projection : Projection) : (path : List String) → Option Projection
  | [] => some projection
  | key :: path =>
    match projection with
    | .object fields => (Entries.get? fields key).bind fun next => next.follow path
    | _ => none

theorem Projection.follow_cons (document : Projection) (key : String) (path : List String) :
    document.follow (key :: path) = (document.follow [key]).bind (·.follow path) := by
  cases document with
  | object fields => simp [follow]
  | _ => rfl

/-- The plain value of a scalar whose references are resolved. -/
def Scalar.plain : Scalar → Projection
  | .text value => .text value
  | .int n => .int n.toInt
  | .long n => .int n.toInt
  | .bool b => .bool b
  | .array items => .list items

namespace Handle

/-- Goes down a path, from each section to the next by a handle that is handed out on the way. -/
def descend (store : Store) (handle : Handle) : (path : List String) → Except Failure (Option Handle × Store)
  | [] => .ok (some handle, store)
  | key :: path => do
    let (nested?, store) ← handle.readNested store none key
    match nested? with
    | none => return (none, store)
    | some nested => nested.descend store path

/-- The plain value of what was found through the handle. A section is shown by a handle on it with the same root. -/
def shown (store : Store) (handle : Handle) : Value → Except Failure Projection
  | .scalar content => .ok content.plain
  | .nested _ id => { handle with scope := id }.projection store

end Handle

namespace Store

variable {store : Store} {root id : SectionId} {opened : List SectionId} {fields : List (String × Projection)}

/-- A projection that is there does not depend on the sections around it. -/
theorem projectWithin_of_subset {fewer : List SectionId} (hsubset : fewer ⊆ opened)
    (h : store.projectWithin root opened id = .ok fields) : store.projectWithin root fewer id = .ok fields := by
  induction opened, id using store.walk_induction generalizing fewer fields with
  | step opened id ih =>
      obtain ⟨hopened, hfields⟩ := projectWithin_eq_ok_iff.mp h
      apply projectWithin_eq_ok_iff.mpr
      constructor
      · exact fun hmem => hopened (hsubset hmem)
      · by_cases hid : id < store.size
        · apply hfields.imp
          rintro ⟨key, value⟩ field ⟨hkey, hvalue⟩
          constructor
          · exact hkey
          · cases value with
            | scalar content => exact hvalue
            | nested role child =>
                obtain ⟨within, hwithin, hobject⟩ := map_eq_ok_iff.mp hvalue
                have hchild := ih hopened hid child (List.cons_subset_cons id hsubset) hwithin
                exact map_eq_ok_iff.mpr ⟨within, hchild, hobject⟩
        · rw [entries_of_size_le (Nat.le_of_not_lt hid)] at hfields ⊢
          cases hfields
          exact .nil

/-- In the place of a section, a projection has the projection of the section. -/
theorem follow_of_projectWithin {path : List String} {role : Role} {inner : SectionId}
    (h : store.projectWithin root opened id = .ok fields)
    (hpath : store.sectionAt (.nested role id) path = some inner) :
    ∃ within, (Projection.object fields).follow path = some (.object within) ∧
      store.projectWithin root [] inner = .ok within := by
  induction path generalizing opened id role fields with
  | nil =>
      cases hpath
      exact ⟨fields, rfl, projectWithin_of_subset (List.nil_subset opened) h⟩
  | cons key path ih =>
      obtain ⟨childRole, child, hvalue, hpath⟩ := exists_of_sectionAt_cons hpath
      obtain ⟨field, hfield, hchild⟩ := (projectWithin_eq_ok_iff.mp h).2.exists_of_get? hvalue
      obtain ⟨inside, hinside, rfl⟩ := map_eq_ok_iff.mp hchild
      obtain ⟨within, hfollow, hwithin⟩ := ih hinside hpath
      exact ⟨within, by simpa [Projection.follow, hfield] using hfollow, hwithin⟩

end Store

namespace Handle

variable {store after : Store} {handle : Handle} {key : String}

/-- A section that is there is handed out, and at most its role is changed. -/
theorem readNested_of_get? {role : Role} {id : SectionId}
    (h : store.get? handle.scope key = some (.nested role id)) :
    ∃ after, handle.readNested store none key = .ok (some { handle with scope := id }, after) ∧
      after.bare = store.bare := by
  have hkind : (Value.nested role id).kind ≠ .scalar .text := by simp [Value.kind]
  have hfound : Finds store handle handle.scope key (.nested role id) := .held h hkind
  have howner : handle.owner store none = .ok handle.scope := rfl
  by_cases hrole : role = .handedOut
  · subst hrole
    have hread := read_eq_ok_some_iff.mpr ⟨_, _, howner, hfound, .inl ⟨rfl, rfl, rfl⟩⟩
    exact ⟨store, bind_eq_ok_iff.mpr ⟨_, hread, rfl⟩, rfl⟩
  · have hne : (Value.nested role id).kind ≠ .nested .handedOut := by simpa [Value.kind] using hrole
    have hread := read_eq_ok_some_iff.mpr ⟨_, _, howner, hfound, .inr ⟨hne, rfl, rfl⟩⟩
    exact ⟨_, bind_eq_ok_iff.mpr ⟨_, hread, rfl⟩, Store.bare_insert_of_get? h rfl⟩

/-- The sections of a path are handed out one after another. -/
theorem descend_of_sectionAt {path : List String} {id : SectionId}
    (h : store.sectionAt handle.tree path = some id) :
    ∃ after, handle.descend store path = .ok (some { handle with scope := id }, after) ∧ after.bare = store.bare := by
  induction path generalizing store handle with
  | nil =>
      cases h
      exact ⟨store, rfl, rfl⟩
  | cons key path ih =>
      obtain ⟨role, child, hvalue, h⟩ := Store.exists_of_sectionAt_cons h
      obtain ⟨middle, hread, hmiddle⟩ := readNested_of_get? hvalue
      rw [Store.sectionAt_role store role .plain, ← Store.sectionAt_of_bare hmiddle] at h
      have hchild : middle.sectionAt { handle with scope := child : Handle }.tree path = some id := h
      obtain ⟨after, hdescend, hafter⟩ := ih hchild
      exact ⟨after, bind_eq_ok_iff.mpr ⟨_, hread, hdescend⟩, hafter.trans hmiddle⟩

/-- What is found under a key is shown as it is in the projection of the section. -/
theorem lookup_of_projectWithin (handle : Handle) {fields : List (String × Projection)}
    (h : store.projectWithin handle.root [] handle.scope = .ok fields) (key : String) :
    (handle.lookup store none key = .ok none ∧ Entries.get? fields key = none) ∨
      ∃ value field, handle.lookup store none key = .ok (some value) ∧ Entries.get? fields key = some field ∧
        handle.shown store value = .ok field := by
  have howner : handle.owner store none = .ok handle.scope := rfl
  obtain ⟨_, hfields⟩ := Store.projectWithin_eq_ok_iff.mp h
  cases hvalue : store.get? handle.scope key with
  | none => exact .inl ⟨lookup_of_none howner hvalue, hfields.get?_eq_none hvalue⟩
  | some value =>
      obtain ⟨field, hget, hshown⟩ := hfields.exists_of_get? hvalue
      right
      by_cases hkind : value.kind = .scalar .text
      · obtain ⟨raw, rfl⟩ := Value.eq_text_of_kind hkind
        obtain ⟨text, htext, rfl⟩ := map_eq_ok_iff.mp hshown
        have hlookup := lookup_of_text howner hvalue
        rw [htext] at hlookup
        exact ⟨.text text, .text text, hlookup, hget, rfl⟩
      · refine ⟨value, field, lookup_of_kind_ne howner hvalue hkind, hget, ?_⟩
        cases value with
        | scalar content =>
            cases content with
            | text raw => exact absurd rfl hkind
            | _ => exact hshown
        | nested role id =>
            obtain ⟨within, hwithin, hobject⟩ := map_eq_ok_iff.mp hshown
            have hinner := Store.projectWithin_of_subset (List.nil_subset _) hwithin
            exact map_eq_ok_iff.mpr ⟨within, hinner, hobject⟩

/-- Where the projection of a handle leads to an object, handles lead to the section of it, and reading a key there gives
what the object has under the key. The projection stays the same. -/
theorem descend_projection {document : Projection} {path : List String} {id : SectionId}
    (hdocument : handle.projection store = .ok document) (hpath : store.sectionAt handle.tree path = some id) :
    ∃ last after fields, handle.descend store path = .ok (some last, after) ∧
      document.follow path = some (.object fields) ∧ handle.projection after = .ok document ∧
      ∀ key, (last.lookup after none key = .ok none ↔ Entries.get? fields key = none) ∧
        ∀ member, Entries.get? fields key = some member →
          ∃ value, last.lookup after none key = .ok (some value) ∧ last.shown after value = .ok member := by
  obtain ⟨after, hdescend, hbare⟩ := descend_of_sectionAt hpath
  rw [← projection_of_bare hbare handle] at hdocument
  rw [← Store.sectionAt_of_bare hbare] at hpath
  obtain ⟨document, hprojection, rfl⟩ := map_eq_ok_iff.mp hdocument
  obtain ⟨fields, hfollow, hfields⟩ := Store.follow_of_projectWithin hprojection hpath
  refine ⟨{ handle with scope := id }, after, fields, hdescend, hfollow, hdocument, fun key => ?_⟩
  rcases lookup_of_projectWithin { handle with scope := id } hfields key with
    ⟨hlookup, hnone⟩ | ⟨value, field, hlookup, hsome, hshown⟩
  · simp [hlookup, hnone]
  · simp [hlookup, hsome, hshown]

/-- A store with a document in which a section further down refers to one on top. -/
def database : SectionId × Store :=
  Store.empty.addDocument (Document.ofText "app:\n- env: dev\nsvc:\n- db:\n  - name: db_$\x7bapp.env\x7d\n")

theorem lookup_database :
    ∃ last after value, (ofRoot database.1).descend database.2 ["svc", "db"] = .ok (some last, after) ∧
      last.lookup after none "name" = .ok (some value) ∧ last.shown after value = .ok (.text "db_dev") := by
  have hdocument : (ofRoot database.1).projection database.2 = .ok (.object
      [("app", .object [("env", .text "dev")]), ("svc", .object [("db", .object [("name", .text "db_dev")])])]) := by
    cbv
  have hpath : database.2.sectionAt (ofRoot database.1).tree ["svc", "db"] = some 1 := by
    cbv
  obtain ⟨last, after, fields, hdescend, hfollow, _, hkeys⟩ := descend_projection hdocument hpath
  obtain rfl : [("name", .text "db_dev")] = fields := by simpa [Projection.follow, Entries.get?_cons] using hfollow
  obtain ⟨value, hlookup, hshown⟩ := (hkeys "name").2 (.text "db_dev") rfl
  exact ⟨last, after, value, hdescend, hlookup, hshown⟩

end Handle

end LayeredConfig
