import LayeredConfig.Proofs.Projection.Walk
import LayeredConfig.Proofs.Store.Carried
import LayeredConfig.Proofs.Store.Path

/-!
# Sections without their roles

Whether a section was handed out is a mark on the entry that holds it. Paths, references and projections do not see the
mark: they are the same in a store and in what is left of it without the marks. What is written to a section is carried
along when the marks are taken away.
-/

namespace LayeredConfig

/-- The value as if it had not been handed out. -/
def Value.bare : Value → Value
  | .scalar content => .scalar content
  | .nested _ id => .nested .plain id

@[simp] theorem Value.section?_bare (value : Value) : value.bare.section? = value.section? := by
  cases value <;> rfl

@[simp] theorem Value.bare_bare (value : Value) : value.bare.bare = value.bare := by
  cases value <;> rfl

namespace Store

def bare (store : Store) : Store := ⟨store.cells.map (Entries.mapValues · Value.bare)⟩

variable {store after : Store} {root id : SectionId} {key : String} {value : Value}

@[simp] theorem bare_bare (store : Store) : store.bare.bare = store.bare := by
  simp [bare, Entries.mapValues, Function.comp_def]

@[simp] theorem entries_bare (store : Store) (id : SectionId) :
    store.bare.entries id = (store.entries id).mapValues Value.bare := by
  simp only [bare, entries, Array.getElem?_map]
  cases store.cells[id]? <;> rfl

@[simp] theorem get?_bare (store : Store) (id : SectionId) (key : String) :
    store.bare.get? id key = (store.get? id key).map Value.bare := by
  simp [get?, Entries.get?_mapValues]

@[simp] theorem child?_bare (store : Store) (id : SectionId) (key : String) :
    store.bare.child? id key = store.child? id key := by
  cases hvalue : store.get? id key <;> simp [child?, hvalue]

/-! ## Writes -/

/-- Writing what is there already changes nothing. -/
theorem insert_of_get? (h : store.get? id key = some value) : store.insert id key value = store := by
  apply congrArg Store.mk
  apply Array.ext_getElem?
  intro other
  by_cases hid : id = other
  · subst hid
    cases hcell : store.cells[id]? with
    | none => simp [Array.getElem?_modify, hcell]
    | some entries =>
        have hentries : Entries.get? entries key = some value := by simpa [get?, Store.entries, hcell] using h
        simp [Array.getElem?_modify, hcell, Entries.insert_of_get? hentries]
  · simp [Array.getElem?_modify, hid]

theorem bare_insert (store : Store) (id : SectionId) (key : String) (value : Value) :
    (store.insert id key value).bare = store.bare.insert id key value.bare := by
  apply congrArg Store.mk
  apply Array.ext_getElem?
  intro other
  by_cases hid : id = other
  · cases hcell : store.cells[other]? <;>
      simp [bare, insert, Array.getElem?_modify, hid, hcell, Entries.insert_mapValues]
  · simp [bare, insert, Array.getElem?_modify, hid]

/-- Only the role of a section is changed. -/
theorem bare_insert_of_get? {old : Value} (hold : store.get? id key = some old) (hsame : value.bare = old.bare) :
    (store.insert id key value).bare = store.bare := by
  rw [bare_insert, hsame]
  apply insert_of_get?
  rw [get?_bare, hold, Option.map_some]

theorem alloc_bare (store : Store) (entries : Entries Value) :
    store.bare.alloc (entries.mapValues Value.bare) = (store.size, (store.alloc entries).2.bare) := by
  simp [alloc, bare, size]

theorem carries_bare : Carries bare (fun id => id) Value.bare where
  scalar _ := rfl
  nested _ := rfl
  names value := by simp
  get? := get?_bare
  insert store id key value := (bare_insert store id key value).symm
  alloc := alloc_bare

/-! ## What does not see roles -/

theorem sectionAt_bare (store : Store) (value : Value) (path : List String) :
    store.bare.sectionAt value.bare path = store.sectionAt value path := by
  rw [sectionAt, sectionAt, carries_bare.follow]
  cases store.follow value path <;> simp

theorem resolve_bare (store : Store) (root scope : SectionId) (text : String) :
    store.bare.resolve root scope text = store.resolve root scope text :=
  carries_bare.resolve store root scope text

theorem projectWithin_bare (store : Store) (root : SectionId) (opened : List SectionId) (id : SectionId) :
    store.bare.projectWithin root opened id = store.projectWithin root opened id := by
  induction opened, id using store.walk_induction with
  | step opened id ih =>
      rw [projectWithin_eq, projectWithin_eq]
      split
      · rfl
      · rename_i hopened
        rw [entries_bare, Entries.mapValues, List.mapM_map]
        apply mapM_congr
        intro entry hentry
        have hvalue :
            store.bare.projectValue root opened id entry.2.bare = store.projectValue root opened id entry.2 := by
          cases entry.2 with
          | nested role child =>
              have hchild := ih hopened (lt_size_of_mem_entries hentry) child
              simp only [Value.bare, projectValue, hchild]
          | scalar content =>
              cases content with
              | text raw => exact congrArg (Except.map _) (resolve_bare store root id raw)
              | _ => rfl
        simp only [Function.comp_apply, hvalue]

end Store

/-! ## Stores that differ in roles only -/

section

variable {store after : Store} (h : after.bare = store.bare)
include h

theorem Store.sectionAt_of_bare (value : Value) (path : List String) :
    after.sectionAt value path = store.sectionAt value path := by
  rw [← Store.sectionAt_bare, h, Store.sectionAt_bare]

theorem Handle.projection_of_bare (handle : Handle) : handle.projection after = handle.projection store := by
  rw [projection, ← Store.projectWithin_bare, h, Store.projectWithin_bare, ← projection]

end

end LayeredConfig
