import LayeredConfig.Document.Node
import LayeredConfig.Store.Value

/-!
# The store of sections

All sections live in one store, each under its own name. A write to a section is seen by everyone who
knows its name. New sections take the next name, so that no section is ever renamed or freed.
-/

namespace LayeredConfig

/-- The entries of every section, by the section's name. -/
structure Store where
  cells : Array (Entries Value)
  deriving Inhabited

namespace Store

def empty : Store := ⟨#[]⟩

/-- The number of sections; the name of the next one. -/
def size (store : Store) : Nat := store.cells.size

/-- The entries of a section. A name that is not taken has none. -/
def entries (store : Store) (id : SectionId) : Entries Value := (store.cells[id]?).getD []

def get? (store : Store) (id : SectionId) (key : String) : Option Value := (store.entries id).get? key

def child? (store : Store) (id : SectionId) (key : String) : Option SectionId :=
  (store.get? id key).bind Value.section?

def insert (store : Store) (id : SectionId) (key : String) (value : Value) : Store :=
  ⟨store.cells.modify id (Entries.insert · key value)⟩

def alloc (store : Store) (entries : Entries Value) : SectionId × Store :=
  (store.size, ⟨store.cells.push entries⟩)

/-! ## Documents -/

mutual

/-- Adds the sections of a node and returns the value that stands for it. -/
def addNode (store : Store) : Node → Value × Store
  | .text value => (.text value, store)
  | .branch nodes =>
    let (values, store) := store.addNodes nodes
    let (id, store) := store.alloc values
    (.nested .plain id, store)

/-- Adds the sections of several nodes and returns the values that stand for them. -/
def addNodes (store : Store) : List (String × Node) → Entries Value × Store
  | [] => ([], store)
  | (key, node) :: rest =>
    let (value, store) := store.addNode node
    let (values, store) := store.addNodes rest
    ((key, value) :: values, store)

end

def addDocument (store : Store) (document : Document) : SectionId × Store :=
  let (values, store) := store.addNodes document
  store.alloc values

/-- Puts the top-level entries of a document into a section. An entry of the same name is replaced
whole. -/
def merge (store : Store) (id : SectionId) (document : Document) : Store :=
  let (values, store) := store.addNodes document
  values.foldl (fun store entry => store.insert id entry.1 entry.2) store

theorem addNode_branch (store : Store) (nodes : List (String × Node)) :
    store.addNode (.branch nodes) =
      (.nested .plain (store.addNodes nodes).2.size,
        ((store.addNodes nodes).2.alloc (store.addNodes nodes).1).2) := rfl

theorem addNodes_cons (store : Store) (key : String) (node : Node) (rest : List (String × Node)) :
    store.addNodes ((key, node) :: rest) =
      ((key, (store.addNode node).1) :: ((store.addNode node).2.addNodes rest).1,
        ((store.addNode node).2.addNodes rest).2) := rfl

/-! ## What a write changes -/

@[simp] theorem size_insert (store : Store) (id : SectionId) (key : String) (value : Value) :
    (store.insert id key value).size = store.size := by
  simp [insert, size]

@[simp] theorem size_alloc (store : Store) (entries : Entries Value) :
    (store.alloc entries).2.size = store.size + 1 := by
  simp [alloc, size]

theorem entries_insert_self {store : Store} {id : SectionId} (h : id < store.size) (key : String)
    (value : Value) :
    (store.insert id key value).entries id = (store.entries id).insert key value := by
  have h' : id < store.cells.size := h
  simp [insert, entries, h', Array.getElem_modify_self]

theorem entries_insert_of_ne {store : Store} {id other : SectionId} (h : id ≠ other) (key : String)
    (value : Value) : (store.insert id key value).entries other = store.entries other := by
  simp [insert, entries, Array.getElem?_modify, h]

theorem entries_of_size_le {store : Store} {id : SectionId} (h : store.size ≤ id) : store.entries id = [] := by
  have hnone : store.cells[id]? = none := Array.getElem?_eq_none h
  rw [entries, hnone]
  rfl

theorem lt_size_of_mem_entries {store : Store} {id : SectionId} {entry : String × Value}
    (h : entry ∈ store.entries id) : id < store.size := by
  refine Nat.lt_of_not_le fun hle => ?_
  rw [entries_of_size_le hle] at h
  cases h

theorem mem_entries_insert {store : Store} {id other : SectionId} {key : String} {value : Value}
    {entry : String × Value} (h : entry ∈ (store.insert id key value).entries other) :
    (other = id ∧ entry = (key, value)) ∨ entry ∈ store.entries other := by
  by_cases hid : id = other
  · subst hid
    have hlt := lt_size_of_mem_entries h
    rw [size_insert] at hlt
    rw [entries_insert_self hlt] at h
    exact (Entries.mem_insert h).imp_left fun hentry => ⟨rfl, hentry⟩
  · rw [entries_insert_of_ne hid] at h
    exact .inr h

theorem lt_size_of_get? {store : Store} {id : SectionId} {key : String} {value : Value}
    (h : store.get? id key = some value) : id < store.size := by
  refine Nat.lt_of_not_le fun hle => ?_
  have hnone : store.cells[id]? = none := Array.getElem?_eq_none hle
  simp [get?, entries, hnone] at h

theorem get?_insert {store : Store} {id : SectionId} (h : id < store.size) (key : String) (value : Value)
    (other : SectionId) (name : String) :
    (store.insert id key value).get? other name =
      if id = other ∧ key = name then some value else store.get? other name := by
  by_cases hid : id = other
  · subst hid
    simp [get?, entries_insert_self h, Entries.get?_insert]
  · simp [get?, entries_insert_of_ne hid, hid]

theorem get?_insert_of_ne {store : Store} {id other : SectionId} {key name : String}
    (h : ¬ (id = other ∧ key = name)) (value : Value) :
    (store.insert id key value).get? other name = store.get? other name := by
  by_cases hid : id < store.size
  · rw [get?_insert hid, if_neg h]
  · by_cases hother : id = other
    · subst hother
      have hle := Nat.le_of_not_lt hid
      rw [get?, get?, entries_of_size_le hle, entries_of_size_le (by rwa [size_insert])]
    · rw [get?, entries_insert_of_ne hother, get?]

/-- A write that puts no other section in the place of one changes no child. -/
theorem child?_insert {store : Store} {id : SectionId} {key : String} {old new : Value}
    (hold : store.get? id key = some old) (hsame : new.section? = old.section?) (other : SectionId)
    (name : String) : (store.insert id key new).child? other name = store.child? other name := by
  rw [child?, child?, get?_insert (lt_size_of_get? hold)]
  split
  · rename_i hplace
    obtain ⟨rfl, rfl⟩ := hplace
    rw [hold, Option.bind_some, Option.bind_some, hsame]
  · rfl

theorem entries_alloc_self (store : Store) (entries : Entries Value) :
    (store.alloc entries).2.entries (store.alloc entries).1 = entries := by
  simp [alloc, Store.entries, size]

theorem entries_alloc_of_ne {store : Store} {id : SectionId} (h : id ≠ store.size) (entries : Entries Value) :
    (store.alloc entries).2.entries id = store.entries id := by
  have h' : id ≠ store.cells.size := h
  simp [alloc, Store.entries, Array.getElem?_push, h']

theorem entries_alloc_of_lt {store : Store} {id : SectionId} (h : id < store.size)
    (entries : Entries Value) : (store.alloc entries).2.entries id = store.entries id :=
  entries_alloc_of_ne (Nat.ne_of_lt h) entries

end Store

end LayeredConfig
