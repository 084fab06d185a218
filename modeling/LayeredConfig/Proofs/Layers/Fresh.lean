import LayeredConfig.Proofs.Document.Legible
import LayeredConfig.Proofs.Handle.Access
import LayeredConfig.Proofs.Layers.Loading
import LayeredConfig.Proofs.Overrides.Settings

/-!
# What is in a store after a load

Documents and variables make nothing but texts and sections, and no text stands on top: a document begins with sections,
and a variable overrides an entry of a section. So there are no other entries in what a load has made.
-/

namespace LayeredConfig

/-- The value is a text, or a section that was made after `root` and was not handed out. -/
inductive Value.Raw (root : SectionId) : Value → Prop where
  | text (text : String) : Raw root (.text text)
  | nested {id} : root < id → Raw root (.nested .plain id)

/-- In the sections from `root` on there are raw values only, and sections only in `root`. -/
structure Store.Fresh (root : SectionId) (store : Store) : Prop where
  root_lt : root < store.size
  raw : ∀ id, root ≤ id → ∀ entry ∈ store.entries id, entry.2.Raw root
  topLevel : ∀ entry ∈ store.entries root, entry.2.section? ≠ none

namespace Store.Fresh

variable {store after : Store} {root id : SectionId} {key : String} {value : Value}

theorem raw_of_get? (h : store.Fresh root) (hid : root ≤ id) (hvalue : store.get? id key = some value) : value.Raw root :=
  h.raw id hid _ (Entries.mem_of_get? hvalue)

theorem lt_of_child? (h : store.Fresh root) (hid : root ≤ id) {child : SectionId}
    (hchild : store.child? id key = some child) : root < child := by
  obtain ⟨value, hvalue, hsection⟩ := Option.bind_eq_some_iff.mp hchild
  cases h.raw_of_get? hid hvalue with
  | text text => cases hsection
  | nested hlt =>
      cases hsection
      exact hlt

theorem get?_eq_none (h : store.Fresh root) (hchild : store.child? root key = none) : store.get? root key = none := by
  refine Option.eq_none_iff_forall_ne_some.mpr fun value hvalue => ?_
  rw [child?, hvalue, Option.bind_some] at hchild
  exact h.topLevel _ (Entries.mem_of_get? hvalue) hchild

theorem start (store : Store) : (store.alloc []).2.Fresh store.size := by
  have hnone (id : SectionId) (hid : store.size ≤ id) : (store.alloc []).2.entries id = [] := by
    by_cases hnew : id = store.size
    · rw [hnew]
      exact entries_alloc_self store []
    · rw [entries_alloc_of_ne hnew, entries_of_size_le hid]
  refine ⟨by simp, fun id hid entry hentry => ?_, fun entry hentry => ?_⟩
  · rw [hnone id hid] at hentry
    cases hentry
  · rw [hnone _ (Nat.le_refl _)] at hentry
    cases hentry

theorem alloc (h : store.Fresh root) {values : Entries Value} (hvalues : ∀ entry ∈ values, entry.2.Raw root) :
    (store.alloc values).2.Fresh root where
  root_lt := by
    rw [size_alloc]
    exact Nat.lt_succ_of_lt h.root_lt
  raw id hid := by
    by_cases hnew : id = store.size
    · have hentries : (store.alloc values).2.entries store.size = values := entries_alloc_self store values
      rw [hnew, hentries]
      exact hvalues
    · rw [entries_alloc_of_ne hnew]
      exact h.raw id hid
  topLevel := by
    rw [entries_alloc_of_ne (Nat.ne_of_lt h.root_lt)]
    exact h.topLevel

theorem insert (h : store.Fresh root) (hvalue : value.Raw root) (htop : id = root → value.section? ≠ none) (key : String) :
    (store.insert id key value).Fresh root where
  root_lt := by
    rw [size_insert]
    exact h.root_lt
  raw other hother entry hentry := by
    rcases mem_entries_insert hentry with ⟨_, rfl⟩ | hmem
    · exact hvalue
    · exact h.raw other hother entry hmem
  topLevel entry hentry := by
    rcases mem_entries_insert hentry with ⟨hid, rfl⟩ | hmem
    · exact htop hid.symm
    · exact h.topLevel entry hmem

/-! ## Documents -/

mutual

theorem addNode {store : Store} (h : store.Fresh root) : (node : Node) →
    (store.addNode node).2.Fresh root ∧ (store.addNode node).1.Raw root
  | .text text => ⟨h, .text text⟩
  | .branch nodes => by
      obtain ⟨hmade, hvalues⟩ := h.addNodes nodes
      rw [addNode_branch]
      exact ⟨hmade.alloc hvalues, .nested hmade.root_lt⟩

theorem addNodes {store : Store} (h : store.Fresh root) : (nodes : List (String × Node)) →
    (store.addNodes nodes).2.Fresh root ∧ ∀ entry ∈ (store.addNodes nodes).1, entry.2.Raw root
  | [] => ⟨h, fun entry hentry => by cases hentry⟩
  | (key, node) :: rest => by
      obtain ⟨hnode, hvalue⟩ := h.addNode node
      obtain ⟨hrest, hvalues⟩ := hnode.addNodes rest
      rw [addNodes_cons]
      refine ⟨hrest, fun entry hentry => ?_⟩
      rcases List.mem_cons.mp hentry with rfl | hmem
      · exact hvalue
      · exact hvalues entry hmem

end

theorem section?_of_addNodes {nodes : List (String × Node)} (h : ∀ entry ∈ nodes, ∃ inner, entry.2 = .branch inner)
    (store : Store) : ∀ entry ∈ (store.addNodes nodes).1, entry.2.section? ≠ none := by
  induction nodes generalizing store with
  | nil =>
      intro entry hentry
      cases hentry
  | cons first rest ih =>
      obtain ⟨key, node⟩ := first
      obtain ⟨⟨inner, hbranch⟩, hrest⟩ := List.forall_mem_cons.mp h
      intro entry hentry
      rw [addNodes_cons] at hentry
      rcases List.mem_cons.mp hentry with rfl | hmem
      · cases hbranch
        exact Option.some_ne_none _
      · exact ih hrest _ entry hmem

theorem merge (h : store.Fresh root) {document : Document} (hsections : ∀ entry ∈ document, ∃ inner, entry.2 = .branch inner)
    (id : SectionId) : (store.merge id document).Fresh root := by
  obtain ⟨hmade, hvalues⟩ := h.addNodes document
  refine List.foldlRecOn _ _ hmade fun before hbefore entry hentry => ?_
  exact hbefore.insert (hvalues entry hentry) (fun _ => section?_of_addNodes hsections store entry hentry) entry.1

/-! ## Overrides -/

theorem enter (h : store.Fresh root) (hid : root ≤ id) (key : String) :
    (store.enter id key).2.Fresh root ∧ root < (store.enter id key).1 := by
  cases hchild : store.child? id key with
  | some child =>
      rw [enter_of_some hchild]
      exact ⟨h, h.lt_of_child? hid hchild⟩
  | none =>
      have hmade : (store.alloc []).2.Fresh root := h.alloc fun entry hentry => by cases hentry
      rw [enter_of_none hchild]
      exact ⟨hmade.insert (.nested h.root_lt) (fun _ => Option.some_ne_none _) key, h.root_lt⟩

theorem setPath (h : store.Fresh root) (hid : root ≤ id) {path : List String} (hdeep : root < id ∨ 2 ≤ path.length)
    (text : String) : (store.setPath id path text).Fresh root := by
  induction path generalizing store id with
  | nil => exact h
  | cons key path ih =>
      cases path with
      | nil =>
          -- A path ends below the root, where texts may stand.
          have hbelow : root < id := hdeep.resolve_right (by simp)
          exact h.insert (.text text) (fun heq => absurd heq.symm (Nat.ne_of_lt hbelow)) key
      | cons next path =>
          obtain ⟨hentered, hchild⟩ := h.enter hid key
          rw [setPath_cons_cons]
          exact ih hentered (Nat.le_of_lt hchild) (.inl hchild)

end Store.Fresh

theorem Store.Fresh.apply {store : Store} {root : SectionId} (h : store.Fresh root) (overrides : Overrides)
    (vars : List (String × String)) : (overrides.apply store root vars).2.Fresh root := by
  apply overrides.apply_induction vars
  · exact h
  · intro before path hdeep hbefore text
    exact hbefore.setPath (Nat.le_refl root) (.inr hdeep) text

/-! ## Loads -/

namespace Layers

variable {store after : Store} {root : SectionId}

theorem readEnvironment_of_fresh {environment : String} (h : store.Fresh root)
    (hread : readEnvironment store root = .ok (environment, after)) : after = store := by
  refine readEnvironment_unchanged_of_text (fun {owner content} howner hheld => ?_) hread
  have hbelow := h.lt_of_child? (Nat.le_refl root) (Handle.owner_eq_ok_iff.mp howner)
  cases h.raw_of_get? (Nat.le_of_lt hbelow) hheld with
  | text text => exact ⟨text, rfl⟩

/-- A load leaves a root with sections only, and texts and sections below it. -/
theorem fresh_loadLeaving (layers : Layers) (world : World) (store : Store) :
    (layers.loadLeaving world store).2.Fresh store.size := by
  apply loadLeaving_induction store
  · exact Store.Fresh.start store
  · intro before after name h hadd
    obtain ⟨text, _, hadd⟩ := bind_eq_ok_iff.mp hadd
    cases hadd
    refine h.merge (fun entry hentry => ?_) _
    obtain ⟨_, entries, hbranch, _⟩ := (Document.legible_ofText text).2 entry hentry
    exact ⟨entries, hbranch⟩
  · intro before h
    rw [override]
    cases layers.overrides with
    | none => exact h
    | some overrides => exact h.apply overrides world.vars
  · intro before after environment h hread
    obtain rfl := readEnvironment_of_fresh h hread
    exact h

end Layers

end LayeredConfig
