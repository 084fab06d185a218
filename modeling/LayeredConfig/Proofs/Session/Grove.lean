import LayeredConfig.Proofs.Session.Basic
import LayeredConfig.Proofs.Store.Forest

/-!
# Groves

A grove is a store with the handles that were given on it. Documents are read into it, configurations are loaded, first
and again, and whoever has a handle works through it. As long as only scalars are put into entries, everything in the
store stays a tree.
-/

namespace LayeredConfig

/-! ## Accesses -/

section

variable {store after : Store} {handle : Handle} {within : Option String} {key : String}

theorem Store.Forest.closed (h : store.Forest) : store.Closed (Set.Iio store.size) := by
  intro parent _ entry hentry id hid
  obtain ⟨key, hchild⟩ := Store.child?_of_links (h.nodup parent) ⟨entry, hentry, hid⟩
  exact h.lt_size hchild

theorem Handle.read_grows {target : Kind} {value? : Option Value} (h : store.Forest)
    (hread : handle.read store target within key = .ok (value?, after)) : store.Grows after := by
  cases value? with
  | none =>
      obtain rfl := read_eq_ok_none hread
      exact .refl h
  | some value =>
      obtain ⟨owner, found, _, hfinds, hresult⟩ := read_eq_ok_some_iff.mp hread
      rcases hresult with ⟨_, _, rfl⟩ | ⟨_, hconvert, rfl⟩
      · exact .refl h
      · obtain ⟨stored, hstored, hsection⟩ := hfinds.exists_stored
        apply h.grows_insert (Store.lt_size_of_get? hstored)
        intro id hid
        rw [Store.child?, hstored, Option.bind_some, ← hsection, ← Value.section?_of_convert hconvert, hid]

theorem Handle.put_grows {value : Value} (h : store.Forest) (hscope : handle.scope < store.size)
    (hvalue : value.section? = none) (hput : handle.put store within key value = .ok after) : store.Grows after := by
  obtain ⟨owner, howner, hput⟩ := bind_eq_ok_iff.mp hput
  cases hput
  have hmem : owner ∈ Set.Iio store.size := owner_mem h.closed hscope howner
  apply h.grows_insert hmem
  intro id hid
  rw [hvalue] at hid
  cases hid

theorem Access.perform_grows {access : Access} (h : store.Forest) (hhandle : handle.Within (Set.Iio store.size))
    (hstores : access.Stores ∅) : store.Grows (access.perform store handle).1 := by
  cases access with
  | look within key =>
      simp only [perform]
      split <;> exact .refl h
  | read target within key =>
      simp only [perform]
      split
      · rename_i hread
        exact Handle.read_grows h hread
      · exact .refl h
  | readNested within key =>
      simp only [perform]
      split
      · rename_i hread
        obtain ⟨⟨value?, left⟩, hread, hnested⟩ := bind_eq_ok_iff.mp hread
        cases hnested
        exact Handle.read_grows h hread
      · exact .refl h
  | put within key value =>
      simp only [perform]
      split
      · rename_i hput
        have hscalar : value.section? = none := Option.eq_none_iff_forall_ne_some.mpr fun id hid => hstores id hid
        exact Handle.put_grows h hhandle.1 hscalar hput
      · exact .refl h
  | merge text => exact h.merge hhandle.1 (Document.distinct_ofText text).2
  | override overrides vars => exact overrides.apply_grows h hhandle.1 vars
  | restart => exact .refl h

end

/-! ## Loads -/

namespace Layers

variable {store : Store}

/-- A load makes a tree of its own, whatever becomes of it. -/
theorem grows_loadLeaving (layers : Layers) (world : World) (h : store.Forest) :
    store.Grows (layers.loadLeaving world store).2 ∧ (layers.loadLeaving world store).2.Unheld store.size := by
  obtain ⟨hstart, hunheld⟩ := h.alloc_nil
  have hroot {before : Store} (hbefore : (store.alloc []).2.Grows before) : store.size < before.size := by
    have hle := hbefore.size_le
    rw [Store.size_alloc] at hle
    exact hle
  have hload : (store.alloc []).2.Grows (layers.loadLeaving world store).2 := by
    apply loadLeaving_induction store
    · exact .refl hstart.forest
    · intro before after name hbefore hadd
      obtain ⟨text, _, hadd⟩ := bind_eq_ok_iff.mp hadd
      cases hadd
      exact hbefore.trans (hbefore.forest.merge (hroot hbefore) (Document.distinct_ofText text).2)
    · intro before hbefore
      rw [override]
      cases layers.overrides with
      | none => exact hbefore
      | some overrides => exact hbefore.trans (overrides.apply_grows hbefore.forest (hroot hbefore) world.vars)
    · intro before after environment hbefore hread
      have hread := Handle.readText_eq_ok_some_iff.mp (readEnvironment_eq_ok_iff.mp hread)
      exact hbefore.trans (Handle.read_grows hbefore.forest hread)
  exact ⟨hstart.trans hload, hload.unheld (by simp) hunheld⟩

end Layers

/-! ## Runs -/

structure Grove where
  store : Store
  handles : List Handle
  /-- The sections of the documents that were read and of the configurations that were loaded. -/
  roots : List SectionId

namespace Grove

/-- A document is read, a configuration is loaded for the first time or again, or someone works through a handle. -/
inductive Event where
  | parse (text : String)
  | load (layers : Layers) (world : World)
  | access (handle : Handle) (access : Access)

def empty : Grove := ⟨.empty, [], []⟩

/-- A load that fails leaves behind what it has made so far, and gives nothing. -/
def perform (grove : Grove) : Event → Grove
  | .parse text =>
    let (root, store) := grove.store.addDocument (Document.ofText text)
    ⟨store, grove.handles ++ [.ofRoot root], grove.roots ++ [root]⟩
  | .load layers world =>
    match layers.loadLeaving world grove.store with
    | (.error _, store) => { grove with store }
    | (.ok snapshot, store) => ⟨store, grove.handles ++ [snapshot.handle], grove.roots ++ [snapshot.handle.root]⟩
  | .access handle access =>
    let (store, given) := access.perform grove.store handle
    { grove with store, handles := grove.handles ++ given }

/-- An access goes through a handle that was given, and puts no sections into entries. -/
def Event.Possible (grove : Grove) : Event → Prop
  | .access handle done => handle ∈ grove.handles ∧ done.Stores ∅
  | _ => True

/-- The grove comes from an empty one by what can be done. -/
inductive Reached : Grove → Prop where
  | empty : Reached .empty
  | step {grove event} : Reached grove → event.Possible grove → Reached (grove.perform event)

/-- Everything in the grove is a tree, and the roots stand in no other section. -/
structure Tended (grove : Grove) : Prop where
  forest : grove.store.Forest
  handles : ∀ handle ∈ grove.handles, handle.Within (Set.Iio grove.store.size)
  roots : ∀ root ∈ grove.roots, root < grove.store.size ∧ grove.store.Unheld root

variable {grove : Grove} {store : Store}

theorem tended_empty : empty.Tended where
  forest := by
    have hchild (parent : SectionId) (key : String) : Store.empty.child? parent key = none := rfl
    constructor
    · exact fun _ => List.nodup_nil
    · simp [empty, hchild]
    · simp [empty, hchild]
    · intro id hcyclic
      obtain ⟨child, ⟨entry, hentry, _⟩, _⟩ := Relation.TransGen.head'_iff.mp hcyclic
      cases hentry
  handles _ hhandle := by cases hhandle
  roots _ hroot := by cases hroot

theorem Tended.grow (h : grove.Tended) (hgrows : grove.store.Grows store) : Tended { grove with store } where
  forest := hgrows.forest
  handles handle hhandle := (h.handles handle hhandle).mono (Set.Iio_subset_Iio hgrows.size_le)
  roots root hroot := by
    obtain ⟨hlt, hunheld⟩ := h.roots root hroot
    exact ⟨Nat.lt_of_lt_of_le hlt hgrows.size_le, hgrows.unheld hlt hunheld⟩

theorem Tended.plant (h : grove.Tended) (hgrows : grove.store.Grows store) {root : SectionId} (hroot : root < store.size)
    (hunheld : store.Unheld root) : Tended ⟨store, grove.handles ++ [.ofRoot root], grove.roots ++ [root]⟩ where
  forest := hgrows.forest
  handles handle hhandle := by
    rcases List.mem_append.mp hhandle with hold | hnew
    · exact (h.grow hgrows).handles handle hold
    · obtain rfl := List.mem_singleton.mp hnew
      exact ⟨hroot, hroot⟩
  roots other hother := by
    rcases List.mem_append.mp hother with hold | hnew
    · exact (h.grow hgrows).roots other hold
    · obtain rfl := List.mem_singleton.mp hnew
      exact ⟨hroot, hunheld⟩

theorem Tended.perform (h : grove.Tended) {event : Event} (hpossible : event.Possible grove) :
    (grove.perform event).Tended := by
  cases event with
  | parse text =>
      obtain ⟨hgrows, hunheld⟩ := h.forest.addDocument (Document.distinct_ofText text)
      exact h.plant hgrows (by simp [Store.addDocument]) hunheld
  | load layers world =>
      obtain ⟨hgrows, hunheld⟩ := layers.grows_loadLeaving world h.forest
      have hroot := (Store.mem_grown_empty.mp (layers.loading_loadLeaving world grove.store).root_mem).2
      simp only [Grove.perform]
      split
      · rename_i failure store hleft
        rw [hleft] at hgrows
        exact h.grow hgrows
      · rename_i snapshot store hleft
        rw [hleft] at hgrows hunheld hroot
        rw [Layers.handle_of_loadLeaving (congrArg Prod.fst hleft)]
        exact h.plant hgrows hroot hunheld
  | access handle done =>
      obtain ⟨hheld, hstores⟩ := hpossible
      have hhandle := h.handles handle hheld
      have hgrows := Access.perform_grows h.forest hhandle hstores
      have hgrown := h.grow hgrows
      refine ⟨hgrown.forest, fun other hother => ?_, hgrown.roots⟩
      rcases List.mem_append.mp hother with hold | hnew
      · exact hgrown.handles other hold
      · have hregion : done.Stores (Set.Iio grove.store.size) := by
          cases done with
          | put within key value => exact Value.Within.mono hstores (Set.empty_subset _)
          | _ => trivial
        have hgiven := (Access.perform_edits h.forest.closed hhandle hregion).2 other hnew
        exact hgiven.mono (Set.Iio_subset_Iio hgrows.size_le)

theorem Reached.tended (h : grove.Reached) : grove.Tended := by
  induction h with
  | empty => exact tended_empty
  | step _ hpossible ih => exact ih.perform hpossible

/-- Trees stay trees: every section stands in one entry at most and none in itself, and a root that was given stands in
none. So no projection fails as self-containing. -/
theorem forest_of_reached (h : grove.Reached) :
    grove.store.Forest ∧ (∀ root ∈ grove.roots, grove.store.Unheld root) ∧
      ∀ (handle : Handle) (depth : Nat), handle.projection grove.store ≠ .error (.selfContaining depth) := by
  have htended := h.tended
  refine ⟨htended.forest, fun root hroot => (htended.roots root hroot).2, fun handle depth hfails => ?_⟩
  rcases Handle.projection_eq_error hfails with ⟨_, id, _, hcyclic⟩ | ⟨hreference, _⟩
  · exact htended.forest.acyclic id hcyclic
  · exact hreference

/-- A document is read, and a section of it is handed out. -/
def handedOut : Grove :=
  (empty.perform (.parse "s:\n- a: b\n")).perform (.access (.ofRoot 1) (.readNested none "s"))

/-- Another document is put into the section, and a configuration is loaded besides. -/
def replanted : Grove :=
  (handedOut.perform (.access ⟨0, 1⟩ (.merge "t:\n- k: v\n"))).perform (.load {} Session.plainWorld)

theorem forest_replanted :
    replanted.roots = [1, 3] ∧ replanted.store.Forest ∧ ∀ root ∈ [1, 3], replanted.store.Unheld root := by
  have hparse : (empty.perform (.parse "s:\n- a: b\n")).Reached := Reached.empty.step trivial
  have hheld : Handle.ofRoot 1 ∈ (empty.perform (.parse "s:\n- a: b\n")).handles := by
    cbv
    exact .head _
  have hhanded : handedOut.Reached := hparse.step ⟨hheld, trivial⟩
  have hheld : ⟨0, 1⟩ ∈ handedOut.handles := by
    cbv
    exact .tail _ (.head _)
  have hmerged : (handedOut.perform (.access ⟨0, 1⟩ (.merge "t:\n- k: v\n"))).Reached := hhanded.step ⟨hheld, trivial⟩
  have hreplanted : replanted.Reached := hmerged.step trivial
  have hroots : replanted.roots = [1, 3] := by cbv
  obtain ⟨hforest, hunheld, _⟩ := forest_of_reached hreplanted
  exact ⟨hroots, hforest, hroots ▸ hunheld⟩

end Grove

end LayeredConfig
