import LayeredConfig.Proofs.Layers.Loading
import Mathlib

/-!
# Sessions

A session is a configuration in use: the store, the current configuration, the documents and variables that there
are, and the handles that were given out, of the present load and of earlier ones. Whoever uses it works through these
handles, makes sections, changes documents and variables, and reloads.
-/

namespace LayeredConfig

/-- What can be done through a handle. Operations that only look and give no handle are left out: they change
nothing. -/
inductive Access where
  /-- A section that is found comes with a handle that starts from it. -/
  | look (within : Option String) (key : String)
  | read (target : Kind) (within : Option String) (key : String)
  | readNested (within : Option String) (key : String)
  | put (within : Option String) (key : String) (value : Value)
  | merge (text : String)
  | override (overrides : Overrides) (vars : List (String × String))
  /-- Gives handles that start from the section and from the root of the handle. -/
  | restart

structure Held where
  /-- The load that the handle comes from. It has none if it is on a section that the user made. -/
  load : Option Nat
  handle : Handle

structure Session where
  store : Store
  configuration : Configuration
  world : World
  /-- The number of loads so far that gave a configuration. -/
  loads : Nat
  held : List Held

/-- The user works through a handle or makes a section, documents and variables change, or all is loaded again. -/
inductive Event where
  | access (held : Held) (access : Access)
  | make (entries : Entries Value)
  | change (world : World)
  | reload

/-! ## Accesses -/

namespace Access

/-- The store after the access, and the handles that it gives. An access that fails changes nothing. -/
def perform (store : Store) (handle : Handle) : Access → Store × List Handle
  | .look within key =>
    match handle.lookup store within key with
    | .ok (some (.nested _ id)) => (store, [.ofRoot id])
    | _ => (store, [])
  | .read target within key =>
    match handle.read store target within key with
    | .ok (_, after) => (after, [])
    | .error _ => (store, [])
  | .readNested within key =>
    match handle.readNested store within key with
    | .ok (nested?, after) => (after, nested?.toList)
    | .error _ => (store, [])
  | .put within key value =>
    match handle.put store within key value with
    | .ok after => (after, [])
    | .error _ => (store, [])
  | .merge text => (store.merge handle.scope (Document.ofText text), [])
  | .override overrides vars => ((overrides.apply store handle.scope vars).2, [])
  | .restart => (store, [.ofRoot handle.scope, .ofRoot handle.root])

/-- A value that is put is a scalar or a section of the region. -/
def Stores (region : Set SectionId) : Access → Prop
  | .put _ _ value => value.Within region
  | _ => True

theorem perform_edits {store : Store} {region : Set SectionId} {handle : Handle} {access : Access}
    (hclosed : store.Closed region) (hhandle : handle.Within region) (hstores : access.Stores region) :
    store.Edits region (access.perform store handle).1 ∧
      ∀ given ∈ (access.perform store handle).2, given.Within region := by
  obtain ⟨hscope, hroot⟩ := hhandle
  cases access with
  | look within key =>
      simp only [perform]
      split
      · rename_i role id hlookup
        have hid := Handle.lookup_within hclosed hscope hlookup id rfl
        exact ⟨.refl, by simpa [Handle.Within, Handle.ofRoot] using hid⟩
      · exact ⟨.refl, by simp⟩
  | read target within key =>
      simp only [perform]
      split
      · rename_i hread
        exact ⟨(Handle.read_edits hclosed hscope hread).1, by simp⟩
      · exact ⟨.refl, by simp⟩
  | readNested within key =>
      simp only [perform]
      split
      · rename_i nested? after hread
        obtain ⟨hedits, hnested⟩ := Handle.readNested_edits hclosed hscope hread
        refine ⟨hedits, fun given hgiven => ?_⟩
        obtain ⟨hmem, heq⟩ := hnested given (Option.mem_toList.mp hgiven)
        exact ⟨hmem, heq ▸ hroot⟩
      · exact ⟨.refl, by simp⟩
  | put within key value =>
      simp only [perform]
      split
      · rename_i hput
        exact ⟨Handle.put_edits hclosed hscope hstores hput, by simp⟩
      · exact ⟨.refl, by simp⟩
  | merge text => exact ⟨Store.merge_edits hscope _, by simp [perform]⟩
  | override overrides vars => exact ⟨overrides.apply_edits hclosed hscope vars, by simp [perform]⟩
  | restart => exact ⟨.refl, by simp [perform, Handle.Within, Handle.ofRoot, hscope, hroot]⟩

end Access

/-! ## Events -/

namespace Event

/-- The load whose sections an event may change, and that the handles it gives belong to. -/
def load (session : Session) : Event → Option Nat
  | .access held _ => held.load
  | .make _ | .change _ => none
  | .reload => some session.loads

/-- The event is no access through a handle of the load. -/
def Spares (load : Option Nat) : Event → Prop
  | .access held _ => held.load ≠ load
  | _ => True

/-- An access goes through a handle that was given out. -/
def Possible (session : Session) : Event → Prop
  | .access held _ => held ∈ session.held
  | _ => True

/-- An access goes through a handle on sections of the region. -/
def Through (region : Set SectionId) : Event → Prop
  | .access held _ => held.handle.Within region
  | _ => True

/-- The values that the user stores are scalars or sections of the region. -/
def Stores (region : Set SectionId) : Event → Prop
  | .access _ done => done.Stores region
  | .make entries => ∀ entry ∈ entries, entry.2.Within region
  | _ => True

theorem Stores.mono {region larger : Set SectionId} {event : Event} (h : event.Stores region)
    (hsubset : region ⊆ larger) : event.Stores larger := by
  cases event with
  | access held done =>
      cases done with
      | put within key value => exact Value.Within.mono h hsubset
      | _ => trivial
  | make entries => exact fun entry hentry => (h entry hentry).mono hsubset
  | _ => trivial

end Event

namespace Session

/-- A session with nothing but a first load. -/
def start (layers : Layers) (world : World) : Except Failure Session := do
  let (configuration, store) ← Configuration.build layers world .empty
  return { store, configuration, world, loads := 1, held := [⟨some 0, configuration.current.handle⟩] }

def perform (session : Session) : Event → Session
  | .access held access =>
    let (store, given) := access.perform session.store held.handle
    { session with store, held := session.held ++ given.map (Held.mk held.load) }
  | .make entries =>
    let (id, store) := session.store.alloc entries
    { session with store, held := session.held ++ [⟨none, .ofRoot id⟩] }
  | .change world => { session with world }
  | .reload =>
    match session.configuration.layers.loadLeaving session.world session.store with
    | (.error _, store) => { session with store }
    | (.ok current, store) =>
      { session with
        store
        configuration := { session.configuration with current }
        loads := session.loads + 1
        held := session.held ++ [⟨some session.loads, current.handle⟩] }

/-- A world with nothing in its documents but the environment. -/
def plainWorld : World where
  source := .ofDocuments [("app", "application:\n- env: dev\n"), ("model", ""), ("env.dev", "")]
  vars := []

/-- The session comes from a first load with `layers`, by events that store sections of `stored` only. -/
inductive Reached (layers : Layers) (stored : Session → Set SectionId) : Session → Prop where
  | start {world session} : Session.start layers world = .ok session → Reached layers stored session
  | step {session event} : Reached layers stored session → event.Possible session →
      event.Stores (stored session) → Reached layers stored (session.perform event)

variable {layers : Layers} {stored : Session → Set SectionId} {session : Session}

/-- What is done with the configuration itself is done through a handle that the last load gave. -/
theorem Reached.current_held (h : Reached layers stored session) :
    ∃ last, session.loads = last + 1 ∧ ⟨some last, session.configuration.current.handle⟩ ∈ session.held := by
  induction h with
  | start hstart =>
      obtain ⟨⟨configuration, store⟩, _, hstart⟩ := bind_eq_ok_iff.mp hstart
      cases hstart
      exact ⟨0, rfl, List.mem_singleton_self _⟩
  | @step session event _ _ _ ih =>
      obtain ⟨last, hloads, hheld⟩ := ih
      cases event with
      | reload =>
          simp only [perform]
          split
          · exact ⟨last, hloads, hheld⟩
          · exact ⟨session.loads, rfl, List.mem_append_right _ (List.mem_singleton_self _)⟩
      | change world => exact ⟨last, hloads, hheld⟩
      | _ => exact ⟨last, hloads, List.mem_append_left _ hheld⟩

/-- Loads are counted, so that each has a number of its own. -/
theorem Reached.load_lt (h : Reached layers stored session) :
    ∀ held ∈ session.held, ∀ load, held.load = some load → load < session.loads := by
  induction h with
  | start hstart =>
      obtain ⟨⟨configuration, store⟩, _, hstart⟩ := bind_eq_ok_iff.mp hstart
      cases hstart
      simp
  | @step session event _ hpossible _ ih =>
      cases event with
      | access held done =>
          intro other hother load hload
          rcases List.mem_append.mp hother with hold | hnew
          · exact ih other hold load hload
          · obtain ⟨given, _, rfl⟩ := List.mem_map.mp hnew
            exact ih held hpossible load hload
      | make entries =>
          intro other hother load hload
          rcases List.mem_append.mp hother with hold | hnew
          · exact ih other hold load hload
          · obtain rfl := List.mem_singleton.mp hnew
            cases hload
      | change world => exact ih
      | reload =>
          simp only [perform]
          split
          · exact ih
          · intro other hother load hload
            rcases List.mem_append.mp hother with hold | hnew
            · exact Nat.lt_succ_of_lt (ih other hold load hload)
            · obtain rfl := List.mem_singleton.mp hnew
              cases hload
              exact Nat.lt_succ_self _

theorem start_edits {layers : Layers} {world : World} {session : Session}
    (h : start layers world = .ok session) :
    Store.empty.Edits ∅ session.store ∧ ∀ held ∈ session.held, held.load = some 0 ∧
      held.handle.Within (Store.empty.grown ∅ session.store) := by
  obtain ⟨⟨configuration, store⟩, hbuild, h⟩ := bind_eq_ok_iff.mp h
  obtain ⟨⟨current, loaded⟩, hload, hbuild⟩ := bind_eq_ok_iff.mp hbuild
  cases h
  cases hbuild
  have hleft := Layers.load_eq_ok_iff.mp hload
  have hloading := layers.loading_loadLeaving world .empty
  have hhandle := Layers.handle_of_loadLeaving (congrArg Prod.fst hleft)
  rw [hleft] at hloading
  refine ⟨hloading.edits, fun held hheld => ?_⟩
  obtain rfl := List.mem_singleton.mp hheld
  exact ⟨rfl, hhandle ▸ ⟨hloading.root_mem, hloading.root_mem⟩⟩

/-- An event writes to a closed region around the sections that it is about, and to new sections, and the handles
that it gives are on these. -/
theorem perform_edits {session : Session} {event : Event} {region : Set SectionId}
    (hclosed : session.store.Closed region) (hthrough : event.Through region) (hstores : event.Stores region) :
    session.store.Edits region (session.perform event).store ∧
      ∀ held ∈ (session.perform event).held, held ∈ session.held ∨
        (held.load = event.load session ∧
          held.handle.Within (session.store.grown region (session.perform event).store)) := by
  cases event with
  | access held done =>
      obtain ⟨hedits, hgiven⟩ := Access.perform_edits hclosed hthrough hstores
      refine ⟨hedits, fun other hother => ?_⟩
      rcases List.mem_append.mp hother with hold | hnew
      · exact .inl hold
      · obtain ⟨given, hmem, rfl⟩ := List.mem_map.mp hnew
        exact .inr ⟨rfl, (hgiven given hmem).mono Store.subset_grown⟩
  | make entries =>
      have hedits : session.store.Edits region (session.store.alloc entries).2 := by
        refine Store.Edits.refl.alloc fun entry hentry => ?_
        rw [Store.grown_self]
        exact hstores entry hentry
      have hnew : session.store.size ∈ session.store.grown region (session.store.alloc entries).2 := by
        rw [Store.grown_alloc (Nat.le_refl _)]
        exact Set.mem_insert _ _
      refine ⟨hedits, fun other hother => ?_⟩
      rcases List.mem_append.mp hother with hold | hmade
      · exact .inl hold
      · obtain rfl := List.mem_singleton.mp hmade
        exact .inr ⟨rfl, hnew, hnew⟩
  | change world => exact ⟨.refl, fun other hother => .inl hother⟩
  | reload =>
      have hload := (session.configuration.layers.loading_loadLeaving session.world session.store)
      have hedits := hload.edits.mono (Set.empty_subset region)
      simp only [perform]
      split
      · rename_i failure store hleft
        rw [hleft] at hedits
        exact ⟨hedits, fun other hother => .inl hother⟩
      · rename_i current store hleft
        rw [hleft] at hload hedits
        refine ⟨hedits, fun other hother => ?_⟩
        rcases List.mem_append.mp hother with hold | hmade
        · exact .inl hold
        · obtain rfl := List.mem_singleton.mp hmade
          have hhandle := Layers.handle_of_loadLeaving (congrArg Prod.fst hleft)
          have hroot := Set.union_subset_union_left _ (Set.empty_subset region) hload.root_mem
          refine .inr ⟨rfl, ?_⟩
          rw [hhandle]
          exact ⟨hroot, hroot⟩

theorem reload_edits (session : Session) : session.store.Edits ∅ (session.perform .reload).store := by
  have hreload : Event.reload.Through ∅ ∧ Event.reload.Stores ∅ := ⟨trivial, trivial⟩
  exact (perform_edits session.store.closed_empty hreload.1 hreload.2).1

/-! ## A session with two loads -/

def serverOverrides : Overrides := ⟨"APP", "_", by decide⟩

def serverLayers : Layers := { overrides := some serverOverrides }

/-- Documents with a server. -/
def serverWorld (port : String) (vars : List (String × String)) : World where
  source := .ofDocuments [("app", "application:\n- env: dev\nserver:\n- port: " ++ port ++ "\n"), ("model", ""),
    ("env.dev", "")]
  vars

def started : Session where
  store := ⟨#[[("application", .nested .plain 1), ("server", .nested .plain 2)], [("env", .text "dev")],
    [("port", .text "1")]]⟩
  configuration := ⟨serverLayers, ⟨.ofRoot 0, "dev"⟩⟩
  world := serverWorld "1" []
  loads := 1
  held := [⟨some 0, .ofRoot 0⟩]

theorem start_serverWorld : start serverLayers (serverWorld "1" []) = .ok started := by
  have hbuild : Configuration.build serverLayers (serverWorld "1" []) .empty =
      .ok (started.configuration, started.store) := by cbv
  rw [start, hbuild]
  rfl

/-- Through the first handle, the port is changed and read, a section is merged in and a variable is applied. Then the
documents change, and the variables. -/
def worked : Session :=
  let first : Held := ⟨some 0, .ofRoot 0⟩
  ((((started.perform (.access first (.put (some "server") "port" (.text "2")))).perform
    (.access first (.read (.scalar .int) (some "server") "port"))).perform
    (.access first (.merge "queue:\n- size: 3\n"))).perform
    (.access first (.override serverOverrides [("APP_SERVER_HOST", "a")]))).perform
    (.change (serverWorld "5" [("APP_SERVER_HOST", "b")]))

/-- What is stored in `worked` are texts. -/
theorem reached_worked : Reached serverLayers stored worked := by
  dsimp only [worked]
  refine .step (.step (.step (.step (.step (.start start_serverWorld) ?put ?text) ?read ?_) ?merge ?_) ?override ?_) ?_ ?_
  case put | read | merge | override =>
    cbv
    exact .head _
  case text =>
    intro _ hsection
    cases hsection
  all_goals trivial

def reloaded : Session := worked.perform .reload

theorem reached_reloaded : Reached serverLayers stored reloaded := reached_worked.step trivial trivial

theorem held_reloaded : reloaded.held = [⟨some 0, .ofRoot 0⟩, ⟨some 1, .ofRoot 4⟩] := by cbv

theorem lookup_reloaded :
    reloaded.configuration.current.handle.lookup reloaded.store (some "server") "port" = .ok (some (.text "5")) := by
  cbv

end Session

end LayeredConfig
