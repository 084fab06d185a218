import LayeredConfig.Proofs.Handle.Unchanged
import LayeredConfig.Proofs.Layers.Append
import LayeredConfig.Proofs.Session.Basic

/-!
# Reloading

Whatever has been done in a session, a reload gives what a first load gives now, or fails as that does and changes
nothing that can be reached.
-/

namespace LayeredConfig.Session

variable {layers : Layers} {session : Session} {event : Event}

/-- Every section that is named somewhere is there. -/
structure Sound (session : Session) : Prop where
  closed : session.store.Closed (Set.Iio session.store.size)
  held_within : ∀ held ∈ session.held, held.handle.Within (Set.Iio session.store.size)

/-- The session comes from a first load, by events that store any values whose sections there are. -/
abbrev Used (layers : Layers) (session : Session) : Prop :=
  Reached layers (fun session => Set.Iio session.store.size) session

theorem grown_Iio {store after : Store} (h : store.size ≤ after.size) :
    store.grown (Set.Iio store.size) after = Set.Iio after.size := by
  ext id
  simp only [Store.grown, Set.mem_union, Set.mem_Iio, Set.mem_Ico]
  grind

theorem Sound.step (h : session.Sound) (hpossible : event.Possible session)
    (hstores : event.Stores (Set.Iio session.store.size)) : (session.perform event).Sound := by
  have hthrough : event.Through (Set.Iio session.store.size) := by
    cases event with
    | access held done => exact h.held_within held hpossible
    | _ => trivial
  obtain ⟨hedits, hheld⟩ := perform_edits h.closed hthrough hstores
  have hgrown := grown_Iio hedits.size_le
  refine ⟨hgrown ▸ hedits.closed h.closed, fun held hmem => ?_⟩
  rcases hheld held hmem with hold | ⟨_, hwithin⟩
  · exact (h.held_within held hold).mono (Set.Iio_subset_Iio hedits.size_le)
  · exact hgrown ▸ hwithin

theorem Used.sound (h : Used layers session) : session.Sound := by
  induction h with
  | start hstart =>
      obtain ⟨hedits, hheld⟩ := start_edits hstart
      have hgrown {store : Store} : Store.empty.grown ∅ store = Set.Iio store.size := by
        ext id
        simp [Store.grown, Store.empty, Store.size]
      refine ⟨hgrown ▸ hedits.closed (Store.closed_empty _), fun held hmem => ?_⟩
      exact hgrown ▸ (hheld held hmem).2
  | step _ hpossible hstores ih => exact ih.step hpossible hstores

theorem layers_perform (session : Session) (event : Event) :
    (session.perform event).configuration.layers = session.configuration.layers := by
  cases event with
  | reload =>
      simp only [perform]
      split <;> rfl
  | _ => rfl

theorem Used.layers_eq (h : Used layers session) : session.configuration.layers = layers := by
  induction h with
  | start hstart =>
      obtain ⟨⟨configuration, store⟩, hbuild, hstart⟩ := bind_eq_ok_iff.mp hstart
      obtain ⟨⟨current, loaded⟩, _, hbuild⟩ := bind_eq_ok_iff.mp hbuild
      cases hstart
      cases hbuild
      rfl
  | step _ _ _ ih => rw [layers_perform, ih]

theorem load_of_build_error {world : World} {store : Store} {failure : Failure}
    (h : Configuration.build layers world store = .error failure) : layers.load world store = .error failure := by
  rw [Configuration.build] at h
  cases hload : layers.load world store with
  | error reason =>
      rw [hload] at h
      cases h
      rfl
  | ok loaded =>
      rw [hload] at h
      cases h

/-- After any use of a configuration, a reload gives the environment and the tree that a first load gives in any other
place now. Where that fails, the reload fails for the same reason, and the configuration and all sections that
can be reached are what they were. -/
theorem reload_eq_build (h : Used layers session) (elsewhere : Store) :
    (∀ reloaded after, session.configuration.reload session.world session.store = .ok (reloaded, after) →
      (session.perform .reload).configuration = reloaded ∧ (session.perform .reload).store = after ∧
      ∃ built fresh, Configuration.build layers session.world elsewhere = .ok (built, fresh) ∧
        reloaded.current.environment = built.current.environment ∧
        ∀ path, after.shapeAt reloaded.current.handle.tree path = fresh.shapeAt built.current.handle.tree path) ∧
    ∀ failure, Configuration.build layers session.world elsewhere = .error failure →
      session.configuration.reload session.world session.store = .error failure ∧
      (session.perform .reload).configuration = session.configuration ∧
      ∀ held ∈ session.held, ∀ id ∈ held.handle.reach session.store,
        (session.perform .reload).store.entries id = session.store.entries id := by
  have hlayers := h.layers_eq
  refine ⟨fun reloaded after hreload => ?_, fun failure hbuild => ?_⟩
  · obtain ⟨⟨current, loaded⟩, hload, hreload⟩ := bind_eq_ok_iff.mp hreload
    cases hreload
    have hleft := Layers.load_eq_ok_iff.mp hload
    refine ⟨by simp only [perform, hleft], by simp only [perform, hleft], ?_⟩
    rw [hlayers] at hload
    obtain ⟨built, fresh, hbuilt, henvironment, hshape⟩ := Layers.load_ok_elsewhere hload elsewhere
    refine ⟨⟨layers, built⟩, fresh, ?_, henvironment, hshape⟩
    rw [Configuration.build, hbuilt]
    rfl
  · have hload := Layers.load_error_elsewhere (load_of_build_error hbuild) session.store
    rw [← hlayers] at hload
    have hleft := Layers.load_eq_error_iff.mp hload
    refine ⟨?_, ?_, fun held hheld id hid => ?_⟩
    · rw [Configuration.reload, hload]
      rfl
    · simp only [perform]
      split
      · rfl
      · rename_i hleaving
        rw [hleaving] at hleft
        cases hleft
    · -- What the stages before the failure made stays in the store, behind all that there was.
      have hsound := h.sound
      have hlt := Handle.reach_subset hsound.closed (hsound.held_within held hheld) hid
      exact session.reload_edits.entries_eq_of_lt hlt (Set.notMem_empty id)

/-- Documents without one for the environment that they name. -/
def shortWorld : World := ⟨.ofDocuments [("app", "application:\n- env: dev\n"), ("model", "")], []⟩

def shortened : Session := reloaded.perform (.change shortWorld)

/-- After the first load was worked with, a reload gives what a first load gives, with the new port. When the last document
is gone, another reload fails on its way, and all is kept. -/
theorem reload_worked :
    (∃ built fresh, Configuration.build serverLayers worked.world .empty = .ok (built, fresh) ∧
      reloaded.configuration.current.environment = built.current.environment ∧
      (∀ path, reloaded.store.shapeAt reloaded.configuration.current.handle.tree path =
        fresh.shapeAt built.current.handle.tree path) ∧
      reloaded.configuration.current.handle.lookup reloaded.store (some "server") "port" = .ok (some (.text "5"))) ∧
    shortened.configuration.reload shortened.world shortened.store = .error (.documentNotFound "env.dev") ∧
      (shortened.perform .reload).configuration = shortened.configuration ∧
      ∀ held ∈ shortened.held, ∀ id ∈ held.handle.reach shortened.store,
        (shortened.perform .reload).store.entries id = shortened.store.entries id := by
  constructor
  · have hreload : worked.configuration.reload worked.world worked.store = .ok (reloaded.configuration, reloaded.store) := by
      cbv
    obtain ⟨_, _, built, fresh, hbuild, henvironment, hshape⟩ := (reload_eq_build reached_worked .empty).1 _ _ hreload
    exact ⟨built, fresh, hbuild, henvironment, hshape, lookup_reloaded⟩
  · have hused : Used serverLayers shortened := reached_reloaded.step trivial trivial
    have hbuild : Configuration.build serverLayers shortened.world .empty = .error (.documentNotFound "env.dev") := by cbv
    exact (reload_eq_build hused .empty).2 _ hbuild

end LayeredConfig.Session
