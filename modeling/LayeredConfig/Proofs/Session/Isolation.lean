import LayeredConfig.Proofs.Handle.Unchanged
import LayeredConfig.Proofs.Session.Basic

/-!
# Loads are isolated

As long as no section is stored as a value, each load has a part of the store to itself. So nothing that is done through
the handles of one load, and no reload, is seen through the handles of another.
-/

namespace LayeredConfig.Session

/-- Every load has a closed region of its own that its handles stay in. -/
structure Separated (store : Store) (held : List Held) (regions : Option Nat → Set SectionId) : Prop where
  disjoint : ∀ load other, load ≠ other → Disjoint (regions load) (regions other)
  closed : ∀ load, store.Closed (regions load)
  lt_size : ∀ load, ∀ id ∈ regions load, id < store.size
  held_within : ∀ one ∈ held, one.handle.Within (regions one.load)

variable {session : Session} {event : Event} {store after : Store} {held later : List Held}
  {regions : Option Nat → Set SectionId} {load other : Option Nat}

namespace Separated

/-- What is done in the region of one load leaves those of others as they are. -/
theorem entries_eq (h : Separated store held regions) (hedits : store.Edits (regions load) after)
    (hne : load ≠ other) {id : SectionId} (hid : id ∈ regions other) : after.entries id = store.entries id :=
  hedits.entries_eq_of_lt (h.lt_size other id hid) fun hload =>
    Set.disjoint_left.mp (h.disjoint load other hne) hload hid

theorem grown_disjoint (h : Separated store held regions) (hne : load ≠ other) :
    Disjoint (store.grown (regions load) after) (regions other) := by
  refine Set.disjoint_left.mpr fun id hid hmem => ?_
  rcases hid with hid | hnew
  · exact Set.disjoint_left.mp (h.disjoint load other hne) hid hmem
  · exact absurd (h.lt_size other id hmem) (Nat.not_lt_of_le hnew.1)

theorem closed_other (h : Separated store held regions) (hedits : store.Edits (regions load) after)
    (hne : load ≠ other) : after.Closed (regions other) := by
  intro parent hparent entry hentry
  rw [h.entries_eq hedits hne hparent] at hentry
  exact h.closed other parent hparent entry hentry

/-- The load in whose region something is done gets the new sections. -/
theorem edits (h : Separated store held regions) (load : Option Nat) (hedits : store.Edits (regions load) after)
    (hheld : ∀ one ∈ later, one ∈ held ∨ (one.load = load ∧ one.handle.Within (store.grown (regions load) after))) :
    ∃ grown, Separated after later grown := by
  classical
  refine ⟨Function.update regions load (store.grown (regions load) after), ⟨fun one other hne => ?_, ?_, ?_,
    fun one hone => ?_⟩⟩
  · by_cases hone : one = load
    · subst hone
      rw [Function.update_self, Function.update_of_ne hne.symm]
      exact h.grown_disjoint hne
    · by_cases hother : other = load
      · subst hother
        rw [Function.update_self, Function.update_of_ne hne]
        exact (h.grown_disjoint hne.symm).symm
      · rw [Function.update_of_ne hone, Function.update_of_ne hother]
        exact h.disjoint one other hne
  · refine (Function.forall_update_iff regions fun _ region => after.Closed region).mpr ⟨?_, fun other hne => ?_⟩
    · exact hedits.closed (h.closed load)
    · exact h.closed_other hedits hne.symm
  · refine (Function.forall_update_iff regions fun _ region => ∀ id ∈ region, id < after.size).mpr
      ⟨fun id hid => ?_, fun other _ id hid => Nat.lt_of_lt_of_le (h.lt_size other id hid) hedits.size_le⟩
    rcases hid with hid | hnew
    · exact Nat.lt_of_lt_of_le (h.lt_size load id hid) hedits.size_le
    · exact hnew.2
  · by_cases hload : one.load = load
    · subst hload
      rw [Function.update_self]
      rcases hheld one hone with hold | ⟨_, hwithin⟩
      · exact (h.held_within one hold).mono Store.subset_grown
      · exact hwithin
    · rw [Function.update_of_ne hload]
      rcases hheld one hone with hold | ⟨hsame, _⟩
      · exact h.held_within one hold
      · exact absurd hsame hload

theorem step (h : Separated session.store session.held regions) (hpossible : event.Possible session)
    (hstores : event.Stores ∅) :
    ∃ grown, Separated (session.perform event).store (session.perform event).held grown := by
  have hthrough : event.Through (regions (event.load session)) := by
    cases event with
    | access held done => exact h.held_within held hpossible
    | _ => trivial
  obtain ⟨hedits, hheld⟩ := perform_edits (h.closed (event.load session)) hthrough
    (hstores.mono (Set.empty_subset _))
  exact h.edits _ hedits hheld

/-- In a session that stores no sections as values. -/
theorem of_reached {layers : Layers} (h : Reached layers (fun _ => ∅) session) :
    ∃ regions, Separated session.store session.held regions := by
  induction h with
  | @start world session hstart =>
      have hempty : Separated .empty [] fun _ => ∅ := by
        refine ⟨fun _ _ _ => Set.disjoint_empty _, fun _ => Store.closed_empty _, fun _ id hid => ?_,
          fun one hone => ?_⟩
        · exact absurd hid (Set.notMem_empty id)
        · cases hone
      obtain ⟨hedits, hwithin⟩ := start_edits hstart
      exact hempty.edits (some 0) hedits fun one hone => .inr (hwithin one hone)
  | step _ hpossible hstores ih =>
      obtain ⟨regions, hseparated⟩ := ih
      exact hseparated.step hpossible hstores

end Separated

/-- As long as no section is stored as a value, handles of different loads reach no section in common, and an event
that is not an access through a handle of a load changes nothing that is seen through one. -/
theorem isolated {layers : Layers} (h : Reached layers (fun _ => ∅) session) :
    (∀ one ∈ session.held, ∀ other ∈ session.held, one.load ≠ other.load →
      Disjoint (one.handle.reach session.store) (other.handle.reach session.store)) ∧
    ∀ event : Event, event.Possible session → event.Stores ∅ → ∀ other ∈ session.held, event.Spares other.load →
      other.handle.Unchanged session.store (session.perform event).store := by
  obtain ⟨regions, hseparated⟩ := Separated.of_reached h
  have hreach (one : Held) (hone : one ∈ session.held) : one.handle.reach session.store ⊆ regions one.load :=
    Handle.reach_subset (hseparated.closed one.load) (hseparated.held_within one hone)
  refine ⟨fun one hone other hother hne => ?_, fun event hpossible hstores other hother hspares => ?_⟩
  · exact (hseparated.disjoint _ _ hne).mono (hreach one hone) (hreach other hother)
  · refine Handle.unchanged_of_closed (hseparated.closed other.load) (hseparated.held_within other hother)
      fun id hid => ?_
    cases event with
    | access held done =>
        have hthrough : (Event.access held done).Through (regions held.load) := hseparated.held_within held hpossible
        have hedits := perform_edits (hseparated.closed held.load) hthrough (hstores.mono (Set.empty_subset _))
        exact hseparated.entries_eq hedits.1 hspares hid
    | _ =>
        have hedits := perform_edits (Store.closed_empty session.store) (by trivial) hstores
        exact hedits.1.entries_eq_of_lt (hseparated.lt_size other.load id hid) (Set.notMem_empty id)

def portPut : Event := .access ⟨some 1, .ofRoot 4⟩ (.put (some "server") "port" (.text "9"))

def hostOverridden : Event :=
  .access ⟨some 0, .ofRoot 0⟩ (.override serverOverrides [("APP_SERVER_HOST", "c")])

/-- After a reload, the handles of the two loads reach different sections. A port that is put through the second is found
there, and not through the first; a host that is overridden through the first is not seen through the second. -/
theorem isolated_reloaded :
    Disjoint ((Handle.ofRoot 0).reach reloaded.store) ((Handle.ofRoot 4).reach reloaded.store) ∧
    ((Handle.ofRoot 0).lookup reloaded.store (some "server") "port" = .ok (some (.scalar (.int 2))) ∧
      (Handle.ofRoot 4).lookup (reloaded.perform portPut).store (some "server") "port" = .ok (some (.text "9")) ∧
      (Handle.ofRoot 0).Unchanged reloaded.store (reloaded.perform portPut).store) ∧
    (Handle.ofRoot 4).lookup reloaded.store (some "server") "host" = .ok (some (.text "b")) ∧
      (Handle.ofRoot 0).lookup (reloaded.perform hostOverridden).store (some "server") "host" = .ok (some (.text "c")) ∧
      (Handle.ofRoot 4).Unchanged reloaded.store (reloaded.perform hostOverridden).store := by
  obtain ⟨hdisjoint, hunchanged⟩ := isolated reached_reloaded
  have hfirst : ⟨some 0, .ofRoot 0⟩ ∈ reloaded.held := by simp [held_reloaded]
  have hsecond : ⟨some 1, .ofRoot 4⟩ ∈ reloaded.held := by simp [held_reloaded]
  have hput : portPut.Possible reloaded ∧ portPut.Stores ∅ := ⟨hsecond, fun _ hsection => by cases hsection⟩
  have hoverride : hostOverridden.Possible reloaded ∧ hostOverridden.Stores ∅ := ⟨hfirst, trivial⟩
  refine ⟨hdisjoint _ hfirst _ hsecond (by simp), ⟨by cbv, by cbv, ?_⟩, by cbv, by cbv, ?_⟩
  · exact hunchanged portPut hput.1 hput.2 _ hfirst (by simp [portPut, Event.Spares])
  · exact hunchanged hostOverridden hoverride.1 hoverride.2 _ hsecond (by simp [hostOverridden, Event.Spares])

end LayeredConfig.Session
