import LayeredConfig.Document.Draft
import LayeredConfig.Overrides
import LayeredConfig.Projection
import LayeredConfig.Proofs.Handle.Edits

/-!
# Operations

All that can be done through a handle, with what it gives and what it leaves in the store. An operation goes step by step,
and what was written in front of a step that fails would stay written. It turns out that no step comes after a write, so
that an operation which fails has written nothing.
-/

namespace LayeredConfig

/-- What is done with the entry under a key. -/
inductive Accessor where
  | look
  | read (target : Kind)
  | readText
  | readNested
  | put (value : Value)

inductive Operation where
  /-- Goes to an entry of the handle's section, or of the section directly in it that `within` names. -/
  | entry (within : Option String) (key : String) (accessor : Accessor)
  /-- Resolves a text as one that stands in the handle's section. -/
  | resolve (text : String)
  | project
  | override (overrides : Overrides) (vars : List (String × String))
  | merge (text : String)

inductive Answer where
  | value (value : Value)
  | text (text : String)
  | handle (handle : Handle)
  | projection (projection : Projection)
  | count (count : Nat)
  /-- There is nothing to tell but that it was done. -/
  | done

/-- A failure, or an answer. There is none where nothing stands under the key. -/
abbrev Operation.Result := Except Failure (Option Answer)

/-! ## Accesses with what they leave behind -/

namespace Handle

/-- Puts a value under a key, and tells what is in the store afterwards whether or not that succeeds. -/
def putLeaving (store : Store) (handle : Handle) (within : Option String) (key : String) (value : Value) :
    Except Failure Unit × Store :=
  match handle.owner store within with
  | .error failure => (.error failure, store)
  | .ok owner => (.ok (), store.insert owner key value)

/-- Reads the value under a key, and tells what is in the store afterwards whether or not that succeeds. -/
def readLeaving (store : Store) (handle : Handle) (target : Kind) (within : Option String) (key : String) :
    Except Failure (Option Value) × Store :=
  match handle.lookup store within key with
  | .error failure => (.error failure, store)
  | .ok none => (.ok none, store)
  | .ok (some value) =>
    if value.kind = target then (.ok (some value), store)
    else
      match value.convert key target with
      | .error failure => (.error failure, store)
      | .ok converted =>
        let (written, store) := handle.putLeaving store within key converted
        (written.map fun _ => some converted, store)

end Handle

/-- What is in the store after a step that changes nothing if it fails. -/
def settled {α : Type} (store : Store) : Except Failure (α × Store) → Except Failure α × Store
  | .error failure => (.error failure, store)
  | .ok (value, after) => (.ok value, after)

namespace Handle

variable (store : Store) (handle : Handle) (within : Option String) (key : String)

theorem putLeaving_eq (value : Value) :
    handle.putLeaving store within key value =
      settled store ((handle.put store within key value).map fun after => ((), after)) := by
  rw [putLeaving, put]
  cases handle.owner store within <;> rfl

theorem readLeaving_eq (target : Kind) :
    handle.readLeaving store target within key = settled store (handle.read store target within key) := by
  rw [readLeaving, read]
  rcases handle.lookup store within key with failure | _ | value
  · rfl
  · rfl
  · simp only [bind, Except.bind, putLeaving_eq]
    split
    · rfl
    · cases value.convert key target with
      | error failure => rfl
      | ok converted =>
          dsimp only
          cases handle.put store within key converted <;> rfl

end Handle

/-! ## Operations -/

/-- What the accessor gives and what it leaves. -/
def Accessor.perform (store : Store) (handle : Handle) (within : Option String) (key : String) :
    Accessor → Operation.Result × Store
  | .look => ((handle.lookup store within key).map (Option.map .value), store)
  | .read target =>
    let (value?, after) := handle.readLeaving store target within key
    (value?.map (Option.map .value), after)
  | .readText =>
    let (value?, after) := handle.readLeaving store (.scalar .text) within key
    (value?.map fun value? => (value?.bind Value.render).map .text, after)
  | .readNested =>
    let (value?, after) := handle.readLeaving store (.nested .handedOut) within key
    (value?.map fun value? => (value?.bind Value.section?).map fun id => .handle { handle with scope := id }, after)
  | .put value =>
    let (written, after) := handle.putLeaving store within key value
    (written.map fun _ => some .done, after)

namespace Operation

/-- What the operation gives and what it leaves. -/
def perform (store : Store) (handle : Handle) : Operation → Result × Store
  | .entry within key accessor => accessor.perform store handle within key
  | .resolve text => ((store.resolve handle.root handle.scope text).map fun text => some (.text text), store)
  | .project => ((handle.projection store).map fun projection => some (.projection projection), store)
  | .override overrides vars =>
    let (count, after) := overrides.apply store handle.scope vars
    (.ok (some (.count count)), after)
  | .merge text => (.ok (some .done), store.merge handle.scope (Document.ofText text))

/-- Performs operations one after another, each through its handle. -/
def run (store : Store) : List (Handle × Operation) → List Result × Store
  | [] => ([], store)
  | (handle, operation) :: rest =>
    let (result, after) := operation.perform store handle
    let (results, last) := run after rest
    (result :: results, last)

end Operation

/-! ## Whole reads and writes -/

namespace Accessor

/-- The read or write that the accessor stands for. -/
def whole (store : Store) (handle : Handle) (within : Option String) (key : String) :
    Accessor → Except Failure (Option Answer × Store)
  | .look => (handle.lookup store within key).map fun value? => (value?.map .value, store)
  | .read target => (handle.read store target within key).map fun read => (read.1.map .value, read.2)
  | .readText => (handle.readText store within key).map fun read => (read.1.map .text, read.2)
  | .readNested => (handle.readNested store within key).map fun read => (read.1.map .handle, read.2)
  | .put value => (handle.put store within key value).map fun after => (some .done, after)

/-- Step by step, an accessor gives and leaves what it does as a whole, and leaves everything as it was if it fails. -/
theorem perform_eq (store : Store) (handle : Handle) (within : Option String) (key : String) (accessor : Accessor) :
    accessor.perform store handle within key = settled store (accessor.whole store handle within key) := by
  cases accessor with
  | look =>
      simp only [perform, whole]
      cases handle.lookup store within key <;> rfl
  | read target =>
      simp only [perform, whole, Handle.readLeaving_eq]
      cases handle.read store target within key <;> rfl
  | readText =>
      simp only [perform, whole, Handle.readLeaving_eq, Handle.readText]
      cases handle.read store (.scalar .text) within key <;> rfl
  | readNested =>
      simp only [perform, whole, Handle.readLeaving_eq, Handle.readNested]
      cases handle.read store (.nested .handedOut) within key with
      | error failure => rfl
      | ok read => simp [settled, bind, Except.bind, Except.map, pure, Except.pure, Function.comp_def]
  | put value =>
      simp only [perform, whole, Handle.putLeaving_eq]
      cases handle.put store within key value <;> rfl

end Accessor

end LayeredConfig
