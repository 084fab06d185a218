import LayeredConfig.Handle
import LayeredConfig.Overrides
import LayeredConfig.Proofs.Reference.Likeness
import LayeredConfig.Proofs.Store.Path

/-!
# Stores carried into others

A store can be carried into another one that has its sections under other names, or in other roles, such that a section is
read, written and made alike in both. Then so are documents and overrides put into a section, paths followed, references
resolved and entries looked up, which come down to these.
-/

namespace LayeredConfig

/-- What is done to a store is carried into what is done to `f` of it, where the sections are called by `name` and `carry`
gives what stands for a value. -/
structure Store.Carries (f : Store → Store) (name : SectionId → SectionId) (carry : Value → Value) : Prop where
  scalar : ∀ content, carry (.scalar content) = .scalar content
  nested : ∀ id, carry (.nested .plain id) = .nested .plain (name id)
  names : ∀ value, (carry value).section? = value.section?.map name
  get? : ∀ store id key, (f store).get? (name id) key = (store.get? id key).map carry
  insert : ∀ store id key value, (f store).insert (name id) key (carry value) = f (store.insert id key value)
  alloc : ∀ store entries, (f store).alloc (entries.mapValues carry) = (name store.size, f (store.alloc entries).2)

/-- The handle on the sections that are called by `name`. -/
def Handle.named (name : SectionId → SectionId) (handle : Handle) : Handle := ⟨name handle.scope, name handle.root⟩

namespace Store.Carries

variable {f : Store → Store} {name : SectionId → SectionId} {carry : Value → Value}

/-! ## Documents -/

mutual

theorem addNode (h : Carries f name carry) (store : Store) : (node : Node) →
    (f store).addNode node = (carry (store.addNode node).1, f (store.addNode node).2)
  | .text value => Prod.ext (h.scalar (.text value)).symm rfl
  | .branch nodes => by
      have hsize : (f (store.addNodes nodes).2).size = name (store.addNodes nodes).2.size :=
        congrArg Prod.fst (h.alloc _ [])
      rw [addNode_branch, addNodes h store nodes, addNode_branch, h.alloc, h.nested, hsize]

theorem addNodes (h : Carries f name carry) (store : Store) : (nodes : List (String × Node)) →
    (f store).addNodes nodes = (Entries.mapValues (store.addNodes nodes).1 carry, f (store.addNodes nodes).2)
  | [] => rfl
  | (key, node) :: rest => by
      rw [addNodes_cons, addNode h store node, addNodes h (store.addNode node).2 rest, addNodes_cons,
        Entries.mapValues_cons]

end

variable (h : Carries f name carry) (store : Store) (id : SectionId) (key : String)
include h

theorem foldl_insert (values : Entries Value) :
    (Entries.mapValues values carry).foldl (fun store entry => store.insert (name id) entry.1 entry.2) (f store) =
      f (values.foldl (fun store entry => store.insert id entry.1 entry.2) store) := by
  induction values generalizing store with
  | nil => rfl
  | cons entry rest ih => rw [Entries.mapValues_cons, List.foldl_cons, h.insert, ih, List.foldl_cons]

theorem merge (document : Document) : (f store).merge (name id) document = f (store.merge id document) := by
  rw [Store.merge, h.addNodes]
  exact h.foldl_insert _ id _

/-! ## Overrides -/

theorem child? : (f store).child? (name id) key = (store.child? id key).map name := by
  rw [Store.child?, h.get?, Store.child?]
  cases store.get? id key with
  | none => rfl
  | some value => exact h.names value

theorem enter :
    (f store).enter (name id) key = (name (store.enter id key).1, f (store.enter id key).2) := by
  rw [Store.enter, h.child?, Store.enter]
  cases store.child? id key with
  | some child => rfl
  | none =>
      have hmade : (f store).alloc [] = (name store.size, f (store.alloc []).2) := h.alloc store []
      simp only [Option.map_none, hmade, ← h.nested]
      exact congrArg (Prod.mk _) (h.insert _ id key (.nested .plain store.size))

theorem setPath (path : List String) (text : String) :
    (f store).setPath (name id) path text = f (store.setPath id path text) := by
  induction path generalizing store id with
  | nil => rfl
  | cons key path ih =>
      cases path with
      | nil =>
          have hinsert := h.insert store id key (.text text)
          rwa [Value.text, h.scalar] at hinsert
      | cons next path => rw [setPath_cons_cons, h.enter, ih, setPath_cons_cons]

theorem foldl_applyOne (overrides : Overrides) (count : Nat) (vars : List (String × String)) :
    vars.foldl (overrides.applyOne (name id)) (count, f store) =
      ((vars.foldl (overrides.applyOne id) (count, store)).1,
        f (vars.foldl (overrides.applyOne id) (count, store)).2) := by
  induction vars generalizing store count with
  | nil => rfl
  | cons entry rest ih =>
      simp only [List.foldl_cons, Overrides.applyOne]
      split
      · rw [h.setPath, ih]
      · exact ih store count

theorem apply (overrides : Overrides) (vars : List (String × String)) :
    overrides.apply (f store) (name id) vars = ((overrides.apply store id vars).1, f (overrides.apply store id vars).2) :=
  h.foldl_applyOne store id overrides 0 vars

/-! ## Paths and references -/

theorem follow (value : Value) (path : List String) :
    (f store).follow (carry value) path = (store.follow value path).map carry := by
  induction path generalizing value with
  | nil => rfl
  | cons key path ih =>
      rw [Store.follow, Store.follow, h.names]
      cases value.section? with
      | none => rfl
      | some id =>
          simp only [Option.map_some, Option.bind_some, h.get?]
          cases store.get? id key with
          | none => rfl
          | some next => exact ih next

theorem render (value : Value) : (carry value).render = value.render := by
  cases value with
  | scalar content => rw [h.scalar]
  | nested role id => exact (Value.render_eq_none_iff _).mpr ⟨name id, h.names _⟩

theorem alike (root : SectionId) : (f store).Alike store (name root) root fun mine yours => mine = name yours where
  topLevel key := by
    rw [h.child?]
    cases store.child? root key with
    | none => exact .none
    | some child => exact .some rfl
  written := by
    rintro _ yours rfl key
    rw [h.get?]
    cases store.get? yours key with
    | none => rfl
    | some value => exact congrArg some (h.render value)

theorem resolve (root scope : SectionId) (text : String) :
    (f store).resolve (name root) (name scope) text = store.resolve root scope text :=
  (h.alike store root).resolve_eq rfl text

/-! ## Accesses -/

variable (handle : Handle) (within : Option String)

theorem owner : (handle.named name).owner (f store) within = (handle.owner store within).map name := by
  cases within with
  | none => rfl
  | some key =>
      simp only [Handle.owner, Handle.named, h.child?]
      cases store.child? handle.scope key <;> rfl

theorem lookup :
    (handle.named name).lookup (f store) within key = (handle.lookup store within key).map (Option.map carry) := by
  rw [Handle.lookup, Handle.lookup, h.owner]
  cases handle.owner store within with
  | error failure => rfl
  | ok owner =>
      simp only [bind, Except.bind, Except.map, h.get?]
      rcases store.get? owner key with _ | ⟨content⟩ | ⟨role, id⟩
      · rfl
      · rw [Option.map_some, h.scalar]
        cases content with
        | text raw =>
            simp only [Handle.named, h.resolve]
            cases store.resolve handle.root owner raw with
            | error failure => rfl
            | ok text => exact congrArg (Except.ok ∘ some) (h.scalar (.text text)).symm
        | _ => exact congrArg (Except.ok ∘ some) (h.scalar _).symm
      · have hsection := h.names (.nested role id)
        rw [Option.map_some]
        cases hcarry : carry (.nested role id) with
        | scalar content =>
            rw [hcarry] at hsection
            cases hsection
        | nested other id' => exact congrArg (Except.ok ∘ some) hcarry.symm

theorem put (value : Value) :
    (handle.named name).put (f store) within key (carry value) = (handle.put store within key value).map f := by
  rw [Handle.put, Handle.put, h.owner]
  cases handle.owner store within with
  | error failure => rfl
  | ok owner => exact congrArg Except.ok (h.insert store owner key value)

end Store.Carries

end LayeredConfig
