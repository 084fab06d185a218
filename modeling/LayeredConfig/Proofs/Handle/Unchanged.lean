import LayeredConfig.Proofs.Handle.Edits
import LayeredConfig.Proofs.Projection.Walk
import LayeredConfig.Proofs.Reference.Likeness

/-!
# What is seen through a handle

All that is seen through a handle depends on the entries of the sections that can be reached from it. Where these are
as they were, every read and every projection gives what it gave.
-/

namespace LayeredConfig

namespace Store

variable {before after : Store} {region : Set SectionId} {root id : SectionId}

theorem get?_eq (h : after.entries id = before.entries id) (key : String) :
    after.get? id key = before.get? id key := by
  rw [get?, get?, h]

theorem child?_eq (h : after.entries id = before.entries id) (key : String) :
    after.child? id key = before.child? id key := by
  rw [child?, child?, get?_eq h]

/-- A closed region with the same entries is resolved in as before. -/
theorem alike_of_closed (hclosed : before.Closed region) (hroot : root ∈ region)
    (hsame : ∀ id ∈ region, after.entries id = before.entries id) :
    after.Alike before root root fun mine yours => mine = yours ∧ yours ∈ region where
  topLevel name := by
    rw [child?_eq (hsame root hroot)]
    cases hchild : before.child? root name with
    | none => exact .none
    | some child => exact .some ⟨rfl, hclosed.of_child? hroot hchild⟩
  written := by
    rintro _ yours ⟨rfl, hid⟩ key
    rw [get?_eq (hsame _ hid)]

theorem resolve_of_closed (hclosed : before.Closed region) (hroot : root ∈ region)
    (hsame : ∀ id ∈ region, after.entries id = before.entries id) (hid : id ∈ region) (text : String) :
    after.resolve root id text = before.resolve root id text :=
  (alike_of_closed hclosed hroot hsame).resolve_eq ⟨rfl, hid⟩ text

theorem projectWithin_of_closed (hclosed : before.Closed region) (hroot : root ∈ region)
    (hsame : ∀ id ∈ region, after.entries id = before.entries id) (opened : List SectionId) (hid : id ∈ region) :
    after.projectWithin root opened id = before.projectWithin root opened id := by
  induction opened, id using before.walk_induction with
  | step opened id ih =>
      rw [projectWithin_eq, projectWithin_eq, hsame id hid]
      split
      · rfl
      · rename_i hopened
        refine mapM_congr fun entry hentry => congrArg _ ?_
        have hinner := hclosed id hid entry hentry
        cases hvalue : entry.2 with
        | nested role child =>
            rw [hvalue] at hinner
            have hchild := ih hopened (lt_size_of_mem_entries hentry) child (hinner child rfl)
            rw [projectValue, projectValue, hchild]
        | scalar content =>
            cases content with
            | text raw => exact congrArg (Except.map _) (resolve_of_closed hclosed hroot hsame hid raw)
            | _ => rfl

end Store

namespace Handle

variable {before after : Store} {region : Set SectionId} {handle : Handle}

/-- The sections that can be reached from the handle. -/
def reach (store : Store) (handle : Handle) : Set SectionId :=
  { id | store.Reaches handle.scope id ∨ store.Reaches handle.root id }

/-- Everything that can be seen through the handle is the same in both stores. -/
structure Unchanged (handle : Handle) (before after : Store) : Prop where
  entries : ∀ id ∈ handle.reach before, after.entries id = before.entries id
  keys : handle.keys after = handle.keys before
  lookup : ∀ within key, handle.lookup after within key = handle.lookup before within key
  read : ∀ target within key,
    (handle.read after target within key).map Prod.fst = (handle.read before target within key).map Prod.fst
  readText : ∀ within key,
    (handle.readText after within key).map Prod.fst = (handle.readText before within key).map Prod.fst
  readNested : ∀ within key,
    (handle.readNested after within key).map Prod.fst = (handle.readNested before within key).map Prod.fst
  projection : handle.projection after = handle.projection before

theorem reach_subset (hclosed : before.Closed region) (h : handle.Within region) :
    handle.reach before ⊆ region := by
  rintro id (hscope | hroot)
  · exact hclosed.of_reaches h.1 hscope
  · exact hclosed.of_reaches h.2 hroot

theorem readText_fst (store : Store) (handle : Handle) (within : Option String) (key : String) :
    (handle.readText store within key).map Prod.fst =
      ((handle.read store (.scalar .text) within key).map Prod.fst).map fun value? => value?.bind Value.render := by
  rw [readText]
  cases handle.read store (.scalar .text) within key <;> rfl

theorem readNested_fst (store : Store) (handle : Handle) (within : Option String) (key : String) :
    (handle.readNested store within key).map Prod.fst =
      ((handle.read store (.nested .handedOut) within key).map Prod.fst).map fun value? =>
        (value?.bind Value.section?).map fun id => { handle with scope := id } := by
  rw [readNested]
  cases handle.read store (.nested .handedOut) within key <;> rfl

section

variable (hclosed : before.Closed region) (hhandle : handle.Within region)
  (hsame : ∀ id ∈ region, after.entries id = before.entries id) (within : Option String) (key : String)
include hclosed hhandle hsame

omit hclosed in
theorem owner_of_closed : handle.owner after within = handle.owner before within := by
  cases within with
  | none => rfl
  | some name => rw [owner, owner, Store.child?_eq (hsame _ hhandle.1)]

theorem lookup_of_closed : handle.lookup after within key = handle.lookup before within key := by
  rw [lookup, lookup, owner_of_closed hhandle hsame]
  cases howner : handle.owner before within with
  | error failure => simp only [bind, Except.bind]
  | ok owner =>
      have hmem := owner_mem hclosed hhandle.1 howner
      have hresolve := Store.resolve_of_closed hclosed hhandle.2 hsame hmem
      simp only [bind, Except.bind, Store.get?_eq (hsame owner hmem)]
      split
      · rw [hresolve]
      · rfl

theorem read_of_closed (target : Kind) :
    (handle.read after target within key).map Prod.fst = (handle.read before target within key).map Prod.fst := by
  rw [read_fst, read_fst, lookup_of_closed hclosed hhandle hsame]

theorem unchanged_of_closed : handle.Unchanged before after where
  entries id hid := hsame id (reach_subset hclosed hhandle hid)
  keys := congrArg Entries.keys (hsame _ hhandle.1)
  lookup := lookup_of_closed hclosed hhandle hsame
  read target within key := read_of_closed hclosed hhandle hsame within key target
  readText within key := by
    rw [readText_fst, read_of_closed hclosed hhandle hsame within key, ← readText_fst]
  readNested within key := by
    rw [readNested_fst, read_of_closed hclosed hhandle hsame within key, ← readNested_fst]
  projection := by
    rw [projection, projection, Store.projectWithin_of_closed hclosed hhandle.2 hsame [] hhandle.1]

end

end Handle

end LayeredConfig
