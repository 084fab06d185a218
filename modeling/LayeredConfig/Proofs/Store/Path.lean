import LayeredConfig.Store.Basic
import Mathlib.Data.List.Induction

/-!
# Trees, path by path

What unfolds from a value is told by what stands at each path: a scalar, or a section with its keys in order. A tree in
which every section stands at one path only can be grafted into: an entry is written in one section, and the
paths that change are those that go through the entry.
-/

namespace LayeredConfig

/-- What stands at one place of a tree. -/
inductive Shape where
  | scalar (content : Scalar)
  | nested (role : Role) (keys : List String)
  deriving DecidableEq

namespace Store

def shape (store : Store) : Value → Shape
  | .scalar content => .scalar content
  | .nested role id => .nested role (store.entries id).keys

/-- The value that a path leads to. -/
def follow (store : Store) (value : Value) : (path : List String) → Option Value
  | [] => some value
  | key :: path => (value.section?.bind (store.get? · key)).bind fun next => store.follow next path

def shapeAt (store : Store) (value : Value) (path : List String) : Option Shape :=
  (store.follow value path).map store.shape

def sectionAt (store : Store) (value : Value) (path : List String) : Option SectionId :=
  (store.follow value path).bind Value.section?

/-- Every section in the tree is there, and stands at one path only. So the tree has no cycle either. -/
structure Spread (store : Store) (root : Value) : Prop where
  lt_size : ∀ {path id}, store.sectionAt root path = some id → id < store.size
  injective : ∀ {path other id}, store.sectionAt root path = some id → store.sectionAt root other = some id →
    path = other

/-- No section is in both trees. -/
def Apart (store : Store) (left right : Value) : Prop :=
  ∀ path other id, store.sectionAt left path = some id → store.sectionAt right other ≠ some id

variable {store after : Store} {root value : Value} {id : SectionId} {key : String} {path : List String}

/-! ## Following a path -/

@[simp] theorem follow_nil (store : Store) (value : Value) : store.follow value [] = some value := rfl

@[simp] theorem follow_nested_cons (store : Store) (role : Role) (id : SectionId) (key : String)
    (path : List String) :
    store.follow (.nested role id) (key :: path) =
      (store.get? id key).bind fun next => store.follow next path := rfl

theorem sectionAt_nil (store : Store) (value : Value) : store.sectionAt value [] = value.section? := rfl

theorem shapeAt_nested_cons (store : Store) (role : Role) (id : SectionId) (key : String) (path : List String) :
    store.shapeAt (.nested role id) (key :: path) =
      (store.get? id key).bind fun next => store.shapeAt next path := by
  rw [shapeAt, follow_nested_cons]
  cases store.get? id key <;> rfl

theorem sectionAt_nested_cons (store : Store) (role : Role) (id : SectionId) (key : String) (path : List String) :
    store.sectionAt (.nested role id) (key :: path) =
      (store.get? id key).bind fun next => store.sectionAt next path := by
  rw [sectionAt, follow_nested_cons]
  cases store.get? id key <;> rfl

theorem sectionAt_role (store : Store) (role other : Role) (id : SectionId) (path : List String) :
    store.sectionAt (.nested role id) path = store.sectionAt (.nested other id) path := by
  cases path <;> rfl

theorem exists_of_sectionAt_cons {role : Role} {inner : SectionId}
    (h : store.sectionAt (.nested role id) (key :: path) = some inner) :
    ∃ childRole child, store.get? id key = some (.nested childRole child) ∧
      store.sectionAt (.nested childRole child) path = some inner := by
  rw [sectionAt_nested_cons] at h
  obtain ⟨value, hvalue, h⟩ := Option.bind_eq_some_iff.mp h
  cases value with
  | scalar content => cases path <;> cases h
  | nested childRole child => exact ⟨childRole, child, hvalue, h⟩

theorem follow_append (store : Store) (value : Value) (path rest : List String) :
    store.follow value (path ++ rest) = (store.follow value path).bind fun next => store.follow next rest := by
  induction path generalizing value with
  | nil => rfl
  | cons key path ih =>
      rw [List.cons_append, follow, follow]
      cases value.section?.bind (store.get? · key) with
      | none => rfl
      | some next => exact ih next

theorem follow_concat (store : Store) (value : Value) (path : List String) (key : String) :
    store.follow value (path ++ [key]) = (store.sectionAt value path).bind (store.get? · key) := by
  rw [follow_append, sectionAt]
  cases store.follow value path with
  | none => rfl
  | some next => simp [follow]

theorem sectionAt_concat (store : Store) (value : Value) (path : List String) (key : String) :
    store.sectionAt value (path ++ [key]) = (store.sectionAt value path).bind (store.child? · key) := by
  rw [sectionAt, follow_concat, Option.bind_assoc]
  rfl

theorem shapeAt_concat (store : Store) (value : Value) (path : List String) (key : String) :
    store.shapeAt value (path ++ [key]) =
      (store.sectionAt value path).bind fun id => (store.get? id key).map store.shape := by
  rw [shapeAt, follow_concat]
  cases store.sectionAt value path <;> rfl

/-- What a path goes on to from a section in the tree. -/
theorem follow_append_cons (h : store.sectionAt value path = some id) (key : String) (rest : List String) :
    store.follow value (path ++ key :: rest) = (store.get? id key).bind fun next => store.follow next rest := by
  rw [List.append_cons, follow_append, follow_concat, h, Option.bind_some]

theorem sectionAt_of_follow {next : Value} (h : store.follow value path = some next) :
    store.sectionAt value path = next.section? := by
  rw [sectionAt, h, Option.bind_some]

/-- On the way to what is found there are only sections. -/
theorem exists_sectionAt_of_prefix {before : List String} {found : Value} (hfound : store.follow value path = some found)
    (hbefore : before <+: path) (hne : before ≠ path) : ∃ id, store.sectionAt value before = some id := by
  obtain ⟨rest, rfl⟩ := hbefore
  obtain ⟨key, rest, rfl⟩ := List.exists_cons_of_ne_nil fun hrest : rest = [] => hne (by rw [hrest, List.append_nil])
  rw [follow_append] at hfound
  obtain ⟨next, hnext, hrest⟩ := Option.bind_eq_some_iff.mp hfound
  cases next with
  | scalar content => cases hrest
  | nested role id => exact ⟨id, sectionAt_of_follow hnext⟩

theorem follow_eq_scalar_iff {content : Scalar} :
    store.follow value path = some (.scalar content) ↔ store.shapeAt value path = some (.scalar content) := by
  rw [shapeAt]
  rcases store.follow value path with _ | _ | _ <;> simp [shape]

/-! ## Writes outside a tree -/

/-- A tree is the same in two stores that have the same entries in its sections. -/
theorem follow_congr (h : ∀ path id, store.sectionAt value path = some id → after.entries id = store.entries id)
    (path : List String) : after.follow value path = store.follow value path := by
  induction path generalizing value with
  | nil => rfl
  | cons key path ih =>
      rw [follow, follow]
      cases hsection : value.section? with
      | none => rfl
      | some id =>
          have hget : after.get? id key = store.get? id key := by rw [get?, get?, h [] id hsection]
          rw [Option.bind_some, Option.bind_some, hget]
          cases hnext : store.get? id key with
          | none => rfl
          | some next =>
              refine ih fun rest inner hinner => h (key :: rest) inner ?_
              rw [sectionAt, follow, hsection, Option.bind_some, hnext]
              exact hinner

theorem sectionAt_congr (h : ∀ path id, store.sectionAt value path = some id → after.entries id = store.entries id)
    (path : List String) : after.sectionAt value path = store.sectionAt value path := by
  rw [sectionAt, follow_congr h, sectionAt]

theorem shapeAt_congr (h : ∀ path id, store.sectionAt value path = some id → after.entries id = store.entries id)
    (path : List String) : after.shapeAt value path = store.shapeAt value path := by
  rw [shapeAt, follow_congr h, shapeAt]
  cases hfollow : store.follow value path with
  | none => rfl
  | some found =>
      cases found with
      | scalar content => rfl
      | nested role id => simp [shape, h path id (sectionAt_of_follow hfollow)]

theorem Spread.congr (h : store.Spread value)
    (hentries : ∀ path id, store.sectionAt value path = some id → after.entries id = store.entries id)
    (hsize : store.size ≤ after.size) : after.Spread value where
  lt_size hpath := Nat.lt_of_lt_of_le (h.lt_size (sectionAt_congr hentries _ ▸ hpath)) hsize
  injective hpath hother :=
    h.injective (sectionAt_congr hentries _ ▸ hpath) (sectionAt_congr hentries _ ▸ hother)

theorem spread_scalar (store : Store) (content : Scalar) : store.Spread (.scalar content) where
  lt_size {path id} hpath := by cases path <;> cases hpath
  injective {path other id} hpath _ := by cases path <;> cases hpath

/-! ## Grafting -/

/-- The tree `value` can be written into the section `owner`, which stands at `place` in the tree `root`. -/
structure Graft (store : Store) (root : Value) (place : List String) (owner : SectionId) (value : Value) :
    Prop where
  root_spread : store.Spread root
  value_spread : store.Spread value
  apart : store.Apart root value
  owner_at : store.sectionAt root place = some owner

namespace Graft

variable {place rest other : List String} {owner : SectionId}

theorem owner_lt (h : store.Graft root place owner value) : owner < store.size := h.root_spread.lt_size h.owner_at

theorem entries_value (h : store.Graft root place owner value) (key : String) (path : List String)
    (id : SectionId) (hid : store.sectionAt value path = some id) :
    (store.insert owner key value).entries id = store.entries id := by
  refine entries_insert_of_ne ?_ key value
  rintro rfl
  exact h.apart place path _ h.owner_at hid

theorem follow_other (h : store.Graft root place owner value) (hother : ¬ place ++ [key] <+: other) :
    (store.insert owner key value).follow root other = store.follow root other := by
  induction other using List.reverseRecOn with
  | nil => rfl
  | append_singleton other last ih =>
      have hfollow := ih fun hbelow => hother (hbelow.trans (List.prefix_append _ _))
      rw [follow_concat, follow_concat, sectionAt, hfollow, ← sectionAt]
      cases hsection : store.sectionAt root other with
      | none => rfl
      | some id =>
          rw [Option.bind_some, Option.bind_some, get?_insert h.owner_lt, if_neg]
          rintro ⟨rfl, rfl⟩
          obtain rfl := h.root_spread.injective h.owner_at hsection
          exact hother (List.prefix_refl _)

theorem not_prefix_place (place : List String) (key : String) : ¬ place ++ [key] <+: place := fun hprefix => by
  have hlength := hprefix.length_le
  rw [List.length_append, List.length_singleton] at hlength
  omega

theorem sectionAt_other (h : store.Graft root place owner value) (hother : ¬ place ++ [key] <+: other) :
    (store.insert owner key value).sectionAt root other = store.sectionAt root other := by
  rw [sectionAt, h.follow_other hother, sectionAt]

theorem follow_graft (h : store.Graft root place owner value) (key : String) (rest : List String) :
    (store.insert owner key value).follow root (place ++ key :: rest) = store.follow value rest := by
  have hplace := (h.sectionAt_other (not_prefix_place place key)).trans h.owner_at
  rw [follow_append_cons hplace, get?_insert h.owner_lt, if_pos ⟨rfl, rfl⟩, Option.bind_some,
    follow_congr (h.entries_value key)]

theorem sectionAt_graft (h : store.Graft root place owner value) (key : String) (rest : List String) :
    (store.insert owner key value).sectionAt root (place ++ key :: rest) = store.sectionAt value rest := by
  rw [sectionAt, h.follow_graft, sectionAt]

/-- A path either goes through the written entry, or is not concerned. -/
theorem path_cases (place : List String) (key : String) (path : List String) :
    (∃ rest, path = place ++ key :: rest) ∨ ¬ place ++ [key] <+: path := by
  by_cases hprefix : place ++ [key] <+: path
  · obtain ⟨rest, rfl⟩ := hprefix
    exact .inl ⟨rest, List.append_cons place key rest ▸ rfl⟩
  · exact .inr hprefix

theorem spread (h : store.Graft root place owner value) (key : String) :
    (store.insert owner key value).Spread root where
  lt_size {path id} hpath := by
    rw [size_insert]
    rcases path_cases place key path with ⟨rest, rfl⟩ | hother
    · exact h.value_spread.lt_size (h.sectionAt_graft key rest ▸ hpath)
    · exact h.root_spread.lt_size (h.sectionAt_other hother ▸ hpath)
  injective {path other id} hpath hother := by
    rcases path_cases place key path with ⟨rest, rfl⟩ | hnot <;>
      rcases path_cases place key other with ⟨rest', rfl⟩ | hnot'
    · rw [h.sectionAt_graft] at hpath hother
      rw [h.value_spread.injective hpath hother]
    · rw [h.sectionAt_graft] at hpath
      rw [h.sectionAt_other hnot'] at hother
      exact absurd hpath (h.apart other rest id hother)
    · rw [h.sectionAt_other hnot] at hpath
      rw [h.sectionAt_graft] at hother
      exact absurd hother (h.apart path rest' id hpath)
    · rw [h.sectionAt_other hnot] at hpath
      rw [h.sectionAt_other hnot'] at hother
      exact h.root_spread.injective hpath hother

theorem shapeAt_graft (h : store.Graft root place owner value) (key : String) (rest : List String) :
    (store.insert owner key value).shapeAt root (place ++ key :: rest) = store.shapeAt value rest := by
  rw [← shapeAt_congr (h.entries_value key), shapeAt, h.follow_graft, shapeAt, follow_congr (h.entries_value key)]

theorem shapeAt_other (h : store.Graft root place owner value) (hother : ¬ place ++ [key] <+: other)
    (hplace : other ≠ place) : (store.insert owner key value).shapeAt root other = store.shapeAt root other := by
  rw [shapeAt, h.follow_other hother, shapeAt]
  cases hfollow : store.follow root other with
  | none => rfl
  | some found =>
      cases found with
      | scalar content => rfl
      | nested role id =>
          have hne : owner ≠ id := by
            rintro rfl
            exact hplace (h.root_spread.injective (sectionAt_of_follow hfollow) h.owner_at)
          simp [shape, entries_insert_of_ne hne]

end Graft

end Store

end LayeredConfig
