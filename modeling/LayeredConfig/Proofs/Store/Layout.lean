import LayeredConfig.Proofs.Store.Overriding

/-!
# Layouts

What a tree looks like at every path, and what becomes of that when paths are set one after another. A path that is set
puts a leaf at its end, and on the way to it makes sections of what is none and names what it goes through.
-/

namespace LayeredConfig

/-- The section that is there, or else a new one, with `key` among its keys. -/
def Shape.withKey (key : String) : Option Shape → Shape
  | some (.nested role keys) => .nested role (if key ∈ keys then keys else keys ++ [key])
  | _ => .nested .plain [key]

/-- A key is written at the end of those that are there already, if it is not among them. -/
theorem Shape.exists_withKey (shape? : Option Shape) :
    ∃ role keys, ∀ key, withKey key shape? = .nested role (if key ∈ keys then keys else keys ++ [key]) := by
  rcases shape? with _ | _ | ⟨role, keys⟩
  · exact ⟨.plain, [], fun key => rfl⟩
  · exact ⟨.plain, [], fun key => rfl⟩
  · exact ⟨role, keys, fun key => rfl⟩

/-- What stands at the paths of a tree. -/
abbrev Layout := List String → Option Shape

namespace Layout

/-- What stands at the paths that go through `key`. -/
def below (layout : Layout) (key : String) : Layout := fun place => layout (key :: place)

def set (layout : Layout) (path : List String) (text : String) : Layout :=
  match path with
  | [] => fun
    | [] => some (.scalar (.text text))
    | _ :: _ => none
  | key :: path => fun
    | [] => some (Shape.withKey key (layout []))
    | name :: place => if name = key then set (layout.below key) path text place else layout (name :: place)

def setAll (layout : Layout) (settings : List (List String × String)) : Layout :=
  settings.foldl (fun layout setting => layout.set setting.1 setting.2) layout

variable {layout other : Layout} {key name text : String} {path place : List String}

theorem set_cons_nil (layout : Layout) (key : String) (path : List String) (text : String) :
    layout.set (key :: path) text [] = some (Shape.withKey key (layout [])) := rfl

theorem set_cons_cons (layout : Layout) (key name : String) (path place : List String) (text : String) :
    layout.set (key :: path) text (name :: place) =
      if name = key then (layout.below key).set path text place else layout (name :: place) := rfl

theorem below_set_self (layout : Layout) (key : String) (path : List String) (text : String) :
    (layout.set (key :: path) text).below key = (layout.below key).set path text :=
  funext fun _ => if_pos rfl

theorem below_set_of_ne (h : name ≠ key) (layout : Layout) (path : List String) (text : String) :
    (layout.set (key :: path) text).below name = layout.below name :=
  funext fun _ => if_neg h

/-- A path that goes on sees of what it starts from only the section that it makes of it, and what is below. -/
theorem set_congr (hstart : Shape.withKey key (layout []) = Shape.withKey key (other []))
    (hbelow : ∀ name place, layout (name :: place) = other (name :: place)) (path : List String) (text : String) :
    layout.set (key :: path) text = other.set (key :: path) text := by
  funext place
  cases place with
  | nil => rw [set_cons_nil, set_cons_nil, hstart]
  | cons name place =>
      have hsame : layout.below key = other.below key := funext fun place => hbelow key place
      rw [set_cons_cons, set_cons_cons, hsame, hbelow]

end Layout

namespace Store

variable {store : Store} {root value : Value} {place : List String} {id : SectionId} {key : String}

/-! ## Setting a path in a tree -/

theorem Graft.shapeAt_place (h : store.Graft root place id value) (key : String) :
    (store.insert id key value).shapeAt root place = some (Shape.withKey key (store.shapeAt root place)) := by
  obtain ⟨found, hfollow, hsection⟩ := Option.bind_eq_some_iff.mp h.owner_at
  have hafter := (h.follow_other (Graft.not_prefix_place place key)).trans hfollow
  cases found with
  | scalar content => cases hsection
  | nested role found =>
      cases hsection
      rw [shapeAt, hafter, shapeAt, hfollow, Option.map_some, Option.map_some, shape, entries_insert_self h.owner_lt,
        Entries.keys_insert, shape, Shape.withKey]

theorem shapeAt_enter (h : store.Spread root) (hplace : store.sectionAt root place = some id) (key : String) :
    (store.enter id key).2.shapeAt root place = some (Shape.withKey key (store.shapeAt root place)) := by
  cases hchild : store.child? id key with
  | some child =>
      obtain ⟨found, hfollow, hsection⟩ := Option.bind_eq_some_iff.mp hplace
      obtain ⟨value, hvalue, _⟩ := Option.bind_eq_some_iff.mp hchild
      have hkey : key ∈ (store.entries id).keys := List.mem_map_of_mem (Entries.mem_of_get? hvalue)
      cases found with
      | scalar content => cases hsection
      | nested role found =>
          cases hsection
          rw [enter_of_some hchild, shapeAt, hfollow, Option.map_some, shape, Shape.withKey, if_pos hkey]
  | none =>
      rw [enter_of_none hchild, (graft_alloc h hplace).shapeAt_place, shapeAt_congr h.entries_alloc]

/-- Entering makes a section of an entry before a key is written in it. -/
theorem withKey_enter (h : store.Spread root) (hplace : store.sectionAt root place = some id) (key next : String) :
    Shape.withKey next ((store.enter id key).2.shapeAt root (place ++ [key])) =
      Shape.withKey next (store.shapeAt root (place ++ [key])) := by
  cases hchild : store.child? id key with
  | some child => rw [enter_of_some hchild]
  | none =>
      have hempty : (store.alloc []).2.entries store.size = [] := entries_alloc_self store []
      rw [enter_of_none hchild, (graft_alloc h hplace).shapeAt_graft key [], shapeAt_concat, hplace, Option.bind_some]
      simp only [child?] at hchild
      cases hvalue : store.get? id key with
      | none => simp [shapeAt, shape, hempty, Shape.withKey]
      | some value =>
          cases value with
          | scalar content => simp [shapeAt, shape, hempty, Shape.withKey]
          | nested role child =>
              rw [hvalue] at hchild
              cases hchild

/-- At `place` the tree looks as if the path had been set in its layout there, and elsewhere it looks as it did. -/
structure LaysOut (store after : Store) (root : Value) (place path : List String) (text : String) : Prop where
  at_place : ∀ rest, after.shapeAt root (place ++ rest) =
    Layout.set (fun rest => store.shapeAt root (place ++ rest)) path text rest
  elsewhere : ∀ other, ¬ place <+: other → after.shapeAt root other = store.shapeAt root other

theorem not_prefix_of_ne {name : String} (h : name ≠ key) (place rest : List String) :
    ¬ place ++ [key] <+: place ++ name :: rest := by
  simp [List.prefix_append_right_inj, h.symm]

theorem insert_laysOut (h : store.Spread root) (hplace : store.sectionAt root place = some id) (key text : String) :
    store.LaysOut (store.insert id key (.text text)) root place [key] text := by
  have hgraft := graft_text h hplace text
  refine ⟨fun rest => ?_, fun other hother => ?_⟩
  · cases rest with
    | nil => simpa [Layout.set_cons_nil] using hgraft.shapeAt_place key
    | cons name rest =>
        rw [Layout.set_cons_cons]
        by_cases hname : name = key
        · subst hname
          rw [if_pos rfl, hgraft.shapeAt_graft]
          cases rest <;> rfl
        · rw [if_neg hname]
          exact hgraft.shapeAt_other (not_prefix_of_ne hname place rest) (by simp)
  · refine hgraft.shapeAt_other (fun hbelow => hother ((List.prefix_append _ _).trans hbelow)) ?_
    rintro rfl
    exact hother (List.prefix_refl _)

theorem setPath_laysOut (h : store.Spread root) (hplace : store.sectionAt root place = some id) {path : List String}
    (hpath : path ≠ []) (text : String) : store.LaysOut (store.setPath id path text) root place path text := by
  induction path generalizing store id place with
  | nil => exact absurd rfl hpath
  | cons key path ih =>
      cases path with
      | nil => exact insert_laysOut h hplace key text
      | cons next path =>
          have henter := enter_enters h hplace key
          obtain ⟨hat, helsewhere⟩ := ih henter.spread henter.child_at (List.cons_ne_nil next path)
          rw [setPath_cons_cons]
          -- What is not below the entry that was entered is as entering left it.
          refine ⟨fun rest => ?_, fun other hother => ?_⟩
          · cases rest with
            | nil =>
                rw [List.append_nil, helsewhere _ (Graft.not_prefix_place place key), shapeAt_enter h hplace key]
                simp [Layout.set_cons_nil]
            | cons name rest =>
                rw [Layout.set_cons_cons]
                by_cases hname : name = key
                · subst hname
                  rw [if_pos rfl, List.append_cons, hat rest]
                  refine congrFun (Layout.set_congr ?_ (fun later rest => ?_) path text) rest
                  · simpa [Layout.below] using withKey_enter h hplace name next
                  · simpa [Layout.below] using henter.elsewhere (place ++ [name] ++ later :: rest) (by simp) (by simp)
                · rw [if_neg hname, helsewhere _ (not_prefix_of_ne hname place rest)]
                  exact henter.elsewhere _ (by simp) (by simp [hname])
          · rw [helsewhere other fun hbelow => hother ((List.prefix_append _ _).trans hbelow)]
            refine henter.elsewhere other ?_ ?_
            · rintro rfl
              exact hother (List.prefix_refl _)
            · rintro rfl
              exact hother (List.prefix_append _ _)

/-- Setting a path in a tree sets it in the layout of the tree. -/
theorem shapeAt_setPath (h : store.Spread root) (hroot : root.section? = some id) {path : List String}
    (hpath : path ≠ []) (text : String) :
    (store.setPath id path text).shapeAt root = Layout.set (store.shapeAt root) path text :=
  funext (setPath_laysOut h ((sectionAt_nil store root).trans hroot) hpath text).at_place

end Store

end LayeredConfig
