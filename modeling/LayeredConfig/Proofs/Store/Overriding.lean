import LayeredConfig.Proofs.Overrides.Names
import LayeredConfig.Proofs.Store.Path

/-!
# What overrides do to a tree

Setting a path puts the text at the path and changes no place that is not on the way to it or below it. So what a
row of overrides leaves at a path is the last text that was set there, and what was there before where
no override comes near.
-/

namespace LayeredConfig

/-- Neither path leads through the other's end. -/
def Unrelated (path other : List String) : Prop := ¬ path <+: other ∧ ¬ other <+: path

namespace Store

variable {store after : Store} {root : Value} {place : List String} {id : SectionId} {key text : String}

/-! ## Entering a section -/

/-- The section `child` is at `path`, and was there or is new and empty. -/
structure Enters (store after : Store) (root : Value) (place : List String) (key : String) (child : SectionId) :
    Prop where
  spread : after.Spread root
  child_at : after.sectionAt root (place ++ [key]) = some child
  elsewhere : ∀ other, other ≠ place → other ≠ place ++ [key] →
    after.shapeAt root other = store.shapeAt root other
  scalars : ∀ other content, after.follow root other = some (.scalar content) →
    store.follow root other = some (.scalar content)

/-- Nothing is in a section that was made without entries. -/
theorem follow_alloc_cons (store : Store) (key : String) (path : List String) :
    (store.alloc []).2.follow (.nested .plain store.size) (key :: path) = none := by
  have hentries : (store.alloc []).2.entries store.size = [] := entries_alloc_self store []
  simp [get?, hentries]

theorem Spread.entries_alloc (h : store.Spread root) (path : List String) (id : SectionId)
    (hid : store.sectionAt root path = some id) : (store.alloc []).2.entries id = store.entries id :=
  entries_alloc_of_lt (h.lt_size hid) []

theorem graft_alloc (h : store.Spread root) (hplace : store.sectionAt root place = some id) :
    (store.alloc []).2.Graft root place id (.nested .plain store.size) := by
  have hempty : ∀ {path id}, (store.alloc []).2.sectionAt (.nested .plain store.size) path = some id →
      path = [] ∧ id = store.size := by
    intro path inner hinner
    cases path with
    | nil =>
        cases hinner
        exact ⟨rfl, rfl⟩
    | cons key path =>
        rw [sectionAt, follow_alloc_cons] at hinner
        cases hinner
  have hkept := h.entries_alloc
  refine ⟨h.congr hkept (by simp), ⟨fun hpath => ?_, fun hpath hother => ?_⟩, fun path other id hid hnew => ?_, ?_⟩
  · simp [(hempty hpath).2]
  · rw [(hempty hpath).1, (hempty hother).1]
  · rw [sectionAt_congr hkept] at hid
    exact absurd (hempty hnew).2 (Nat.ne_of_lt (h.lt_size hid))
  · rw [sectionAt_congr hkept, hplace]

theorem sectionAt_concat_of (hplace : store.sectionAt root place = some id) (key : String) :
    store.sectionAt root (place ++ [key]) = store.child? id key := by
  rw [sectionAt_concat, hplace, Option.bind_some]

/-- Nothing is below an entry that holds no section. -/
theorem follow_beyond (hplace : store.sectionAt root place = some id) (hchild : store.child? id key = none)
    (first : String) (rest : List String) : store.follow root (place ++ key :: first :: rest) = none := by
  rw [follow_append_cons hplace]
  cases hvalue : store.get? id key with
  | none => rfl
  | some value =>
      rw [child?, hvalue, Option.bind_some] at hchild
      rw [Option.bind_some, follow, hchild]
      rfl

/-- Where a section is entered, no other place changes than the entry that had none. -/
theorem follow_enter (h : store.Spread root) (hplace : store.sectionAt root place = some id) (key : String)
    {other : List String} (hother : other = place ++ [key] → store.sectionAt root other ≠ none) :
    (store.enter id key).2.follow root other = store.follow root other := by
  cases hchild : store.child? id key with
  | some child => rw [enter_of_some hchild]
  | none =>
      have hgraft := graft_alloc h hplace
      rw [enter_of_none hchild]
      rcases Graft.path_cases place key other with ⟨_ | ⟨first, rest⟩, rfl⟩ | hnot
      · exact absurd ((sectionAt_concat_of hplace key).trans hchild) (hother rfl)
      · rw [hgraft.follow_graft, follow_alloc_cons, follow_beyond hplace hchild]
      · rw [hgraft.follow_other hnot, follow_congr h.entries_alloc]

theorem enter_enters (h : store.Spread root) (hplace : store.sectionAt root place = some id) (key : String) :
    store.Enters (store.enter id key).2 root place key (store.enter id key).1 := by
  have hconcat := sectionAt_concat_of hplace key
  cases hchild : store.child? id key with
  | some child =>
      rw [enter_of_some hchild]
      exact ⟨h, hconcat.trans hchild, fun _ _ _ => rfl, fun _ _ hscalar => hscalar⟩
  | none =>
      rw [enter_of_none hchild]
      have hgraft := graft_alloc h hplace
      refine ⟨hgraft.spread key, ?_, fun other hne hnext => ?_, fun other content hscalar => ?_⟩
      · exact hgraft.sectionAt_graft key []
      · rcases Graft.path_cases place key other with ⟨_ | ⟨first, rest⟩, rfl⟩ | hother
        · exact absurd rfl hnext
        · rw [shapeAt, hgraft.follow_graft, follow_alloc_cons, shapeAt, follow_beyond hplace hchild]
          rfl
        · exact (hgraft.shapeAt_other hother hne).trans (shapeAt_congr h.entries_alloc other)
      · rcases Graft.path_cases place key other with ⟨_ | ⟨first, rest⟩, rfl⟩ | hother
        · rw [hgraft.follow_graft] at hscalar
          cases hscalar
        · rw [hgraft.follow_graft, follow_alloc_cons] at hscalar
          cases hscalar
        · rwa [hgraft.follow_other hother, follow_congr h.entries_alloc] at hscalar

/-! ## Setting a path -/

/-- The text is at the path, and all other places are as they were, except for those on the way and below. -/
structure SetsPath (store after : Store) (root : Value) (path : List String) (text : String) : Prop where
  spread : after.Spread root
  self : after.follow root path = some (.text text)
  elsewhere : ∀ other, Unrelated path other → after.shapeAt root other = store.shapeAt root other
  scalars : ∀ other content, after.follow root other = some (.scalar content) →
    content = .text text ∨ store.follow root other = some (.scalar content)

theorem graft_text (h : store.Spread root) (hplace : store.sectionAt root place = some id) (text : String) :
    store.Graft root place id (.text text) := by
  have hscalar (path : List String) : store.sectionAt (.text text) path = none := by cases path <;> rfl
  exact ⟨h, spread_scalar store _, fun path other id _ => by simp [hscalar], hplace⟩

theorem insert_setsPath (h : store.Spread root) (hplace : store.sectionAt root place = some id) (key text : String) :
    store.SetsPath (store.insert id key (.text text)) root (place ++ [key]) text := by
  have hgraft := graft_text h hplace text
  refine ⟨hgraft.spread key, hgraft.follow_graft key [], fun other hother => ?_, fun other content hcontent => ?_⟩
  · refine hgraft.shapeAt_other hother.1 ?_
    rintro rfl
    exact hother.2 (List.prefix_append _ _)
  · rcases Graft.path_cases place key other with ⟨_ | ⟨first, rest⟩, rfl⟩ | hnot
    · rw [hgraft.follow_graft] at hcontent
      cases hcontent
      exact .inl rfl
    · rw [hgraft.follow_graft] at hcontent
      cases hcontent
    · exact .inr (hgraft.follow_other hnot ▸ hcontent)

theorem setPath_setsPath (h : store.Spread root) (hplace : store.sectionAt root place = some id)
    {path : List String} (hpath : path ≠ []) (text : String) :
    store.SetsPath (store.setPath id path text) root (place ++ path) text := by
  induction path generalizing store id place with
  | nil => exact absurd rfl hpath
  | cons key path ih =>
      cases path with
      | nil => exact insert_setsPath h hplace key text
      | cons next path =>
          have henter := enter_enters h hplace key
          have hset := ih henter.spread henter.child_at (List.cons_ne_nil next path)
          rw [← List.append_cons] at hset
          rw [setPath_cons_cons]
          refine ⟨hset.spread, hset.self, fun other hother => ?_, fun other content hcontent => ?_⟩
          · rw [hset.elsewhere other hother]
            refine henter.elsewhere other ?_ ?_
            · rintro rfl
              exact hother.2 (List.prefix_append _ _)
            · rintro rfl
              exact hother.2 ⟨next :: path, (List.append_cons _ _ _).symm⟩
          · exact (hset.scalars other content hcontent).imp_right (henter.scalars other content)

theorem setPath_setsPath_root (h : store.Spread root) (hroot : root.section? = some id) {path : List String}
    (hpath : path ≠ []) (text : String) : store.SetsPath (store.setPath id path text) root path text :=
  setPath_setsPath h ((sectionAt_nil store root).trans hroot) hpath text

/-- A path that is set changes no place that is not on the way to its end or below it, and on the way to it no section. -/
theorem follow_setPath (h : store.Spread root) (hplace : store.sectionAt root place = some id) {path : List String}
    (hpath : path ≠ []) (text : String) {other : List String} (hbelow : ¬ place ++ path <+: other)
    (hway : other <+: place ++ path → store.sectionAt root other ≠ none) :
    (store.setPath id path text).follow root other = store.follow root other := by
  induction path generalizing store id place with
  | nil => exact absurd rfl hpath
  | cons key path ih =>
      cases path with
      | nil => exact (graft_text h hplace text).follow_other hbelow
      | cons next path =>
          have henter := enter_enters h hplace key
          rw [List.append_cons] at hbelow hway
          have hsame : (store.enter id key).2.follow root other = store.follow root other :=
            follow_enter h hplace key fun heq => hway (heq ▸ List.prefix_append _ _)
          rw [setPath_cons_cons, ih henter.spread henter.child_at (List.cons_ne_nil next path) hbelow, hsame]
          rwa [sectionAt, hsame]

theorem follow_setPath_of_unrelated (h : store.Spread root) (hroot : root.section? = some id) {path other : List String}
    (hpath : path ≠ []) (hother : Unrelated path other) (text : String) :
    (store.setPath id path text).follow root other = store.follow root other :=
  follow_setPath h ((sectionAt_nil store root).trans hroot) hpath text hother.1
    fun hway => absurd hway hother.2

/-- A section on the way to the path is the one that it was. -/
theorem follow_setPath_of_sectionAt (h : store.Spread root) (hroot : root.section? = some id) {path before : List String}
    {inner : SectionId} (hsection : store.sectionAt root before = some inner) (hway : before <+: path)
    (hne : before ≠ path) (text : String) :
    (store.setPath id path text).follow root before = store.follow root before := by
  have hpath : path ≠ [] := by
    rintro rfl
    exact hne (List.prefix_nil.mp hway)
  refine follow_setPath h ((sectionAt_nil store root).trans hroot) hpath text (fun hbelow => ?_) fun _ => ?_
  · exact hne (hway.eq_of_length_le hbelow.length_le)
  · rw [hsection]
    exact Option.some_ne_none inner

end Store

/-! ## Applying variables -/

namespace Overrides

variable (overrides : Overrides) {store : Store} {root : Value} {id : SectionId}

/-- No variable overrides something at the path, on the way to it, or below it. -/
def Untouched (vars : List (String × String)) (other : List String) : Prop :=
  ∀ entry ∈ vars, ∀ path, overrides.Spells entry.1 path → Unrelated path other

/-- The places that no variable comes near are as they were, and a scalar is one of the texts or was there. -/
structure Changes (vars : List (String × String)) (store after : Store) (root : Value) : Prop where
  spread : after.Spread root
  elsewhere : ∀ other, overrides.Untouched vars other → after.shapeAt root other = store.shapeAt root other
  scalars : ∀ other content, after.follow root other = some (.scalar content) →
    (∃ text, content = .text text) ∨ store.follow root other = some (.scalar content)

theorem changes_foldl (h : store.Spread root) (hroot : root.section? = some id) (vars : List (String × String))
    (count : Nat) : overrides.Changes vars store (vars.foldl (overrides.applyOne id) (count, store)).2 root := by
  induction vars generalizing store count with
  | nil => exact ⟨h, fun _ _ => rfl, fun _ _ hscalar => .inr hscalar⟩
  | cons entry rest ih =>
      rw [List.foldl_cons, applyOne]
      cases hpath : overrides.path? entry.1 with
      | none =>
          have hrest := ih h count
          exact ⟨hrest.spread, fun other hother => hrest.elsewhere other (List.forall_mem_cons.mp hother).2,
            hrest.scalars⟩
      | some path =>
          have hspells := path?_eq_some_iff.mp hpath
          have hset := Store.setPath_setsPath_root h hroot hspells.ne_nil entry.2
          have hrest := ih hset.spread (count + 1)
          refine ⟨hrest.spread, fun other hother => ?_, fun other content hcontent => ?_⟩
          · obtain ⟨hfirst, hlater⟩ := List.forall_mem_cons.mp hother
            rw [hrest.elsewhere other hlater, hset.elsewhere other (hfirst path hspells)]
          · rcases hrest.scalars other content hcontent with htext | hheld
            · exact .inl htext
            · exact (hset.scalars other content hheld).imp_left fun htext => ⟨entry.2, htext⟩

theorem changes_apply (h : store.Spread root) (hroot : root.section? = some id) (vars : List (String × String)) :
    overrides.Changes vars store (overrides.apply store id vars).2 root :=
  overrides.changes_foldl h hroot vars 0

/-- The last variable that comes near its path is the one that is read there. -/
theorem follow_apply (h : store.Spread root) (hroot : root.section? = some id) {name value : String}
    {path : List String} (hspells : overrides.Spells name path) (before : List (String × String))
    {later : List (String × String)} (hlater : overrides.Untouched later path) :
    (overrides.apply store id (before ++ (name, value) :: later)).2.follow root path = some (.text value) := by
  rw [apply, List.foldl_append, List.foldl_cons, applyOne, path?_eq_some_iff.mpr hspells]
  have hbefore := overrides.changes_foldl h hroot before 0
  have hset := Store.setPath_setsPath_root hbefore.spread hroot hspells.ne_nil value
  have hrest := overrides.changes_foldl hset.spread hroot later
    ((before.foldl (overrides.applyOne id) (0, store)).1 + 1)
  refine Store.follow_eq_scalar_iff.mpr ?_
  rw [hrest.elsewhere path hlater]
  exact Store.follow_eq_scalar_iff.mp hset.self

end Overrides

end LayeredConfig
