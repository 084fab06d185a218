import LayeredConfig.Document.Draft
import LayeredConfig.Proofs.Overrides.Settings
import LayeredConfig.Proofs.Store.Layout
import LayeredConfig.Proofs.Store.Planting

/-!
# Applying overrides again

Paths that are set a second time, all of them in the same order, are where they were already, although what is set in
between may have removed them. For what stands at a path only the settings count that set it or go on from it, and if
one of these ends there it does not matter what was there before.
-/

namespace LayeredConfig

namespace Layout

variable {settings : List (List String × String)}

/-- Some setting ends where the layout begins. -/
def EndsHere (settings : List (List String × String)) : Prop := ∃ text, ([], text) ∈ settings

/-- The keys that the settings begin with. -/
def heads (settings : List (List String × String)) : List String := settings.filterMap (·.1.head?)

/-- The setting without `name`, if that is what it begins with. -/
def dropKey? (name : String) : List String × String → Option (List String × String)
  | ([], _) => none
  | (key :: path, text) => if name = key then some (path, text) else none

/-- The settings that begin with `name`, without it. -/
def tails (settings : List (List String × String)) (name : String) : List (List String × String) :=
  settings.filterMap (dropKey? name)

/-! ## Keys -/

/-- Writes the keys into the section that is there, or into a new one. -/
def writeKeys (keys : List String) (shape? : Option Shape) : Option Shape :=
  keys.foldl (fun shape? key => some (Shape.withKey key shape?)) shape?

theorem writeKeys_of_mem {keys written : List String} (role : Role) (h : ∀ key ∈ keys, key ∈ written) :
    writeKeys keys (some (.nested role written)) = some (.nested role written) := by
  induction keys with
  | nil => rfl
  | cons key keys ih =>
      obtain ⟨hkey, hkeys⟩ := List.forall_mem_cons.mp h
      rw [writeKeys, List.foldl_cons, Shape.withKey, if_pos hkey]
      exact ih hkeys

theorem exists_withKey_mem (key : String) (shape? : Option Shape) :
    ∃ role written, Shape.withKey key shape? = .nested role written ∧ key ∈ written := by
  obtain ⟨role, keys, hkeys⟩ := Shape.exists_withKey shape?
  refine ⟨role, _, hkeys key, ?_⟩
  split
  · assumption
  · simp

theorem exists_writeKeys (keys : List String) (role : Role) (written : List String) :
    ∃ all, writeKeys keys (some (.nested role written)) = some (.nested role all) ∧ written ⊆ all ∧ keys ⊆ all := by
  induction keys generalizing written with
  | nil => exact ⟨written, rfl, List.Subset.refl _, List.nil_subset _⟩
  | cons key keys ih =>
      obtain ⟨all, hall, hwritten, hkeys⟩ := ih (if key ∈ written then written else written ++ [key])
      refine ⟨all, hall, fun name hname => hwritten ?_, List.cons_subset.mpr ⟨hwritten ?_, hkeys⟩⟩
      · split <;> simp [hname]
      · split <;> simp [*]

theorem writeKeys_writeKeys (keys : List String) (shape? : Option Shape) :
    writeKeys keys (writeKeys keys shape?) = writeKeys keys shape? := by
  cases keys with
  | nil => rfl
  | cons key keys =>
      obtain ⟨role, written, hfirst, hkey⟩ := exists_withKey_mem key shape?
      obtain ⟨all, hall, hwritten, hkeys⟩ := exists_writeKeys keys role written
      have hwrite : writeKeys (key :: keys) shape? = some (.nested role all) := by
        rw [← hall, ← hfirst]
        rfl
      rw [hwrite]
      exact writeKeys_of_mem role (List.cons_subset.mpr ⟨hwritten hkey, hkeys⟩)

/-! ## What settings leave -/

theorem setAll_cons (layout : Layout) (setting : List String × String) (settings : List (List String × String)) :
    layout.setAll (setting :: settings) = (layout.set setting.1 setting.2).setAll settings := rfl

theorem setAll_of_endsHere (h : EndsHere settings) (layout other : Layout) :
    layout.setAll settings = other.setAll settings := by
  obtain ⟨text, hmem⟩ := h
  obtain ⟨before, after, rfl⟩ := List.append_of_mem hmem
  rw [setAll, setAll, List.foldl_append, List.foldl_append, List.foldl_cons, List.foldl_cons]
  -- A setting that ends here makes the same leaf of every layout.
  rfl

theorem setAll_nil (h : ¬ EndsHere settings) (layout : Layout) :
    layout.setAll settings [] = writeKeys (heads settings) (layout []) := by
  induction settings generalizing layout with
  | nil => rfl
  | cons setting settings ih =>
      obtain ⟨path, text⟩ := setting
      cases path with
      | nil => exact absurd ⟨text, List.mem_cons_self⟩ h
      | cons key path => exact ih (fun ⟨text, hmem⟩ => h ⟨text, List.mem_cons_of_mem _ hmem⟩) _

theorem below_setAll (h : ¬ EndsHere settings) (layout : Layout) (name : String) :
    (layout.setAll settings).below name = (layout.below name).setAll (tails settings name) := by
  induction settings generalizing layout with
  | nil => rfl
  | cons setting settings ih =>
      obtain ⟨path, text⟩ := setting
      cases path with
      | nil => exact absurd ⟨text, List.mem_cons_self⟩ h
      | cons key path =>
          have hrest := ih (fun ⟨text, hmem⟩ => h ⟨text, List.mem_cons_of_mem _ hmem⟩) (layout.set (key :: path) text)
          rw [setAll_cons, hrest]
          by_cases hname : name = key
          · subst hname
            have hdrop : dropKey? name (name :: path, text) = some (path, text) := if_pos rfl
            rw [below_set_self, tails, tails, List.filterMap_cons_some hdrop, setAll_cons]
          · have hdrop : dropKey? name (key :: path, text) = none := if_neg hname
            rw [below_set_of_ne hname, tails, tails, List.filterMap_cons_none hdrop]

/-- Settings that are made a second time change nothing. -/
theorem setAll_setAll (layout : Layout) (settings : List (List String × String)) :
    (layout.setAll settings).setAll settings = layout.setAll settings := by
  funext place
  -- By the path that is looked at: in the middle of the second time the layouts are others than in the middle of the first.
  induction place generalizing layout settings with
  | nil =>
      by_cases hends : EndsHere settings
      · rw [setAll_of_endsHere hends]
      · rw [setAll_nil hends, setAll_nil hends, writeKeys_writeKeys]
  | cons name place ih =>
      by_cases hends : EndsHere settings
      · rw [setAll_of_endsHere hends]
      · change ((layout.setAll settings).setAll settings).below name place = (layout.setAll settings).below name place
        rw [below_setAll hends, below_setAll hends, ih]

end Layout

theorem Store.shapeAt_foldl_setPath {store : Store} {root : Value} {id : SectionId} (h : store.Spread root)
    (hroot : root.section? = some id) {settings : List (List String × String)}
    (hpaths : ∀ setting ∈ settings, setting.1 ≠ []) :
    (settings.foldl (fun store setting => store.setPath id setting.1 setting.2) store).shapeAt root =
      Layout.setAll (store.shapeAt root) settings := by
  induction settings generalizing store with
  | nil => rfl
  | cons setting settings ih =>
      obtain ⟨hpath, hlater⟩ := List.forall_mem_cons.mp hpaths
      rw [List.foldl_cons, ih (setPath_setsPath_root h hroot hpath setting.2).spread hlater, shapeAt_setPath h hroot hpath,
        Layout.setAll_cons]

theorem Overrides.shapeAt_apply (overrides : Overrides) {store : Store} {root : Value} {id : SectionId}
    (h : store.Spread root) (hroot : root.section? = some id) (vars : List (String × String)) :
    (overrides.apply store id vars).2.shapeAt root = Layout.setAll (store.shapeAt root) (overrides.settings vars) := by
  rw [apply_eq]
  refine Store.shapeAt_foldl_setPath h hroot fun setting hsetting => ?_
  exact List.ne_nil_of_length_pos (Nat.lt_of_lt_of_le Nat.zero_lt_two (overrides.two_le_length_of_mem_settings hsetting))

/-- Variables that are applied to a tree a second time leave it as it is and are as many. -/
theorem Overrides.apply_apply (overrides : Overrides) {store : Store} {id : SectionId}
    (h : store.Spread (.nested .plain id)) (vars : List (String × String)) :
    let once := overrides.apply store id vars
    let twice := overrides.apply once.2 id vars
    twice.1 = once.1 ∧
      ∀ path, twice.2.shapeAt (.nested .plain id) path = once.2.shapeAt (.nested .plain id) path := by
  intro once twice
  have hspread := (overrides.changes_apply h rfl vars).spread
  refine ⟨?_, congrFun ?_⟩
  · simp only [once, twice, apply_eq]
  · rw [overrides.shapeAt_apply hspread rfl, overrides.shapeAt_apply h rfl, Layout.setAll_setAll]

/-- A document in the store, with a port that is a leaf. -/
def portSection : SectionId × Store := Store.empty.addDocument (Document.ofText "server:\n- port: 80\n")

/-- Variables that make a section of the port, a leaf of it again, and a section once more. -/
def clashingVars : List (String × String) :=
  [("APP__SERVER__PORT__LOW", "1"), ("APP__SERVER__Port", "2"), ("PATH", "/bin"), ("APP__SERVER__PORT__HIGH", "3")]

theorem Overrides.apply_clashingVars :
    let overrides : Overrides := ⟨"APP", "__", by decide⟩
    let once := overrides.apply portSection.2 portSection.1 clashingVars
    let twice := overrides.apply once.2 portSection.1 clashingVars
    once.1 = 3 ∧ twice.1 = once.1 ∧
      ∀ path, twice.2.shapeAt (.nested .plain portSection.1) path = once.2.shapeAt (.nested .plain portSection.1) path := by
  have hspread : portSection.2.Spread (.nested .plain portSection.1) :=
    (Store.empty.addDocument_planted (Document.ofText "server:\n- port: 80\n")).spread
  exact ⟨by decide +kernel, apply_apply _ hspread clashingVars⟩

end LayeredConfig
