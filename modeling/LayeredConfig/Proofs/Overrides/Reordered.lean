import LayeredConfig.Proofs.Overrides.Reapplied

/-!
# Applying overrides in another order

Paths of which none is a prefix of another can be set in any order: what stands at each place is the same, but for the
order of the keys in a section. So variables that override such paths have one result, which has the text of each of them
at its path and is as it was in all places that none of them comes near.
-/

namespace LayeredConfig

instance (path other : List String) : Decidable (Unrelated path other) := inferInstanceAs (Decidable (_ ∧ _))

theorem Unrelated.symm {path other : List String} (h : Unrelated path other) : Unrelated other path := ⟨h.2, h.1⟩

theorem Unrelated.of_cons {name : String} {path other : List String} (h : Unrelated (name :: path) (name :: other)) :
    Unrelated path other :=
  ⟨fun hprefix => h.1 (List.cons_prefix_cons.mpr ⟨rfl, hprefix⟩),
    fun hprefix => h.2 (List.cons_prefix_cons.mpr ⟨rfl, hprefix⟩)⟩

/-! ## Layouts that differ in the order of keys -/

/-- The same scalar, or a section of the same role with the same keys in some order. -/
inductive Shape.Similar : Shape → Shape → Prop where
  | scalar (content : Scalar) : Similar (.scalar content) (.scalar content)
  | nested (role : Role) {keys other : List String} : keys.Perm other → Similar (.nested role keys) (.nested role other)

theorem Shape.Similar.refl (shape : Shape) : shape.Similar shape := by
  cases shape with
  | scalar content => exact .scalar content
  | nested role keys => exact .nested role (.refl keys)

theorem Shape.Similar.trans {first second third : Shape} (h : first.Similar second) (hnext : second.Similar third) :
    first.Similar third := by
  cases h with
  | scalar content => exact hnext
  | nested role hkeys =>
      cases hnext with
      | nested _ hnext => exact .nested role (hkeys.trans hnext)

namespace Layout

/-- The same stands at every place, but for the order of the keys. -/
def Similar (layout other : Layout) : Prop := ∀ place, Option.Rel Shape.Similar (layout place) (other place)

variable {layout other third : Layout} {path : List String}

theorem Similar.refl (layout : Layout) : layout.Similar layout := fun place => by
  cases layout place with
  | none => exact .none
  | some shape => exact .some (.refl shape)

theorem Similar.trans (h : layout.Similar other) (hnext : other.Similar third) : layout.Similar third := fun place => by
  have hplace := h place
  have hthere := hnext place
  generalize layout place = mine, other place = yours, third place = theirs at hplace hthere ⊢
  cases hplace with
  | none => exact hthere
  | some hshape =>
      cases hthere with
      | some hshape' => exact .some (hshape.trans hshape')

/-! ## Keys -/

theorem perm_withKey {keys other : List String} (h : keys.Perm other) (key : String) :
    (if key ∈ keys then keys else keys ++ [key]).Perm (if key ∈ other then other else other ++ [key]) := by
  by_cases hkey : key ∈ keys
  · rw [if_pos hkey, if_pos (h.mem_iff.mp hkey)]
    exact h
  · rw [if_neg hkey, if_neg (mt h.mem_iff.mpr hkey)]
    exact h.append_right [key]

theorem withKey_similar {mine yours : Option Shape} (h : Option.Rel Shape.Similar mine yours) (key : String) :
    (Shape.withKey key mine).Similar (Shape.withKey key yours) := by
  cases h with
  | none => exact .refl _
  | some hshape =>
      cases hshape with
      | scalar content => exact .refl _
      | nested role hkeys => exact .nested role (perm_withKey hkeys key)

theorem withKey_withKey_similar (key name : String) (shape? : Option Shape) :
    (Shape.withKey key (some (Shape.withKey name shape?))).Similar
      (Shape.withKey name (some (Shape.withKey key shape?))) := by
  obtain ⟨role, keys, hkeys⟩ := Shape.exists_withKey shape?
  rw [hkeys, hkeys, Shape.withKey, Shape.withKey]
  refine .nested role ?_
  by_cases hsame : key = name
  · rw [hsame]
  · have hswap : (keys ++ [name, key]).Perm (keys ++ [key, name]) := (List.Perm.swap key name []).append_left keys
    by_cases hkey : key ∈ keys <;> by_cases hname : name ∈ keys <;> simp [hkey, hname, hsame, Ne.symm hsame, hswap]

/-! ## Settings -/

theorem Similar.set (h : layout.Similar other) (path : List String) (text : String) :
    (layout.set path text).Similar (other.set path text) := by
  induction path generalizing layout other with
  | nil => exact .refl _
  | cons key path ih =>
      intro place
      cases place with
      | nil => exact .some (withKey_similar (h []) key)
      | cons name place =>
          rw [set_cons_cons, set_cons_cons]
          split
          · exact ih (fun below => h (key :: below)) place
          · exact h (name :: place)

theorem Similar.setAll (h : layout.Similar other) (settings : List (List String × String)) :
    (layout.setAll settings).Similar (other.setAll settings) := by
  induction settings generalizing layout other with
  | nil => exact h
  | cons setting settings ih => exact ih (h.set setting.1 setting.2)

theorem set_set_similar {path other : List String} (h : Unrelated path other) (layout : Layout) (text last : String) :
    ((layout.set path text).set other last).Similar ((layout.set other last).set path text) := by
  induction path generalizing layout other with
  | nil => exact absurd List.nil_prefix h.1
  | cons key path ih =>
      cases other with
      | nil => exact absurd List.nil_prefix h.2
      | cons name other =>
          intro place
          cases place with
          | nil => exact .some (withKey_withKey_similar name key (layout []))
          | cons first place =>
              change Option.Rel _ (((layout.set (key :: path) text).set (name :: other) last).below first place)
                (((layout.set (name :: other) last).set (key :: path) text).below first place)
              by_cases hkey : first = key <;> by_cases hname : first = name
              · subst hkey hname
                simp only [below_set_self]
                exact ih h.of_cons (layout.below first) place
              · subst hkey
                rw [below_set_of_ne hname, below_set_self, below_set_self, below_set_of_ne hname]
                exact Similar.refl _ place
              · subst hname
                rw [below_set_self, below_set_of_ne hkey, below_set_of_ne hkey, below_set_self]
                exact Similar.refl _ place
              · rw [below_set_of_ne hname, below_set_of_ne hkey, below_set_of_ne hkey, below_set_of_ne hname]
                exact Similar.refl _ place

theorem setAll_perm {settings other : List (List String × String)} (hperm : settings.Perm other)
    (h : settings.Pairwise fun setting later => Unrelated setting.1 later.1) (layout : Layout) :
    (layout.setAll settings).Similar (layout.setAll other) := by
  induction hperm generalizing layout with
  | nil => exact .refl _
  | cons setting _ ih => exact ih (List.pairwise_cons.mp h).2 _
  | swap first second settings =>
      have hfirst := (List.pairwise_cons.mp h).1 first List.mem_cons_self
      exact (set_set_similar hfirst layout second.2 first.2).setAll settings
  | trans hperm _ ih ihnext =>
      have hnext := (hperm.pairwise_iff fun hsetting => Unrelated.symm hsetting).mp h
      exact (ih h layout).trans (ihnext hnext layout)

end Layout

/-! ## Variables in another order -/

namespace Overrides

variable {store : Store} {root : Value} {id : SectionId}

/-- No variable overrides a path that another one overrides, or one that leads on from there. -/
def Independent (overrides : Overrides) (vars : List (String × String)) : Prop :=
  vars.Pairwise fun entry later => ∀ path other, overrides.Spells entry.1 path → overrides.Spells later.1 other →
    Unrelated path other

variable (overrides : Overrides) {vars : List (String × String)}

theorem independent_iff :
    overrides.Independent vars ↔
      (overrides.settings vars).Pairwise fun setting later => Unrelated setting.1 later.1 := by
  rw [settings, List.pairwise_filterMap, Independent]
  simp only [Option.map_eq_some_iff, path?_eq_some_iff]
  constructor
  · intro h
    refine h.imp fun {entry later} hunrelated => ?_
    rintro _ ⟨path, hpath, rfl⟩ _ ⟨other, hother, rfl⟩
    exact hunrelated path other hpath hother
  · intro h
    refine h.imp fun {entry later} hunrelated path other hpath hother => ?_
    exact hunrelated _ ⟨path, hpath, rfl⟩ _ ⟨other, hother, rfl⟩

theorem follow_foldl_setPath (h : store.Spread root) (hroot : root.section? = some id)
    {settings : List (List String × String)} {other : List String}
    (hsettings : ∀ setting ∈ settings, setting.1 ≠ [] ∧ Unrelated setting.1 other) :
    (settings.foldl (fun store setting => store.setPath id setting.1 setting.2) store).follow root other =
      store.follow root other := by
  induction settings generalizing store with
  | nil => rfl
  | cons setting settings ih =>
      obtain ⟨⟨hpath, hother⟩, hlater⟩ := List.forall_mem_cons.mp hsettings
      have hset := Store.setPath_setsPath_root h hroot hpath setting.2
      exact (ih hset.spread hlater).trans (Store.follow_setPath_of_unrelated h hroot hpath hother setting.2)

theorem follow_apply_of_untouched (h : store.Spread root) (hroot : root.section? = some id) {other : List String}
    (hother : overrides.Untouched vars other) :
    (overrides.apply store id vars).2.follow root other = store.follow root other := by
  rw [apply_eq]
  refine follow_foldl_setPath h hroot fun setting hsetting => ?_
  obtain ⟨entry, hentry, hspells, -⟩ := overrides.mem_settings_iff.mp hsetting
  exact ⟨hspells.ne_nil, hother entry hentry _ hspells⟩

/-- Each of the variables is read at its path, as none of the later ones comes near it. -/
theorem follow_apply_of_independent (h : store.Spread root) (hroot : root.section? = some id)
    (hvars : overrides.Independent vars) {entry : String × String} (hentry : entry ∈ vars) {path : List String}
    (hspells : overrides.Spells entry.1 path) :
    (overrides.apply store id vars).2.follow root path = some (.text entry.2) := by
  obtain ⟨before, later, rfl⟩ := List.append_of_mem hentry
  have hlater := (List.pairwise_cons.mp (List.pairwise_append.mp hvars).2.1).1
  exact overrides.follow_apply h hroot hspells before fun other hother path' hspells' =>
    (hlater other hother path path' hspells hspells').symm

/-- Variables of which none overrides a path that another one overrides, or one that leads on from there, can be applied to
a tree in any order: as many are applied, and the tree is the same but for the order of keys. It has the text of each
variable at its path, and what was there before at every path that none of them comes near. -/
theorem apply_perm (overrides : Overrides) {store : Store} {id : SectionId} (h : store.Spread (.nested .plain id))
    {vars other : List (String × String)} (hperm : vars.Perm other) (hvars : overrides.Independent vars) :
    let root : Value := .nested .plain id
    let after := overrides.apply store id vars
    let reordered := overrides.apply store id other
    reordered.1 = after.1 ∧
      (∀ path, Option.Rel Shape.Similar (after.2.shapeAt root path) (reordered.2.shapeAt root path)) ∧
      (∀ entry ∈ vars, ∀ path, overrides.Spells entry.1 path → after.2.follow root path = some (.text entry.2)) ∧
      ∀ path, overrides.Untouched vars path →
        after.2.follow root path = store.follow root path ∧ after.2.shapeAt root path = store.shapeAt root path := by
  intro root after reordered
  have hsettings : (overrides.settings vars).Perm (overrides.settings other) := hperm.filterMap _
  refine ⟨?_, ?_, fun entry hentry path hspells => ?_, fun path hpath => ⟨?_, ?_⟩⟩
  · simp only [after, reordered, apply_eq, hsettings.length_eq]
  · change Layout.Similar _ _
    rw [overrides.shapeAt_apply h rfl, overrides.shapeAt_apply h rfl]
    exact Layout.setAll_perm hsettings (overrides.independent_iff.mp hvars) _
  · exact overrides.follow_apply_of_independent h rfl hvars hentry hspells
  · exact overrides.follow_apply_of_untouched h rfl hpath
  · exact (overrides.changes_apply h rfl vars).elsewhere path hpath

/-- Variables for a leaf that is there and for two keys of a new section, one of which is a section too, and a variable
that overrides nothing. -/
def scatteredVars : List (String × String) :=
  [("APP__SERVER__PORT", "81"), ("PATH", "/bin"), ("APP__DB__HOST", "h"), ("APP__Db__User__Name", "u")]

theorem apply_scatteredVars :
    let overrides : Overrides := ⟨"APP", "__", by decide⟩
    let root : Value := .nested .plain portSection.1
    let after := overrides.apply portSection.2 portSection.1 scatteredVars
    let reordered := overrides.apply portSection.2 portSection.1 scatteredVars.reverse
    after.2.shapeAt root ["db"] = some (.nested .plain ["host", "user"]) ∧
      reordered.2.shapeAt root ["db"] = some (.nested .plain ["user", "host"]) ∧
      reordered.1 = after.1 ∧
      (∀ path, Option.Rel Shape.Similar (after.2.shapeAt root path) (reordered.2.shapeAt root path)) ∧
      after.2.follow root ["db", "user", "name"] = some (.text "u") := by
  intro overrides root after reordered
  have hspread : portSection.2.Spread root :=
    (Store.empty.addDocument_planted (Document.ofText "server:\n- port: 80\n")).spread
  have hsettings : overrides.settings scatteredVars =
      [(["server", "port"], "81"), (["db", "host"], "h"), (["db", "user", "name"], "u")] := by decide +kernel
  have hreverse : overrides.settings scatteredVars.reverse = (overrides.settings scatteredVars).reverse :=
    List.filterMap_reverse ..
  have hvars : overrides.Independent scatteredVars := overrides.independent_iff.mpr (by rw [hsettings]; decide)
  have hmem : (["db", "user", "name"], "u") ∈ overrides.settings scatteredVars := by simp [hsettings]
  obtain ⟨entry, hentry, hspells, htext⟩ := overrides.mem_settings_iff.mp hmem
  obtain ⟨hcount, hsimilar, htexts, -⟩ := overrides.apply_perm hspread (List.reverse_perm scatteredVars).symm hvars
  refine ⟨?_, ?_, hcount, hsimilar, ?_⟩
  · rw [overrides.shapeAt_apply hspread rfl, hsettings]
    decide +kernel
  · rw [overrides.shapeAt_apply hspread rfl, hreverse, hsettings]
    decide +kernel
  · rw [htexts entry hentry _ hspells, htext]

end Overrides

end LayeredConfig
