import LayeredConfig.Proofs.Document.Legible
import LayeredConfig.Proofs.Projection.Success
import LayeredConfig.Proofs.Store.Planting

/-!
# Stores of trees

In a store of trees every section stands in one entry at most, and none stands in itself at any depth. A store stays one
if what is written into an entry is no section, or the section that the entry holds already, or a section that
was made on the way and stands nowhere yet.
-/

namespace LayeredConfig

/-! ## Documents without repeated keys -/

mutual

/-- No section of the node has two entries under one key. -/
def Node.Distinct : Node → Prop
  | .text _ => True
  | .branch entries => (Entries.keys entries).Nodup ∧ Document.DistinctEntries entries

def Document.DistinctEntries : List (String × Node) → Prop
  | [] => True
  | (_, node) :: rest => node.Distinct ∧ Document.DistinctEntries rest

end

mutual

theorem Node.Legible.distinct {key : String} : {node : Node} → node.Legible key → node.Distinct
  | .text _, _ => trivial
  | .branch _, h => ⟨h.2.1, Document.distinct_of_legibleEntries h.2.2⟩

theorem Document.distinct_of_legibleEntries :
    {entries : List (String × Node)} → Document.LegibleEntries entries → Document.DistinctEntries entries
  | [], _ => trivial
  | (_, _) :: _, h => ⟨h.1.distinct, Document.distinct_of_legibleEntries h.2⟩

end

theorem Document.LegibleSections.distinct {document : Document} (h : document.LegibleSections) :
    Document.DistinctEntries document := by
  induction document with
  | nil => trivial
  | cons entry rest ih =>
      obtain ⟨_, entries, hbranch, hbody⟩ := h entry List.mem_cons_self
      have hrest := ih fun other hother => h other (List.mem_cons_of_mem entry hother)
      rw [Document.DistinctEntries, hbranch]
      exact ⟨⟨hbody.1, Document.distinct_of_legibleEntries hbody.2⟩, hrest⟩

theorem Document.distinct_ofText (text : String) : (Node.branch (Document.ofText text)).Distinct :=
  ⟨(Document.legible_ofText text).1, (Document.legible_ofText text).2.distinct⟩

namespace Store

/-- Every section stands in one entry at most, and none stands in itself at any depth. -/
structure Forest (store : Store) : Prop where
  nodup : ∀ id, (store.entries id).keys.Nodup
  lt_size : ∀ {parent key child}, store.child? parent key = some child → child < store.size
  unique : ∀ {parent other key name child}, store.child? parent key = some child →
    store.child? other name = some child → parent = other ∧ key = name
  acyclic : ∀ id, ¬ store.Cyclic id

/-- No entry holds the section. -/
def Unheld (store : Store) (id : SectionId) : Prop := ∀ parent key, store.child? parent key ≠ some id

/-- The second store is a forest with the sections of the first, and holds none of those that were not held. -/
structure Grows (store after : Store) : Prop where
  forest : after.Forest
  size_le : store.size ≤ after.size
  unheld : ∀ {id}, id < store.size → store.Unheld id → after.Unheld id

/-- The sections of the values were made since `before`, and stand nowhere yet. Nor is anything else in them. -/
structure Loose (before store : Store) (values : Entries Value) : Prop where
  closed : store.Closed (before.grown ∅ store)
  within : ∀ entry ∈ values, entry.2.Within (before.grown ∅ store)
  unheld : ∀ entry ∈ values, ∀ id, entry.2.section? = some id → store.Unheld id
  apart : values.Pairwise fun entry other => ∀ id, entry.2.section? = some id → other.2.section? ≠ some id

variable {before store after : Store} {owner id : SectionId} {key : String} {value : Value} {values : Entries Value}

/-! ## Links -/

theorem links_of_child? {child : SectionId} (h : store.child? owner key = some child) : store.Links owner child := by
  obtain ⟨value, hvalue, hsection⟩ := Option.bind_eq_some_iff.mp h
  exact ⟨(key, value), Entries.mem_of_get? hvalue, hsection⟩

theorem child?_of_links {child : SectionId} (hnodup : (store.entries owner).keys.Nodup) (h : store.Links owner child) :
    ∃ key, store.child? owner key = some child := by
  obtain ⟨⟨key, value⟩, hentry, hsection⟩ := h
  have hvalue : store.get? owner key = some value := Entries.get?_of_mem hnodup hentry
  exact ⟨key, by rw [child?, hvalue, Option.bind_some, hsection]⟩

/-- A way that there is after links were added from `owner` was there before, or goes through one of them. -/
theorem transGen_of_added {added : Set SectionId} {first last : SectionId}
    (hlinks : ∀ {parent child}, after.Links parent child → store.Links parent child ∨ parent = owner ∧ child ∈ added)
    (h : Relation.TransGen after.Links first last) :
    Relation.TransGen store.Links first last ∨
      store.Reaches first owner ∧ ∃ child ∈ added, store.Reaches child last := by
  induction h with
  | single hlink =>
      rcases hlinks hlink with hold | ⟨rfl, hadded⟩
      · exact .inl (.single hold)
      · exact .inr ⟨.refl, _, hadded, .refl⟩
  | tail _ hlink ih =>
      rcases hlinks hlink with hold | ⟨rfl, hadded⟩ <;> rcases ih with hway | ⟨hfirst, child, hchild, hlast⟩
      · exact .inl (hway.tail hold)
      · exact .inr ⟨hfirst, child, hchild, hlast.tail hold⟩
      · exact .inr ⟨hway.to_reflTransGen, _, hadded, .refl⟩
      · exact .inr ⟨hfirst, _, hadded, .refl⟩

/-! ## Steps -/

/-- New places in a section `owner` keep a forest if they hold sections that stood nowhere and do not lead back. -/
theorem Forest.of_added (h : store.Forest) (owner : SectionId) (New : String → SectionId → Prop)
    (hnodup : ∀ id, (after.entries id).keys.Nodup) (hsize : store.size ≤ after.size)
    (hchild : ∀ {parent key child}, after.child? parent key = some child →
      store.child? parent key = some child ∨ parent = owner ∧ New key child)
    (hnew : ∀ {key child}, New key child →
      child < after.size ∧ store.Unheld child ∧ ¬ store.Reaches child owner)
    (hinjective : ∀ {key name child}, New key child → New name child → key = name) : after.Forest where
  nodup := hnodup
  lt_size hheld := by
    rcases hchild hheld with hold | ⟨_, hadded⟩
    · exact Nat.lt_of_lt_of_le (h.lt_size hold) hsize
    · exact (hnew hadded).1
  unique hheld hother := by
    rcases hchild hheld with hold | ⟨rfl, hadded⟩ <;> rcases hchild hother with hold' | ⟨rfl, hadded'⟩
    · exact h.unique hold hold'
    · exact absurd hold ((hnew hadded').2.1 _ _)
    · exact absurd hold' ((hnew hadded).2.1 _ _)
    · exact ⟨rfl, hinjective hadded hadded'⟩
  acyclic id hcyclic := by
    have hlinks {parent child : SectionId} (hlink : after.Links parent child) :
        store.Links parent child ∨ parent = owner ∧ child ∈ { child | ∃ key, New key child } := by
      obtain ⟨key, hheld⟩ := child?_of_links (hnodup parent) hlink
      exact (hchild hheld).imp links_of_child? fun hadded => ⟨hadded.1, key, hadded.2⟩
    rcases transGen_of_added hlinks hcyclic with hold | ⟨hfirst, child, ⟨key, hadded⟩, hlast⟩
    · exact h.acyclic id hold
    · exact (hnew hadded).2.2 (hlast.trans hfirst)

namespace Grows

theorem refl (h : store.Forest) : store.Grows store := ⟨h, Nat.le_refl _, fun _ hid => hid⟩

theorem trans (h : before.Grows store) (hnext : store.Grows after) : before.Grows after where
  forest := hnext.forest
  size_le := Nat.le_trans h.size_le hnext.size_le
  unheld hid hunheld := hnext.unheld (Nat.lt_of_lt_of_le hid h.size_le) (h.unheld hid hunheld)

end Grows

theorem nodup_insert (h : ∀ id, (store.entries id).keys.Nodup) (owner : SectionId) (key : String) (value : Value)
    (id : SectionId) : ((store.insert owner key value).entries id).keys.Nodup := by
  by_cases hid : owner = id
  · subst hid
    by_cases howner : owner < store.size
    · rw [entries_insert_self howner]
      exact Entries.nodup_keys_insert (h owner) key value
    · rw [entries_of_size_le (by simpa using howner)]
      exact List.nodup_nil
  · rw [entries_insert_of_ne hid]
    exact h id

theorem child?_insert_cases (howner : owner < store.size) {parent child : SectionId} {name : String}
    (h : (store.insert owner key value).child? parent name = some child) :
    store.child? parent name = some child ∨ parent = owner ∧ name = key ∧ value.section? = some child := by
  rw [child?, get?_insert howner] at h
  split at h
  · rename_i hplace
    exact .inr ⟨hplace.1.symm, hplace.2.symm, h⟩
  · exact .inl h

/-- An entry may be given a scalar, or keep the section that it holds. -/
theorem Forest.grows_insert (h : store.Forest) (howner : owner < store.size)
    (hvalue : ∀ id, value.section? = some id → store.child? owner key = some id) :
    store.Grows (store.insert owner key value) := by
  have hchild {parent child : SectionId} {name : String}
      (hheld : (store.insert owner key value).child? parent name = some child) :
      store.child? parent name = some child := by
    rcases child?_insert_cases howner hheld with hold | ⟨rfl, rfl, hsection⟩
    · exact hold
    · exact hvalue child hsection
  refine ⟨h.of_added owner (fun _ _ => False) ?_ ?_ ?_ ?_ ?_, ?_, fun _ hid parent name hheld => ?_⟩
  · exact nodup_insert h.nodup owner key value
  · simp
  · exact fun hheld => .inl (hchild hheld)
  · exact False.elim
  · exact False.elim
  · simp
  · exact hid parent name (hchild hheld)

/-! ## New sections -/

theorem Loose.not_reaches (h : before.Loose store values) {entry : String × Value} (hentry : entry ∈ values)
    {child : SectionId} (hchild : entry.2.section? = some child) (hid : id ∉ before.grown ∅ store) :
    ¬ store.Reaches child id :=
  fun hreaches => hid (h.closed.of_reaches (h.within entry hentry child hchild) hreaches)

theorem mem_grown_empty : id ∈ before.grown ∅ store ↔ before.size ≤ id ∧ id < store.size := by
  simp [grown]

/-- Loose values can be written into sections that were there before. -/
theorem Loose.insert {entry : String × Value} (h : before.Loose store (entry :: values)) (hgrows : before.Grows store)
    (howner : owner < before.size) :
    before.Grows (store.insert owner entry.1 entry.2) ∧ before.Loose (store.insert owner entry.1 entry.2) values := by
  have howner' := Nat.lt_of_lt_of_le howner hgrows.size_le
  have houtside : owner ∉ before.grown ∅ store := fun hmem => absurd (mem_grown_empty.mp hmem).1 (Nat.not_le_of_lt howner)
  have hunheld {id : SectionId} (hid : store.Unheld id) (hne : entry.2.section? ≠ some id) :
      (store.insert owner entry.1 entry.2).Unheld id := by
    intro parent name hheld
    rcases child?_insert_cases howner' hheld with hold | ⟨_, _, hsection⟩
    · exact hid parent name hold
    · exact hne hsection
  obtain ⟨hfirst, hrest⟩ := List.pairwise_cons.mp h.apart
  constructor
  · refine ⟨hgrows.forest.of_added owner
      (fun name child => name = entry.1 ∧ entry.2.section? = some child) ?_ ?_ ?_ ?_ ?_, ?_, ?_⟩
    · exact nodup_insert hgrows.forest.nodup owner entry.1 entry.2
    · simp
    · exact fun hheld => child?_insert_cases howner' hheld
    · rintro name child ⟨_, hsection⟩
      have hmem := mem_grown_empty.mp (h.within entry List.mem_cons_self child hsection)
      refine ⟨by simpa using hmem.2, h.unheld entry List.mem_cons_self child hsection, ?_⟩
      exact h.not_reaches List.mem_cons_self hsection houtside
    · rintro name other child ⟨rfl, _⟩ ⟨rfl, _⟩
      rfl
    · simpa using hgrows.size_le
    · intro id hid hbefore
      apply hunheld (hgrows.unheld hid hbefore)
      intro hsection
      have hmem := mem_grown_empty.mp (h.within entry List.mem_cons_self id hsection)
      exact absurd hmem.1 (Nat.not_le_of_lt hid)
  · constructor
    · rw [grown_insert]
      intro parent hparent
      have hne : owner ≠ parent := fun heq => houtside (heq ▸ hparent)
      rw [entries_insert_of_ne hne]
      exact h.closed parent hparent
    · rw [grown_insert]
      exact fun other hother => h.within other (List.mem_cons_of_mem entry hother)
    · intro other hother id hid
      apply hunheld (h.unheld other (List.mem_cons_of_mem entry hother) id hid)
      exact fun hsection => hfirst other hother id hsection hid
    · exact hrest

theorem Loose.foldl_insert (h : before.Loose store values) (hgrows : before.Grows store) (howner : owner < before.size) :
    before.Grows (values.foldl (fun store entry => store.insert owner entry.1 entry.2) store) := by
  induction values generalizing store with
  | nil => exact hgrows
  | cons entry rest ih =>
      obtain ⟨hnext, hloose⟩ := h.insert hgrows howner
      exact ih hloose hnext

theorem child?_alloc_cases {parent child : SectionId} {name : String}
    (h : (store.alloc values).2.child? parent name = some child) :
    store.child? parent name = some child ∨
      parent = store.size ∧ (values.get? name).bind Value.section? = some child := by
  by_cases hparent : parent = store.size
  · subst hparent
    rw [child?, PlantedAll.get?_alloc] at h
    exact .inr ⟨rfl, h⟩
  · rw [child?, get?, entries_alloc_of_ne hparent] at h
    exact .inl h

theorem Loose.key_eq (h : before.Loose store values) {name : String} {child : SectionId}
    (hkey : (values.get? key).bind Value.section? = some child)
    (hname : (values.get? name).bind Value.section? = some child) : key = name := by
  obtain ⟨value, hvalue, hsection⟩ := Option.bind_eq_some_iff.mp hkey
  obtain ⟨other, hother, hsection'⟩ := Option.bind_eq_some_iff.mp hname
  by_contra hne
  have happart := Entries.rel_of_pairwise (fun value other => ∀ id, value.section? = some id → other.section? ≠ some id)
    (fun happart id hother hheld => happart id hheld hother) h.apart hvalue hother hne
  exact happart child hsection hsection'

/-- A new section can be made of loose values, and stands nowhere itself. -/
theorem Loose.alloc (h : before.Loose store values) (hgrows : before.Grows store) (hkeys : values.keys.Nodup) :
    before.Grows (store.alloc values).2 ∧ (store.alloc values).2.Unheld store.size := by
  have hvalue {name : String} {child : SectionId} (hchild : (values.get? name).bind Value.section? = some child) :
      ∃ entry ∈ values, entry.2.section? = some child ∧ before.size ≤ child ∧ child < store.size := by
    obtain ⟨value, hvalue, hsection⟩ := Option.bind_eq_some_iff.mp hchild
    have hmem := Entries.mem_of_get? hvalue
    exact ⟨_, hmem, hsection, mem_grown_empty.mp (h.within _ hmem child hsection)⟩
  have houtside : store.size ∉ before.grown ∅ store := fun hmem => absurd (mem_grown_empty.mp hmem).2 (Nat.lt_irrefl _)
  constructor
  · refine ⟨hgrows.forest.of_added store.size
      (fun name child => (values.get? name).bind Value.section? = some child) ?_ ?_ child?_alloc_cases ?_ h.key_eq,
      ?_, ?_⟩
    · intro id
      by_cases hid : id = store.size
      · subst hid
        exact (entries_alloc_self store values).symm ▸ hkeys
      · rw [entries_alloc_of_ne hid]
        exact hgrows.forest.nodup id
    · simp
    · intro name child hchild
      obtain ⟨entry, hentry, hsection, _, hlt⟩ := hvalue hchild
      rw [size_alloc]
      exact ⟨Nat.lt_succ_of_lt hlt, h.unheld entry hentry child hsection, h.not_reaches hentry hsection houtside⟩
    · simpa using Nat.le_succ_of_le hgrows.size_le
    · intro id hid hbefore parent name hheld
      rcases child?_alloc_cases hheld with hold | ⟨_, hchild⟩
      · exact hgrows.unheld hid hbefore parent name hold
      · obtain ⟨_, _, _, hfresh, _⟩ := hvalue hchild
        exact absurd hfresh (Nat.not_le_of_lt hid)
  · intro parent name hheld
    rcases child?_alloc_cases hheld with hold | ⟨_, hchild⟩
    · exact absurd (hgrows.forest.lt_size hold) (Nat.lt_irrefl _)
    · obtain ⟨_, _, _, _, hlt⟩ := hvalue hchild
      exact absurd hlt (Nat.lt_irrefl _)

/-- An empty section can be made. -/
theorem Forest.alloc_nil (h : store.Forest) : store.Grows (store.alloc []).2 ∧ (store.alloc []).2.Unheld store.size := by
  have hclosed : store.Closed (store.grown ∅ store) := by simpa using store.closed_empty
  have hloose : store.Loose store [] := ⟨hclosed, by simp, by simp, .nil⟩
  exact hloose.alloc (.refl h) List.nodup_nil

/-! ## Documents -/

/-- The sections of nodes are loose, if each of them is when it is made. -/
theorem loose_addNodes (nodes : List (String × Node))
    (hunheld : ∀ entry ∈ (store.addNodes nodes).1, ∀ id, entry.2.section? = some id →
      (store.addNodes nodes).2.Unheld id) : store.Loose (store.addNodes nodes).2 (store.addNodes nodes).1 where
  closed := (addNodes_edits store ∅ nodes).1.closed store.closed_empty
  within := (addNodes_edits store ∅ nodes).2
  unheld := hunheld
  apart := (addNodes_planted store nodes).apart.imp fun happart id => happart [] [] id

mutual

theorem Forest.addNode {store : Store} (h : store.Forest) : (node : Node) → node.Distinct →
    store.Grows (store.addNode node).2 ∧
      ∀ id, (store.addNode node).1.section? = some id → (store.addNode node).2.Unheld id
  | .text _, _ => ⟨.refl h, fun id hid => by cases hid⟩
  | .branch nodes, ⟨hnodup, hnodes⟩ => by
      obtain ⟨hgrows, hunheld⟩ := h.addNodes nodes hnodes
      have hkeys : (store.addNodes nodes).1.keys.Nodup :=
        (addNodes_planted store nodes).planted.keys_eq ▸ hnodup
      obtain ⟨hmade, hnew⟩ := (loose_addNodes nodes hunheld).alloc hgrows hkeys
      rw [addNode_branch]
      refine ⟨hmade, fun id hid => ?_⟩
      cases hid
      exact hnew

theorem Forest.addNodes {store : Store} (h : store.Forest) : (nodes : List (String × Node)) → Document.DistinctEntries nodes →
    store.Grows (store.addNodes nodes).2 ∧
      ∀ entry ∈ (store.addNodes nodes).1, ∀ id, entry.2.section? = some id → (store.addNodes nodes).2.Unheld id
  | [], _ => ⟨.refl h, fun entry hentry => by cases hentry⟩
  | (key, node) :: rest, ⟨hnode, hnodes⟩ => by
      obtain ⟨hgrows, hunheld⟩ := h.addNode node hnode
      obtain ⟨hrest, hlater⟩ := hgrows.forest.addNodes rest hnodes
      rw [addNodes_cons]
      refine ⟨hgrows.trans hrest, fun entry hentry id hid => ?_⟩
      rcases List.mem_cons.mp hentry with rfl | hmem
      · have hroot : (store.addNode node).2.sectionAt (store.addNode node).1 [] = some id := hid
        exact hrest.unheld ((addNode_planted store node).spread.lt_size hroot) (hunheld id hid)
      · exact hlater entry hmem id hid

end

/-- A document becomes a tree of its own. -/
theorem Forest.addDocument (h : store.Forest) {document : Document} (hdistinct : (Node.branch document).Distinct) :
    store.Grows (store.addDocument document).2 ∧ (store.addDocument document).2.Unheld (store.addDocument document).1 := by
  obtain ⟨hgrows, hunheld⟩ := h.addNode (.branch document) hdistinct
  exact ⟨hgrows, hunheld _ rfl⟩

/-- A document is put into a section as trees of its own. -/
theorem Forest.merge (h : store.Forest) (howner : owner < store.size) {document : Document}
    (hdistinct : Document.DistinctEntries document) : store.Grows (store.merge owner document) := by
  obtain ⟨hgrows, hunheld⟩ := h.addNodes document hdistinct
  exact (loose_addNodes document hunheld).foldl_insert hgrows howner

/-! ## Overrides -/

theorem Forest.enter (h : store.Forest) (howner : owner < store.size) (key : String) :
    store.Grows (store.enter owner key).2 ∧ (store.enter owner key).1 < (store.enter owner key).2.size := by
  cases hchild : store.child? owner key with
  | some child =>
      rw [enter_of_some hchild]
      exact ⟨.refl h, h.lt_size hchild⟩
  | none =>
      obtain ⟨hgrows, hunheld⟩ := h.alloc_nil
      have hmade : store.Edits ∅ (store.alloc []).2 := Edits.refl.alloc fun entry hentry => by cases hentry
      have hloose : store.Loose (store.alloc []).2 [(key, .nested .plain store.size)] := by
        constructor
        · exact hmade.closed store.closed_empty
        · simp [Value.Within, Value.section?, mem_grown_empty]
        · simpa [Value.section?] using hunheld
        · exact List.pairwise_singleton _ _
      rw [enter_of_none hchild]
      exact ⟨(hloose.insert hgrows howner).1, by simp⟩

theorem Forest.setPath (h : store.Forest) (howner : owner < store.size) (path : List String) (text : String) :
    store.Grows (store.setPath owner path text) := by
  induction path generalizing store owner with
  | nil => exact .refl h
  | cons key path ih =>
      cases path with
      | nil =>
          apply h.grows_insert howner
          intro id hid
          cases hid
      | cons next path =>
          obtain ⟨hgrows, hchild⟩ := h.enter howner key
          rw [setPath_cons_cons]
          exact hgrows.trans (ih hgrows.forest hchild)

end Store

theorem Overrides.apply_grows (overrides : Overrides) {store : Store} {id : SectionId} (h : store.Forest)
    (hid : id < store.size) (vars : List (String × String)) : store.Grows (overrides.apply store id vars).2 := by
  apply overrides.apply_induction vars
  · exact .refl h
  · intro before path _ hbefore text
    exact hbefore.trans (hbefore.forest.setPath (Nat.lt_of_lt_of_le hid hbefore.size_le) path text)

end LayeredConfig
