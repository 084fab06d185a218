import LayeredConfig.Proofs.Overrides.Settings
import LayeredConfig.Proofs.Store.Region

/-!
# Where documents and overrides write

A document that is put into a section, and variables that override what is in one, write to a closed region around
that section and to sections that they make.
-/

namespace LayeredConfig

variable {store middle : Store} {region : Set SectionId} {id : SectionId}

namespace Store

/-! ## Documents -/

mutual

theorem addNode_edits (store : Store) (region : Set SectionId) :
    (node : Node) → store.Edits region (store.addNode node).2 ∧
      (store.addNode node).1.Within (store.grown region (store.addNode node).2)
  | .text value => ⟨.refl, fun id hid => by cases hid⟩
  | .branch nodes => by
      obtain ⟨hedits, hvalues⟩ := addNodes_edits store region nodes
      rw [addNode_branch]
      refine ⟨hedits.alloc hvalues, fun id hid => ?_⟩
      cases hid
      rw [grown_alloc hedits.size_le]
      exact Set.mem_insert _ _

theorem addNodes_edits (store : Store) (region : Set SectionId) :
    (nodes : List (String × Node)) → store.Edits region (store.addNodes nodes).2 ∧
      ∀ entry ∈ (store.addNodes nodes).1, entry.2.Within (store.grown region (store.addNodes nodes).2)
  | [] => ⟨.refl, fun entry hentry => by cases hentry⟩
  | (key, node) :: rest => by
      obtain ⟨hnode, hvalue⟩ := addNode_edits store region node
      obtain ⟨hrest, hvalues⟩ := addNodes_edits (store.addNode node).2
        (store.grown region (store.addNode node).2) rest
      rw [hnode.grown_trans hrest] at hvalues
      rw [addNodes_cons]
      refine ⟨hnode.trans hrest, fun entry hentry => ?_⟩
      rcases List.mem_cons.mp hentry with rfl | hmem
      · exact hvalue.mono (grown_mono hrest.size_le)
      · exact hvalues entry hmem

end

theorem Edits.foldl_insert (h : store.Edits region middle) (hid : id ∈ store.grown region middle)
    {values : Entries Value} (hvalues : ∀ entry ∈ values, entry.2.Within (store.grown region middle)) :
    store.Edits region (values.foldl (fun store entry => store.insert id entry.1 entry.2) middle) := by
  induction values generalizing middle with
  | nil => exact h
  | cons entry rest ih =>
      rw [List.foldl_cons]
      apply ih
      · exact h.insert hid (hvalues entry List.mem_cons_self)
      · rwa [grown_insert]
      · intro other hother
        rw [grown_insert]
        exact hvalues other (List.mem_cons_of_mem entry hother)

theorem merge_edits (hid : id ∈ region) (document : Document) :
    store.Edits region (store.merge id document) := by
  obtain ⟨hedits, hvalues⟩ := addNodes_edits store region document
  exact hedits.foldl_insert (subset_grown hid) hvalues

/-! ## Overrides -/

theorem enter_edits (hclosed : store.Closed region) (hid : id ∈ region) (key : String) :
    store.Edits region (store.enter id key).2 ∧
      (store.enter id key).1 ∈ store.grown region (store.enter id key).2 := by
  rw [enter]
  cases hchild : store.child? id key with
  | some child => exact ⟨.refl, subset_grown (hclosed.of_child? hid hchild)⟩
  | none =>
      have hmade : store.Edits region (store.alloc []).2 :=
        Edits.refl.alloc fun entry hentry => by cases hentry
      have hnew : store.size ∈ store.grown region (store.alloc []).2 := by
        rw [grown_alloc (Nat.le_refl _)]
        exact Set.mem_insert _ _
      dsimp only
      refine ⟨hmade.insert (subset_grown hid) fun child hchild => ?_, by rwa [grown_insert]⟩
      cases hchild
      exact hnew

theorem setPath_edits (hclosed : store.Closed region) (hid : id ∈ region) (path : List String) (text : String) :
    store.Edits region (store.setPath id path text) := by
  induction path generalizing store region id with
  | nil => exact .refl
  | cons key path ih =>
      cases path with
      | nil =>
          refine Edits.refl.insert (subset_grown hid) fun child hchild => ?_
          cases hchild
      | cons next path =>
          obtain ⟨hedits, hchild⟩ := enter_edits hclosed hid key
          rw [setPath_cons_cons]
          exact hedits.trans (ih (hedits.closed hclosed) hchild)

end Store

theorem Overrides.apply_edits (overrides : Overrides) (hclosed : store.Closed region) (hid : id ∈ region)
    (vars : List (String × String)) : store.Edits region (overrides.apply store id vars).2 := by
  apply overrides.apply_induction vars
  · exact .refl
  · intro before path _ hbefore text
    exact hbefore.trans (Store.setPath_edits (hbefore.closed hclosed) (Store.subset_grown hid) path text)

end LayeredConfig
