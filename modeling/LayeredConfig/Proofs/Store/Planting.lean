import LayeredConfig.Proofs.Entries.Match
import LayeredConfig.Proofs.Store.Path
import LayeredConfig.Proofs.Store.Writes
import Mathlib.Data.List.Pairwise
import Mathlib.Data.Option.Basic

/-!
# Documents in the store

The tree that a document becomes in the store is the document's own, and stands apart from all that was there before. A
document that is put into a section therefore replaces what the section holds under its keys, and nothing else.
-/

namespace LayeredConfig

/-! ## The tree of a document -/

namespace Node

def shape : Node → Shape
  | .text value => .scalar (.text value)
  | .branch entries => .nested .plain (Entries.keys entries)

def follow (node : Node) : (path : List String) → Option Node
  | [] => some node
  | key :: path =>
    match node with
    | .text _ => none
    | .branch entries => (Entries.get? entries key).bind fun next => next.follow path

def shapeAt (node : Node) (path : List String) : Option Shape := (node.follow path).map shape

@[simp] theorem shapeAt_nil (node : Node) : node.shapeAt [] = some node.shape := rfl

theorem shapeAt_branch_cons (entries : List (String × Node)) (key : String) (path : List String) :
    (Node.branch entries).shapeAt (key :: path) =
      (Entries.get? entries key).bind fun next => next.shapeAt path := by
  rw [shapeAt, follow]
  cases Entries.get? entries key <;> rfl

end Node

namespace Store

variable {before store after : Store} {value : Value} {node : Node} {values : Entries Value}
  {nodes : List (String × Node)}

/-- The tree of the value was made since `before`, and is the tree of the node. -/
structure Planted (before store : Store) (value : Value) (node : Node) : Prop where
  spread : store.Spread value
  fresh : ∀ path id, store.sectionAt value path = some id → before.size ≤ id
  shapeAt_eq : ∀ path, store.shapeAt value path = node.shapeAt path

/-- The trees of the values were made since `before` and apart from each other, and are those of the nodes. -/
structure PlantedAll (before store : Store) (values : Entries Value) (nodes : List (String × Node)) : Prop where
  planted : Entries.Match (Planted before store) values nodes
  apart : values.Pairwise fun entry other => store.Apart entry.2 other.2

/-! ## Making the sections of a document -/

theorem Planted.congr (h : Planted before store value node)
    (hentries : ∀ id, before.size ≤ id → id < store.size → after.entries id = store.entries id)
    (hsize : store.size ≤ after.size) : Planted before after value node := by
  have hkept (path : List String) (id : SectionId) (hid : store.sectionAt value path = some id) :
      after.entries id = store.entries id := hentries id (h.fresh path id hid) (h.spread.lt_size hid)
  refine ⟨h.spread.congr hkept hsize, fun path id hid => ?_, fun path => ?_⟩
  · exact h.fresh path id (sectionAt_congr hkept path ▸ hid)
  · rw [shapeAt_congr hkept, h.shapeAt_eq]

theorem Planted.earlier (h : Planted before store value node) {earliest : Store}
    (hsize : earliest.size ≤ before.size) : Planted earliest store value node :=
  ⟨h.spread, fun path id hid => Nat.le_trans hsize (h.fresh path id hid), h.shapeAt_eq⟩

theorem planted_text (before store : Store) (text : String) :
    Planted before store (.text text) (.text text) where
  spread := spread_scalar store _
  fresh path id hid := by cases path <;> cases hid
  shapeAt_eq path := by cases path <;> rfl

theorem Apart.symm {left right : Value} (h : store.Apart left right) : store.Apart right left :=
  fun path other id hright hleft => h other path id hleft hright

namespace PlantedAll

theorem exists_planted (h : PlantedAll before store values nodes) {entry : String × Value} (hentry : entry ∈ values) :
    ∃ node, Planted before store entry.2 node := h.planted.exists_of_mem hentry

theorem get?_alloc (store : Store) (values : Entries Value) (key : String) :
    (store.alloc values).2.get? store.size key = Entries.get? values key :=
  congrArg (Entries.get? · key) (entries_alloc_self store values)

theorem entries_alloc (h : PlantedAll before store values nodes) {entry : String × Value} (hentry : entry ∈ values)
    (path : List String) (id : SectionId) (hid : store.sectionAt entry.2 path = some id) :
    (store.alloc values).2.entries id = store.entries id := by
  obtain ⟨node, hplanted⟩ := h.exists_planted hentry
  exact entries_alloc_of_lt (hplanted.spread.lt_size hid) values

/-- A section of the new tree is its root, or is in the tree of one value. -/
theorem sectionAt_alloc (h : PlantedAll before store values nodes) {path : List String} {id : SectionId}
    (hid : (store.alloc values).2.sectionAt (.nested .plain store.size) path = some id) :
    (path = [] ∧ id = store.size) ∨ ∃ key rest value, path = key :: rest ∧
      Entries.get? values key = some value ∧ store.sectionAt value rest = some id := by
  cases path with
  | nil =>
      cases hid
      exact .inl ⟨rfl, rfl⟩
  | cons key rest =>
      rw [sectionAt_nested_cons, get?_alloc] at hid
      obtain ⟨value, hvalue, hid⟩ := Option.bind_eq_some_iff.mp hid
      rw [sectionAt_congr (h.entries_alloc (Entries.mem_of_get? hvalue))] at hid
      exact .inr ⟨key, rest, value, rfl, hvalue, hid⟩

theorem injective (h : PlantedAll before store values nodes) {key key' : String} {rest rest' : List String}
    {value value' : Value} {id : SectionId} (hvalue : Entries.get? values key = some value)
    (hvalue' : Entries.get? values key' = some value') (hid : store.sectionAt value rest = some id)
    (hid' : store.sectionAt value' rest' = some id) : key :: rest = key' :: rest' := by
  by_cases hkey : key = key'
  · subst hkey
    cases hvalue.symm.trans hvalue'
    obtain ⟨node, hplanted⟩ := h.exists_planted (Entries.mem_of_get? hvalue)
    rw [hplanted.spread.injective hid hid']
  · have happart := Entries.rel_of_pairwise store.Apart Apart.symm h.apart hvalue hvalue' hkey
    exact absurd hid' (happart rest rest' id hid)

theorem spread_alloc (h : PlantedAll before store values nodes) :
    (store.alloc values).2.Spread (.nested .plain store.size) where
  lt_size {path id} hid := by
    rw [size_alloc]
    rcases h.sectionAt_alloc hid with ⟨_, rfl⟩ | ⟨key, rest, value, _, hvalue, hid⟩
    · exact Nat.lt_succ_self _
    · obtain ⟨node, hplanted⟩ := h.exists_planted (Entries.mem_of_get? hvalue)
      exact Nat.lt_succ_of_lt (hplanted.spread.lt_size hid)
  injective {path other id} hid hother := by
    rcases h.sectionAt_alloc hid with ⟨rfl, hroot⟩ | ⟨key, rest, value, rfl, hvalue, hid⟩ <;>
      rcases h.sectionAt_alloc hother with ⟨rfl, hroot'⟩ | ⟨key', rest', value', rfl, hvalue', hid'⟩
    · rfl
    · obtain ⟨node, hplanted⟩ := h.exists_planted (Entries.mem_of_get? hvalue')
      exact absurd hroot (Nat.ne_of_lt (hplanted.spread.lt_size hid'))
    · obtain ⟨node, hplanted⟩ := h.exists_planted (Entries.mem_of_get? hvalue)
      exact absurd hroot' (Nat.ne_of_lt (hplanted.spread.lt_size hid))
    · exact h.injective hvalue hvalue' hid hid'

theorem alloc (h : PlantedAll before store values nodes) (hsize : before.size ≤ store.size) :
    Planted before (store.alloc values).2 (.nested .plain store.size) (.branch nodes) where
  spread := h.spread_alloc
  fresh path id hid := by
    rcases h.sectionAt_alloc hid with ⟨_, rfl⟩ | ⟨key, rest, value, _, hvalue, hid⟩
    · exact hsize
    · obtain ⟨node, hplanted⟩ := h.exists_planted (Entries.mem_of_get? hvalue)
      exact hplanted.fresh rest id hid
  shapeAt_eq path := by
    cases path with
    | nil =>
        have hkeys : ((store.alloc values).2.entries store.size).keys = Entries.keys nodes :=
          (congrArg Entries.keys (entries_alloc_self store values)).trans h.planted.keys_eq
        simp [shapeAt, shape, Node.shape, hkeys]
    | cons key rest =>
        rw [shapeAt_nested_cons, get?_alloc, Node.shapeAt_branch_cons]
        refine h.planted.bind_get?_eq key fun hmem hplanted => ?_
        rw [shapeAt_congr (h.entries_alloc hmem), hplanted.shapeAt_eq]

end PlantedAll

mutual

theorem addNode_planted (store : Store) : (node : Node) →
    Planted store (store.addNode node).2 (store.addNode node).1 node
  | .text value => planted_text store store value
  | .branch nodes => by
      rw [addNode_branch]
      exact (addNodes_planted store nodes).alloc (addNodes_edits store ∅ nodes).1.size_le

theorem addNodes_planted (store : Store) : (nodes : List (String × Node)) →
    PlantedAll store (store.addNodes nodes).2 (store.addNodes nodes).1 nodes
  | [] => ⟨.nil, .nil⟩
  | (key, node) :: rest => by
      have hnode := addNode_planted store node
      have hrest := addNodes_planted (store.addNode node).2 rest
      have hedits := (addNodes_edits (store.addNode node).2 ∅ rest).1
      have hsize := (addNode_edits store ∅ node).1.size_le
      have hkept (id : SectionId) (hid : id < (store.addNode node).2.size) :=
        hedits.entries_eq_of_lt hid (Set.notMem_empty id)
      rw [addNodes_cons]
      refine ⟨.cons ⟨rfl, hnode.congr (fun id _ hid => hkept id hid) hedits.size_le⟩ ?_, .cons ?_ hrest.apart⟩
      · exact hrest.planted.imp fun _ _ hentry => ⟨hentry.1, hentry.2.earlier hsize⟩
      · intro entry hentry path other id hid hother
        obtain ⟨_, hplanted⟩ := hrest.exists_planted hentry
        rw [sectionAt_congr fun path id hid => hkept id (hnode.spread.lt_size hid)] at hid
        exact absurd (hplanted.fresh other id hother) (Nat.not_le_of_lt (hnode.spread.lt_size hid))

end

/-- The section that a document was added as is the root of the document's tree. -/
theorem addDocument_planted (store : Store) (document : Document) :
    Planted store (store.addDocument document).2 (.nested .plain (store.addDocument document).1) (.branch document) :=
  (addNodes_planted store document).alloc (addNodes_edits store ∅ document).1.size_le

/-! ## Putting a document into a section -/

/-- The values can be put under their keys in the root one after another, and are the trees of the nodes. -/
structure Pending (store : Store) (root : Value) (values : Entries Value) (nodes : List (String × Node)) : Prop where
  root_spread : store.Spread root
  shown : Entries.Match (fun value node => store.Spread value ∧
    ∀ path, store.shapeAt value path = node.shapeAt path) values nodes
  apart : values.Pairwise fun entry other => store.Apart entry.2 other.2
  root_apart : ∀ entry ∈ values, store.Apart root entry.2

theorem shapeAt_insert {id : SectionId} {document : Document} {other : List String}
    (hgraft : store.Graft (.nested .plain id) [] id value) (key : String)
    (hshow : ∀ path, store.shapeAt value path = node.shapeAt path)
    (h : store.shapeAt (.nested .plain id) other = (Node.branch document).shapeAt other) :
    (store.insert id key value).shapeAt (.nested .plain id) other =
      (Node.branch (Entries.insert document key node)).shapeAt other := by
  cases other with
  | nil =>
      simp only [shapeAt, follow_nil, Option.map_some, shape, Node.shapeAt_nil, Node.shape, Option.some.injEq,
        Shape.nested.injEq, true_and] at h ⊢
      rw [entries_insert_self hgraft.owner_lt, Entries.keys_insert, Entries.keys_insert, h]
  | cons first rest =>
      rw [Node.shapeAt_branch_cons, Entries.get?_insert]
      by_cases hkey : key = first
      · subst hkey
        rw [if_pos rfl]
        exact (hgraft.shapeAt_graft key rest).trans (hshow rest)
      · rw [if_neg hkey, ← Node.shapeAt_branch_cons, ← h]
        exact hgraft.shapeAt_other (by simpa using hkey) (List.cons_ne_nil first rest)

namespace Pending

variable {id : SectionId} {entry : String × Value} {other : String × Node}

theorem graft (h : Pending store (.nested .plain id) (entry :: values) nodes) :
    store.Graft (.nested .plain id) [] id entry.2 := by
  cases h.shown with
  | cons hhead _ => exact ⟨h.root_spread, hhead.2.1, h.root_apart entry List.mem_cons_self, rfl⟩

/-- The entry is put under its key, and the rest is still to be put. -/
theorem step (h : Pending store (.nested .plain id) (entry :: values) (other :: nodes)) :
    Pending (store.insert id entry.1 entry.2) (.nested .plain id) values nodes := by
  have hgraft := h.graft
  have hkept (later : String × Value) (hlater : later ∈ values) (path : List String) (inner : SectionId)
      (hinner : store.sectionAt later.2 path = some inner) :
      (store.insert id entry.1 entry.2).entries inner = store.entries inner := by
    refine entries_insert_of_ne ?_ entry.1 entry.2
    rintro rfl
    exact h.root_apart later (List.mem_cons_of_mem entry hlater) [] path _ rfl hinner
  obtain ⟨hfirst, hlater⟩ := List.pairwise_cons.mp h.apart
  refine ⟨hgraft.spread entry.1, ?_, ?_, fun later hmem path path' inner hroot hinner => ?_⟩
  · cases h.shown with
    | cons _ hshown =>
        refine List.forall₂_iff_zip.mpr ⟨hshown.length_eq, fun {later node} hzip => ?_⟩
        obtain ⟨hkey, hspread, hshape⟩ := List.forall₂_zip hshown hzip
        have hlaterKept := hkept later (List.of_mem_zip hzip).1
        refine ⟨hkey, hspread.congr hlaterKept (by rw [size_insert]), fun path => ?_⟩
        rw [shapeAt_congr hlaterKept, hshape]
  · refine hlater.imp_of_mem fun hmem hmem' happart path path' inner hinner hinner' => ?_
    rw [sectionAt_congr (hkept _ hmem)] at hinner
    rw [sectionAt_congr (hkept _ hmem')] at hinner'
    exact happart path path' inner hinner hinner'
  · rw [sectionAt_congr (hkept later hmem)] at hinner
    rcases Graft.path_cases [] entry.1 path with ⟨rest, rfl⟩ | hnot
    · rw [hgraft.sectionAt_graft] at hroot
      exact hfirst later hmem rest path' inner hroot hinner
    · rw [hgraft.sectionAt_other hnot] at hroot
      exact h.root_apart later (List.mem_cons_of_mem entry hmem) path path' inner hroot hinner

theorem foldl (h : Pending store (.nested .plain id) values nodes) :
    (values.foldl (fun store entry => store.insert id entry.1 entry.2) store).Spread (.nested .plain id) ∧
      ∀ (document : Document) (path : List String),
        store.shapeAt (.nested .plain id) path = (Node.branch document).shapeAt path →
        (values.foldl (fun store entry => store.insert id entry.1 entry.2) store).shapeAt (.nested .plain id) path =
          (Node.branch (Entries.merge document nodes)).shapeAt path := by
  induction values generalizing store nodes with
  | nil =>
      cases h.shown
      exact ⟨h.root_spread, fun _ _ hpath => hpath⟩
  | cons entry values ih =>
      cases h.shown with
      | @cons _ other _ nodes hhead _ =>
          obtain ⟨hspread, hshape⟩ := ih h.step
          refine ⟨hspread, fun document path hpath => ?_⟩
          have hnext := shapeAt_insert h.graft entry.1 hhead.2.2 hpath
          change _ = (Node.branch (Entries.merge (Entries.insert document other.1 other.2) nodes)).shapeAt path
          rw [← hhead.1]
          exact hshape _ path hnext

end Pending

theorem pending_addNodes {root : Value} (h : store.Spread root) (nodes : List (String × Node)) :
    Pending (store.addNodes nodes).2 root (store.addNodes nodes).1 nodes := by
  have hplanted := addNodes_planted store nodes
  have hedits := (addNodes_edits store ∅ nodes).1
  have hkept (path : List String) (id : SectionId) (hid : store.sectionAt root path = some id) :
      (store.addNodes nodes).2.entries id = store.entries id :=
    hedits.entries_eq_of_lt (h.lt_size hid) (Set.notMem_empty id)
  refine ⟨h.congr hkept hedits.size_le, ?_, hplanted.apart, fun entry hentry path path' id hid hid' => ?_⟩
  · exact hplanted.planted.imp fun _ _ hentry => ⟨hentry.1, hentry.2.spread, hentry.2.shapeAt_eq⟩
  · obtain ⟨_, hnode⟩ := hplanted.exists_planted hentry
    rw [sectionAt_congr hkept] at hid
    exact absurd (hnode.fresh path' id hid') (Nat.not_le_of_lt (h.lt_size hid))

/-- At a path at which a section holds what a document does, it holds what the merge of both documents does after
another one was put into it. -/
theorem merge_shapeAt {id : SectionId} (h : store.Spread (.nested .plain id)) (later : Document) :
    (store.merge id later).Spread (.nested .plain id) ∧
      ∀ (document : Document) (path : List String),
        store.shapeAt (.nested .plain id) path = (Node.branch document).shapeAt path →
        (store.merge id later).shapeAt (.nested .plain id) path =
          (Node.branch (Entries.merge document later)).shapeAt path := by
  have hpending := pending_addNodes h later
  refine ⟨hpending.foldl.1, fun document path hpath => hpending.foldl.2 document path ?_⟩
  rw [← hpath]
  exact shapeAt_congr (fun path id hid =>
    (addNodes_edits store ∅ later).1.entries_eq_of_lt (h.lt_size hid) (Set.notMem_empty id)) path

end Store

end LayeredConfig
