import LayeredConfig.Configuration
import LayeredConfig.Proofs.Layers.Loading
import LayeredConfig.Proofs.Layers.Naming
import LayeredConfig.Proofs.Store.Overriding
import LayeredConfig.Proofs.Store.Planting
import Mathlib

/-!
# What a load gives

The tree of a configuration is the merge of its three documents, except where variables override it; there it holds
the texts of the variables.
-/

namespace LayeredConfig

/-- The merge of documents: a top-level entry of a later one replaces the one of that name. -/
def Document.ofLayers (texts : List String) : Document :=
  texts.foldl (fun merged text => Entries.merge merged (Document.ofText text)) []

theorem Node.scalar_of_shapeAt {node : Node} {path : List String} {content : Scalar}
    (h : node.shapeAt path = some (.scalar content)) : ∃ text, content = .text text := by
  obtain ⟨found, _, hshape⟩ := Option.map_eq_some_iff.mp h
  cases found with
  | text value =>
      cases hshape
      exact ⟨value, rfl⟩
  | branch entries => cases hshape

namespace Store

variable {store : Store} {root : Value} {path : List String}

/-- There are no scalars but texts in the tree. -/
def Textual (store : Store) (root : Value) : Prop :=
  ∀ path content, store.follow root path = some (.scalar content) → ∃ text, content = .text text

end Store

namespace Overrides

variable {overrides : Overrides} {vars : List (String × String)} {path : List String}

theorem Untouched.append (h : overrides.Untouched vars path) (rest : List String) :
    overrides.Untouched vars (path ++ rest) := by
  intro entry hentry applied hspells
  obtain ⟨hbelow, habove⟩ := h entry hentry applied hspells
  refine ⟨fun hprefix => ?_, fun hprefix => habove ((List.prefix_append path rest).trans hprefix)⟩
  exact (List.prefix_or_prefix_of_prefix hprefix (List.prefix_append path rest)).elim hbelow habove

end Overrides

namespace Layers

variable {layers : Layers} {overrides : Overrides} {vars : List (String × String)} {store after : Store}
  {root : SectionId} {document : Document}

/-! ## The stages -/

/-- The section holds what the document does at every path of `near`. -/
structure Holds (near : List String → Prop) (store : Store) (root : SectionId) (document : Document) : Prop where
  spread : store.Spread (.nested .plain root)
  shapeAt_eq : ∀ path, near path → store.shapeAt (.nested .plain root) path = (Node.branch document).shapeAt path

theorem holds_alloc (store : Store) : Holds (fun _ => True) (store.alloc []).2 (store.alloc []).1 [] := by
  have hplanted := (⟨.nil, .nil⟩ : Store.PlantedAll store store [] []).alloc (Nat.le_refl _)
  exact ⟨hplanted.spread, fun path _ => hplanted.shapeAt_eq path⟩

theorem Holds.merge {near : List String → Prop} (h : Holds near store root document) (text : String) :
    Holds near (store.merge root (Document.ofText text)) root (Entries.merge document (Document.ofText text)) := by
  obtain ⟨hspread, hshape⟩ := Store.merge_shapeAt h.spread (Document.ofText text)
  exact ⟨hspread, fun path hpath => hshape document path (h.shapeAt_eq path hpath)⟩

theorem Holds.addLayer {near : List String → Prop} {source : Source} {name : String}
    (h : Holds near store root document) (hadd : Layers.addLayer source store root name = .ok after) :
    ∃ text, source.read name = .ok text ∧
      Holds near after root (Entries.merge document (Document.ofText text)) := by
  obtain ⟨text, hread, hadd⟩ := bind_eq_ok_iff.mp hadd
  cases hadd
  exact ⟨text, hread, h.merge text⟩

theorem Holds.textual (h : Holds (fun _ => True) store root document) : store.Textual (.nested .plain root) := by
  intro path content hcontent
  rw [Store.follow_eq_scalar_iff, h.shapeAt_eq path trivial] at hcontent
  exact Node.scalar_of_shapeAt hcontent

theorem override_eq (h : layers.overrides = some overrides) (vars : List (String × String)) (store : Store)
    (root : SectionId) : layers.override vars store root = (overrides.apply store root vars).2 := by
  rw [override, h]

theorem Holds.override {near : List String → Prop} (h : Holds near store root document)
    (vars : List (String × String)) (hnear : ∀ path, overrides.Untouched vars path → near path)
    (hoverrides : layers.overrides = some overrides) :
    Holds (overrides.Untouched vars) (layers.override vars store root) root document := by
  have hchanges := overrides.changes_apply h.spread rfl vars
  rw [override_eq hoverrides]
  refine ⟨hchanges.spread, fun path hpath => ?_⟩
  rw [hchanges.elsewhere path hpath, h.shapeAt_eq path (hnear path hpath)]

theorem Holds.textual_override (h : Holds (fun _ => True) store root document)
    (hoverrides : layers.overrides = some overrides) :
    (layers.override vars store root).Textual (.nested .plain root) := by
  intro path content hcontent
  rw [override_eq hoverrides] at hcontent
  rcases (overrides.changes_apply h.spread rfl vars).scalars path content hcontent with htext | hheld
  · exact htext
  · exact h.textual path content hheld

theorem sectionAt_of_owner {name : String} {owner : SectionId}
    (h : (Handle.ofRoot root).owner store (some name) = .ok owner) :
    store.sectionAt (.nested .plain root) [name] = some owner := by
  simp only [Handle.owner, Handle.ofRoot] at h
  cases hchild : store.child? root name with
  | none =>
      rw [hchild] at h
      cases h
  | some child =>
      rw [hchild] at h
      cases h
      obtain ⟨value, hvalue, hsection⟩ := Option.bind_eq_some_iff.mp hchild
      rw [Store.sectionAt_nested_cons, hvalue, Option.bind_some]
      exact hsection

/-- Where only texts are found, reading the environment changes nothing. -/
theorem readEnvironment_unchanged {environment : String} (htextual : store.Textual (.nested .plain root))
    (h : readEnvironment store root = .ok (environment, after)) : after = store := by
  refine readEnvironment_unchanged_of_text (fun {owner content} howner hheld => ?_) h
  have hfollow : store.follow (.nested .plain root) ([Snapshot.applicationSection] ++ ["env"]) =
      some (.scalar content) := by
    rw [Store.follow_append_cons (sectionAt_of_owner howner), hheld]
    rfl
  exact htextual _ _ hfollow

end Layers

/-- After a configuration is built, the last variable that comes near its path is what is read at the path, and a path
that no variable comes near leads to what the merge of the three documents holds there. The third of them has the name
that the template gives for the environment. -/
theorem Configuration.build_overridden {layers : Layers} {overrides : Overrides} {world : World}
    {store after : Store} {configuration : Configuration} (hoverrides : layers.overrides = some overrides)
    (hbuild : Configuration.build layers world store = .ok (configuration, after)) :
    ∃ application model name environment : String,
      world.source.read layers.applicationDocument = .ok application ∧
      world.source.read layers.modelDocument = .ok model ∧
      layers.Names configuration.current.environment name ∧ world.source.read name = .ok environment ∧
      (∀ before name value later path, world.vars = before ++ (name, value) :: later →
        overrides.Spells name path → overrides.Untouched later path →
        after.follow configuration.current.handle.tree path = some (.text value)) ∧
      ∀ path, overrides.Untouched world.vars path → ∀ rest,
        after.shapeAt configuration.current.handle.tree (path ++ rest) =
          (Node.branch (Document.ofLayers [application, model, environment])).shapeAt (path ++ rest) := by
  obtain ⟨⟨current, loaded⟩, hload, hbuild⟩ := bind_eq_ok_iff.mp hbuild
  cases hbuild
  obtain ⟨⟨root, base⟩, hbase, hload⟩ := bind_eq_ok_iff.mp hload
  obtain ⟨⟨tag, read⟩, hread, hload⟩ := bind_eq_ok_iff.mp hload
  obtain ⟨last, hlast, hload⟩ := bind_eq_ok_iff.mp hload
  cases hload
  obtain ⟨first, hfirst, hbase⟩ := bind_eq_ok_iff.mp hbase
  obtain ⟨second, hsecond, hbase⟩ := bind_eq_ok_iff.mp hbase
  cases hbase
  have hempty := Layers.holds_alloc store
  obtain ⟨application, happlication, hheld⟩ := hempty.addLayer hfirst
  obtain ⟨model, hmodel, hheld⟩ := hheld.addLayer hsecond
  have hbase := hheld.override world.vars (fun _ _ => trivial) hoverrides
  -- The read would keep a converted value, but documents and variables leave nothing to convert.
  obtain rfl := Layers.readEnvironment_unchanged (hheld.textual_override hoverrides) hread
  obtain ⟨environment, henvironment, hlayers⟩ := hbase.addLayer hlast
  have hfinal := hlayers.override world.vars (fun _ hpath => hpath) hoverrides
  refine ⟨application, model, _, environment, happlication, hmodel, layers.names_environmentDocument tag, henvironment,
    ?_, ?_⟩
  · -- The document of the environment may have replaced what the first row of overrides set; the second sets it again.
    intro before name value later path hvars hspells hlater
    rw [Layers.override_eq hoverrides, hvars]
    exact overrides.follow_apply hlayers.spread rfl hspells before hlater
  · intro path hpath rest
    exact hfinal.shapeAt_eq (path ++ rest) (hpath.append rest)

/-- Layers with an environment document in two places of a directory, that variables which start with `APP__` override. -/
def portLayers : Layers where
  environmentTemplate := "tier-$\x7benv\x7d/$\x7benv\x7d"
  overrides := some ⟨"APP", "__", by decide⟩

/-- Documents with a server, of which the last replaces the one before it, and a variable for its port. -/
def portWorld : World where
  source := .ofDocuments [("app", "application:\n- env: prod\nserver:\n- port: 1\n"), ("model", ""),
    ("tier-prod/prod", "server:\n- host: h\n"), ("tier-dev/dev", "server:\n- host: d\n")]
  vars := [("APP__SERVER__PORT", "2")]

/-- The port is that of the variable, and the host that of the document for `prod`. -/
theorem Configuration.build_portLayers :
    ∃ configuration after, Configuration.build portLayers portWorld .empty = .ok (configuration, after) ∧
      configuration.current.environment = "prod" ∧
      after.follow configuration.current.handle.tree ["server", "port"] = some (.text "2") ∧
      after.shapeAt configuration.current.handle.tree ["server", "host"] = some (.scalar (.text "h")) := by
  have happ : portWorld.source.read "app" = .ok "application:\n- env: prod\nserver:\n- port: 1\n" := by cbv
  have hempty : portWorld.source.read "model" = .ok "" := by cbv
  have hprod : portWorld.source.read "tier-prod/prod" = .ok "server:\n- host: h\n" := by cbv
  have htemplate : portLayers.environmentDocument "prod" = "tier-prod/prod" := by cbv
  have hheld : (Node.branch (Document.ofLayers ["application:\n- env: prod\nserver:\n- port: 1\n", "",
      "server:\n- host: h\n"])).shapeAt ["server", "host"] = some (.scalar (.text "h")) := by cbv
  obtain ⟨after, hbuild⟩ : ∃ after, Configuration.build portLayers portWorld .empty =
      .ok (⟨portLayers, ⟨.ofRoot 0, "prod"⟩⟩, after) := by
    refine ⟨⟨#[[("application", .nested .plain 1), ("server", .nested .plain 3)], [("env", .text "prod")],
      [("port", .text "2")], [("host", .text "h"), ("port", .text "2")]]⟩, ?_⟩
    cbv
  obtain ⟨application, model, name, environment, happlication, hmodel, hname, henvironment, hset, hkept⟩ :=
    Configuration.build_overridden rfl hbuild
  have hspells : Overrides.Spells ⟨"APP", "__", by decide⟩ "APP__SERVER__PORT" ["server", "port"] :=
    Overrides.path?_eq_some_iff.mp (by cbv)
  have hlater : Overrides.Untouched ⟨"APP", "__", by decide⟩ [] ["server", "port"] := by
    intro entry hentry
    cases hentry
  have hhost : Overrides.Untouched ⟨"APP", "__", by decide⟩ portWorld.vars ["server", "host"] := by
    intro entry hentry path hpath
    obtain rfl := List.mem_singleton.mp hentry
    have hsame := Overrides.path?_eq_some_iff.mpr hpath
    rw [Overrides.path?_eq_some_iff.mpr hspells] at hsame
    obtain rfl := Option.some.inj hsame
    exact ⟨by decide, by decide⟩
  -- The documents are those of the names that the layers give, `tier-prod/prod` for the last.
  obtain rfl := Except.ok.inj (happ.symm.trans happlication)
  obtain rfl := Except.ok.inj (hempty.symm.trans hmodel)
  obtain rfl := (Layers.names_iff.mp hname).trans htemplate
  obtain rfl := Except.ok.inj (hprod.symm.trans henvironment)
  refine ⟨_, after, hbuild, rfl, hset [] "APP__SERVER__PORT" "2" [] ["server", "port"] rfl hspells hlater, ?_⟩
  exact (hkept ["server", "host"] hhost []).trans hheld

end LayeredConfig
