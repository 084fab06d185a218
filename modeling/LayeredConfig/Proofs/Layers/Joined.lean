import LayeredConfig.Proofs.Document.Joined
import LayeredConfig.Proofs.Handle.Likeness
import LayeredConfig.Proofs.Layers.Overridden
import LayeredConfig.Proofs.Reference.Failures

/-!
# Loading as reading one text

Where no variables override anything, a configuration comes to the same as one text: its documents in order, with an empty
line between them. The environment is read from what the first two make together.
-/

namespace LayeredConfig

/-- The environment that a document names in its application section. -/
def Document.environment (document : Document) : Except Failure String :=
  match (Node.branch document).follow [Snapshot.applicationSection, "env"] with
  | none => .error .missingEnvironment
  | some _ =>
    let planted := Store.empty.addDocument document
    match (Handle.ofRoot planted.1).readText planted.2 (some Snapshot.applicationSection) "env" with
    | .ok (some environment, _) => .ok environment
    | .ok (none, _) => .error .missingEnvironment
    | .error failure => .error failure

/-- Reads the documents as one text, and gives the environment along with the document of that text. The document for an
environment is the one that `naming` says. -/
def Layers.loadJoined (layers : Layers) (naming : String → String) (source : Source) :
    Except Failure (String × Document) := do
  let application ← source.read layers.applicationDocument
  let model ← source.read layers.modelDocument
  let base := application ++ "\n\n" ++ model
  let environment ← (Document.ofText base).environment
  let last ← source.read (naming environment)
  return (environment, Document.ofText (base ++ "\n\n" ++ last))

/-! ## The environment -/

section

variable {store : Store} {handle : Handle} {within : Option String} {key : String} {owner : SectionId}
  {failure : Failure}

theorem Handle.readText_of_lookup_error (h : handle.lookup store within key = .error failure) :
    handle.readText store within key = .error failure := by
  rw [readText, read, h]
  rfl

theorem Handle.readText_of_lookup_none (h : handle.lookup store within key = .ok none) :
    handle.readText store within key = .ok (none, store) := by
  rw [readText, read, h]
  rfl

theorem Handle.ofReference_of_lookup (howner : handle.owner store within = .ok owner)
    (h : handle.lookup store within key = .error failure) : failure.OfReference := by
  cases hvalue : store.get? owner key with
  | none =>
      rw [lookup_of_none howner hvalue] at h
      cases h
  | some value =>
      by_cases hkind : value.kind = .scalar .text
      · obtain ⟨raw, rfl⟩ := Value.eq_text_of_kind hkind
        rw [lookup_of_text howner hvalue] at h
        exact Store.ofReference_of_resolve (map_eq_error_iff.mp h)
      · rw [lookup_of_kind_ne howner hvalue hkind] at h
        cases h

/-- In a section that is there, reading a text does not fail for want of the section. -/
theorem Handle.readText_ne_sectionNotFound (howner : handle.owner store within = .ok owner)
    (h : handle.readText store within key = .error failure) (name : String) : failure ≠ .sectionNotFound name := by
  have hread : (handle.readText store within key).map Prod.fst = .error failure := map_eq_error_iff.mpr h
  rw [readText_eq_asText] at hread
  rintro rfl
  rcases bind_eq_error_iff.mp hread with hlookup | ⟨found?, -, hfound⟩
  · exact ofReference_of_lookup howner hlookup
  · cases found? with
    | none => cases hfound
    | some found =>
        have htext := map_eq_error_iff.mp hfound
        rw [Value.asText] at htext
        split at htext <;> cases htext

end

namespace Layers

variable {store : Store} {root : SectionId} {document : Document}

theorem holds_addDocument (document : Document) :
    Holds (fun _ => True) (Store.empty.addDocument document).2 (Store.empty.addDocument document).1 document := by
  have hplanted := Store.empty.addDocument_planted document
  exact ⟨hplanted.spread, fun path _ => hplanted.shapeAt_eq path⟩

theorem follow_environment (store : Store) (root : SectionId) :
    store.follow (.nested .plain root) [Snapshot.applicationSection, "env"] =
      (store.child? root Snapshot.applicationSection).bind (store.get? · "env") := by
  rw [← List.singleton_append, Store.follow_concat]
  have hsection := Store.sectionAt_concat store (.nested .plain root) [] Snapshot.applicationSection
  rw [List.nil_append] at hsection
  rw [hsection]
  rfl

theorem follow_eq_none_iff (h : Holds (fun _ => True) store root document) (path : List String) :
    store.follow (.nested .plain root) path = none ↔ (Node.branch document).follow path = none := by
  have hshape := h.shapeAt_eq path trivial
  rw [Store.shapeAt, Node.shapeAt] at hshape
  rw [← Option.map_eq_none_iff (f := store.shape), hshape, Option.map_eq_none_iff]

theorem readEnvironment_of_follow_eq_none
    (h : store.follow (.nested .plain root) [Snapshot.applicationSection, "env"] = none) :
    readEnvironment store root = .error .missingEnvironment := by
  rw [follow_environment] at h
  cases hchild : store.child? root Snapshot.applicationSection with
  | none =>
      have howner : (Handle.ofRoot root).owner store (some Snapshot.applicationSection) =
          .error (.sectionNotFound Snapshot.applicationSection) := Handle.owner_of_child?_eq_none hchild
      rw [readEnvironment, Handle.readText_of_lookup_error (Handle.lookup_of_owner_error howner)]
  | some owner =>
      have howner : (Handle.ofRoot root).owner store (some Snapshot.applicationSection) = .ok owner :=
        Handle.owner_eq_ok_iff.mpr hchild
      rw [hchild, Option.bind_some] at h
      rw [readEnvironment, Handle.readText_of_lookup_none (Handle.lookup_of_none howner h)]

/-- With an entry for it, an environment is read as a text is, and missing where none is found. -/
theorem readEnvironment_fst
    (h : store.follow (.nested .plain root) [Snapshot.applicationSection, "env"] ≠ none) :
    (readEnvironment store root).map Prod.fst =
      ((Handle.ofRoot root).readText store (some Snapshot.applicationSection) "env").map Prod.fst >>= fun
        | some environment => .ok environment
        | none => .error .missingEnvironment := by
  rw [follow_environment, Option.ne_none_iff_exists'] at h
  obtain ⟨value, hvalue⟩ := h
  obtain ⟨owner, hchild, _⟩ := Option.bind_eq_some_iff.mp hvalue
  have howner : (Handle.ofRoot root).owner store (some Snapshot.applicationSection) = .ok owner :=
    Handle.owner_eq_ok_iff.mpr hchild
  rw [readEnvironment]
  cases hread : (Handle.ofRoot root).readText store (some Snapshot.applicationSection) "env" with
  | ok result => rcases result with ⟨_ | environment, after⟩ <;> rfl
  | error failure =>
      have hne := Handle.readText_ne_sectionNotFound howner hread
      cases failure with
      | sectionNotFound name => exact absurd rfl (hne name)
      | _ => rfl

theorem readEnvironment_eq_environment (h : Holds (fun _ => True) store root document) :
    (readEnvironment store root).map Prod.fst = document.environment := by
  rw [Document.environment]
  cases hfollow : (Node.branch document).follow [Snapshot.applicationSection, "env"] with
  | none =>
      rw [readEnvironment_of_follow_eq_none ((follow_eq_none_iff h _).mpr hfollow)]
      rfl
  | some node =>
      have hpresent : store.follow (.nested .plain root) [Snapshot.applicationSection, "env"] ≠ none := by
        rw [Ne, follow_eq_none_iff h, hfollow]
        exact Option.some_ne_none node
      have hresembles : store.Resembles (Store.empty.addDocument document).2 root (Store.empty.addDocument document).1 :=
        fun path => (h.shapeAt_eq path trivial).trans ((holds_addDocument document).shapeAt_eq path trivial).symm
      rw [readEnvironment_fst hpresent, Handle.readText_of_resembles hresembles]
      simp only
      rcases (Handle.ofRoot (Store.empty.addDocument document).1).readText (Store.empty.addDocument document).2
        (some Snapshot.applicationSection) "env" with failure | ⟨_ | environment, after⟩ <;> rfl

/-- Where a section holds a document, its environment is that of the document, and reading it changes nothing. -/
theorem readEnvironment_eq (h : Holds (fun _ => True) store root document) :
    readEnvironment store root = document.environment.map fun environment => (environment, store) := by
  rw [← readEnvironment_eq_environment h]
  cases hread : readEnvironment store root with
  | error failure => rfl
  | ok result =>
      obtain ⟨environment, after⟩ := result
      obtain rfl := readEnvironment_unchanged h.textual hread
      rfl

theorem Holds.append {text : String} (h : Holds (fun _ => True) store root (Document.ofText text)) (later : String) :
    Holds (fun _ => True) (store.merge root (Document.ofText later)) root (Document.ofText (text ++ "\n\n" ++ later)) := by
  rw [Document.ofText_append_blank]
  exact h.merge later

/-- Without overrides, the first two layers come to the text of their documents. -/
theorem holds_loadBase {layers : Layers} {world : World} {application model : String} (store : Store)
    (happlication : world.source.read layers.applicationDocument = .ok application)
    (hmodel : world.source.read layers.modelDocument = .ok model) :
    ∃ base, Layers.loadBase { layers with overrides := none } world store = .ok (store.size, base) ∧
      Holds (fun _ => True) base store.size (Document.ofText (application ++ "\n\n" ++ model)) := by
  have hfirst := (holds_alloc store).merge application
  rw [Entries.nil_merge (Document.legible_ofText application).1] at hfirst
  refine ⟨_, ?_, hfirst.append model⟩
  simp only [loadBase, addLayer, happlication, hmodel, bind, Except.bind, pure, Except.pure, override]
  rfl

end Layers

/-- Without overrides, building a configuration reads its documents as one text: it gives the environment and the tree of
that, and fails where that fails. The last document is the one that has the template for its name, with the environment in
every place of the mark. -/
theorem Configuration.build_joined (layers : Layers) {naming : String → String}
    (hnaming : ∀ environment, layers.Names environment (naming environment)) (world : World) (store : Store) :
    (∀ environment document, layers.loadJoined naming world.source = .ok (environment, document) →
      ∃ configuration after root,
        Configuration.build { layers with overrides := none } world store = .ok (configuration, after) ∧
          configuration.current = ⟨.ofRoot root, environment⟩ ∧
          ∀ path, after.shapeAt (.nested .plain root) path = (Node.branch document).shapeAt path) ∧
    ∀ failure, layers.loadJoined naming world.source = .error failure →
      Configuration.build { layers with overrides := none } world store = .error failure := by
  rw [Layers.loadJoined, Configuration.build, Layers.load]
  cases happlication : world.source.read layers.applicationDocument with
  | error failure => simp [Layers.loadBase, Layers.addLayer, happlication, bind, Except.bind]
  | ok application =>
      cases hmodel : world.source.read layers.modelDocument with
      | error failure => simp [Layers.loadBase, Layers.addLayer, happlication, hmodel, bind, Except.bind, pure, Except.pure]
      | ok model =>
          obtain ⟨base, hbase, hholds⟩ := Layers.holds_loadBase store happlication hmodel
          have hread := Layers.readEnvironment_eq hholds
          cases henvironment : (Document.ofText (application ++ "\n\n" ++ model)).environment with
          | error failure =>
              rw [henvironment] at hread
              simp [hbase, hread, henvironment, Except.map, bind, Except.bind]
          | ok environment =>
              rw [henvironment] at hread
              have hname : Layers.environmentDocument { layers with overrides := none } environment = naming environment :=
                (Layers.names_iff.mp (hnaming environment)).symm
              cases hlast : world.source.read (naming environment) with
              | error failure =>
                  simp [hbase, hread, henvironment, hname, hlast, Layers.addLayer, Except.map, bind, Except.bind]
              | ok last =>
                  simp only [hbase, hread, henvironment, hname, hlast, Layers.addLayer, Layers.override, Except.map, bind,
                    Except.bind, pure, Except.pure]
                  constructor
                  · intro found document hloaded
                    cases hloaded
                    exact ⟨_, _, store.size, rfl, rfl, fun path => (hholds.append last).shapeAt_eq path trivial⟩
                  · intro failure hloaded
                    cases hloaded

/-- The documents of `portWorld` are read as one text, with that for `prod` at the end. Where the document for `prod` is
called otherwise, it is not found. -/
theorem Configuration.build_joined_portWorld :
    (∃ configuration after root,
      Configuration.build { portLayers with overrides := none } portWorld .empty = .ok (configuration, after) ∧
        configuration.current = ⟨.ofRoot root, "prod"⟩ ∧
        after.shapeAt (.nested .plain root) ["server"] = some (.nested .plain ["host"]) ∧
        after.shapeAt (.nested .plain root) ["server", "host"] = some (.scalar (.text "h"))) ∧
    Configuration.build { portLayers with environmentTemplate := "tier/$\x7benv\x7d", overrides := none } portWorld .empty =
      .error (.documentNotFound "tier/prod") := by
  have happ : portWorld.source.read "app" = .ok "application:\n- env: prod\nserver:\n- port: 1\n" := by cbv
  have hempty : portWorld.source.read "model" = .ok "" := by cbv
  have hprod : portWorld.source.read ("tier-" ++ "prod" ++ "/" ++ "prod") = .ok "server:\n- host: h\n" := by cbv
  have hother : portWorld.source.read ("tier/" ++ "prod") = .error (.documentNotFound "tier/prod") := by cbv
  have henvironment : (Document.ofText ("application:\n- env: prod\nserver:\n- port: 1\n" ++ "\n\n" ++ "")).environment =
      .ok "prod" := by cbv
  have hjoined : Document.ofText ("application:\n- env: prod\nserver:\n- port: 1\n" ++ "\n\n" ++ "" ++ "\n\n" ++
      "server:\n- host: h\n") =
        [("application", .branch [("env", .text "prod")]), ("server", .branch [("host", .text "h")])] := by cbv
  constructor
  · have hnaming (environment : String) : portLayers.Names environment ("tier-" ++ environment ++ "/" ++ environment) :=
      ⟨["tier-".toList, "/".toList, []], List.cons_ne_nil _ _, by decide, by decide, by simp⟩
    have hloaded : portLayers.loadJoined (fun environment => "tier-" ++ environment ++ "/" ++ environment)
        portWorld.source =
          .ok ("prod", [("application", .branch [("env", .text "prod")]), ("server", .branch [("host", .text "h")])]) := by
      rw [Layers.loadJoined, show portLayers.applicationDocument = "app" from rfl, happ,
        show portLayers.modelDocument = "model" from rfl, hempty]
      simp only [bind, Except.bind, henvironment, hprod, hjoined, pure, Except.pure]
    obtain ⟨configuration, after, root, hbuild, hcurrent, hshape⟩ :=
      (Configuration.build_joined portLayers hnaming portWorld .empty).1 _ _ hloaded
    exact ⟨configuration, after, root, hbuild, hcurrent, (hshape _).trans rfl, (hshape _).trans rfl⟩
  · have hnaming (environment : String) :
        Layers.Names { portLayers with environmentTemplate := "tier/$\x7benv\x7d" } environment ("tier/" ++ environment) :=
      ⟨["tier/".toList, []], List.cons_ne_nil _ _, by decide, by decide, by simp⟩
    refine (Configuration.build_joined _ hnaming portWorld .empty).2 _ ?_
    rw [Layers.loadJoined, show portLayers.applicationDocument = "app" from rfl, happ,
      show portLayers.modelDocument = "model" from rfl, hempty]
    simp only [bind, Except.bind, henvironment, hother]

end LayeredConfig
