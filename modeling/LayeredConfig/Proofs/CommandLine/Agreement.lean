import LayeredConfig.CommandLine.Run
import LayeredConfig.Proofs.Layers.Fresh
import LayeredConfig.Proofs.Projection.JsonText

/-!
# Getting what is dumped

Getting a value and dumping the configuration come to it in different ways: the one reads an entry as a kind, the other
walks through all sections. What is printed for an entry, or why nothing is, can be told from the document that is dumped.
This holds with any tools whose texts tell what they are the texts of.
-/

namespace LayeredConfig

namespace CommandLine

/-- The document of the configuration that a run is about. -/
def Invocation.document (disk : Disk) (vars : List (String × String)) (invocation : Invocation) :
    Except Failure Projection := do
  let (snapshot, store) ← invocation.layers.load ⟨.ofDirectory disk invocation.directory, vars⟩ .empty
  snapshot.handle.projection store

namespace Tools

/-- What is relied on where the tools write a format: documents are told by their texts, up to the order of fields, every
list of texts can be written, and lists are told by their texts. -/
structure Lawful (tools : Tools) (format : OutputFormat) : Prop where
  same_of_write : ∀ {document other : Projection} {text : String}, tools.write format document = .ok text →
    tools.write format other = .ok text → document.Same other
  exists_writeList : ∀ items, ∃ text, tools.writeList items = .ok text
  writeList_injective : Function.Injective tools.writeList

/-- The output is what is printed when the document is dumped. -/
def Dumps (tools : Tools) (format : OutputFormat) (document : Projection) (output : String) : Prop :=
  ∃ text, tools.write format document = .ok text ∧ output = text ++ format.ending

/-- What a run ends with that prints a text as a value of a kind. -/
def converted (tools : Tools) (key text : String) : ScalarKind → Outcome
  | .text => .success (text ++ "\n")
  | .int =>
    match Decimal.int32? text.toList with
    | some n => .success (Decimal.render n.toInt ++ "\n")
    | none => .failure (Failure.notConvertible key .int text).describe
  | .long =>
    match Decimal.int64? text.toList with
    | some n => .success (Decimal.render n.toInt ++ "\n")
    | none => .failure (Failure.notConvertible key .long text).describe
  | .bool => .success ((if text.toList.map Char.toLower == "true".toList then "true" else "false") ++ "\n")
  | .array => .ofWritten "\n" (tools.writeList (splitItems text))

end Tools

/-- What a document has for a section and a key of it. -/
inductive Finding where
  | noSection
  | noEntry
  | nested
  | text (text : String)

/-- The document has this for the section and the key. -/
def Finding.Stands (document : Projection) (within key : String) : Finding → Prop
  | .noSection => document.follow [within] = none
  | .noEntry => (∃ fields, document.follow [within] = some (.object fields)) ∧ document.follow [within, key] = none
  | .nested => ∃ fields, document.follow [within, key] = some (.object fields)
  | .text found => document.follow [within, key] = some (.text found)

/-- What a run ends with that gets what was found as a value of a kind. -/
def Finding.outcome (tools : Tools) (within key : String) (kind : ScalarKind) : Finding → Outcome
  | .noSection => .failure (Failure.sectionNotFound within).describe
  | .noEntry => .failure ("no value at " ++ within ++ "." ++ key)
  | .nested => .failure (Failure.incompatibleValue key (.scalar kind) (.nested .plain)).describe
  | .text found => tools.converted key found kind

/-- An outcome of getting a value as a kind agrees with what the document has for the section and the key. -/
structure Agrees (tools : Tools) (document : Projection) (within key : String) (kind : ScalarKind) (outcome : Outcome) :
    Prop where
  text_iff : kind = .text → ∀ found, outcome = .success (found ++ "\n") ↔ document.follow [within, key] = some (.text found)
  list_iff : kind = .array → ∀ {items text}, tools.writeList items = .ok text →
    (outcome = .success (text ++ "\n") ↔
      ∃ found, document.follow [within, key] = some (.text found) ∧ splitItems found = items)
  eq_converted : ∀ {found}, document.follow [within, key] = some (.text found) → outcome = tools.converted key found kind
  sectionNotFound_iff :
    outcome = .failure (Failure.sectionNotFound within).describe ↔ document.follow [within] = none
  noValue_iff : outcome = .failure ("no value at " ++ within ++ "." ++ key) ↔
    (∃ fields, document.follow [within] = some (.object fields)) ∧ document.follow [within, key] = none
  incompatible_iff : outcome = .failure (Failure.incompatibleValue key (.scalar kind) (.nested .plain)).describe ↔
    ∃ fields, document.follow [within, key] = some (.object fields)
  exists_finding : ∃ finding : Finding, finding.Stands document within key ∧ outcome = finding.outcome tools within key kind

theorem Finding.Stands.unique {document : Projection} {within key : String} {finding other : Finding}
    (h : finding.Stands document within key) (hother : other.Stands document within key) : finding = other := by
  have hnone (hsection : document.follow [within] = none) : document.follow [within, key] = none := by
    rw [Projection.follow_cons, hsection, Option.bind_none]
  -- Two that are not the same would have one place of the document both empty and not, or of two shapes.
  by_contra hne
  cases finding <;> cases other <;> simp_all [Stands]

/-- The same stands in a document with other orders of fields. -/
theorem Finding.Stands.of_same {document other : Projection} {within key : String} {finding : Finding}
    (h : finding.Stands document within key) (hsame : document.Same other) : finding.Stands other within key := by
  cases finding with
  | noSection => exact hsame.follow_eq_none h
  | noEntry => exact ⟨hsame.follow_object h.1, hsame.follow_eq_none h.2⟩
  | nested => exact hsame.follow_object h
  | text found => exact hsame.follow_text h

/-! ## Telling outcomes apart -/

/-- The first letter of the description of a failure. -/
def Outcome.initial : Outcome → Option Char
  | .failure description => description.toList.head?
  | _ => none

@[simp] theorem initial_sectionNotFound (name : String) :
    (Outcome.failure (Failure.sectionNotFound name).describe).initial = some 'S' := by
  simp [Outcome.initial, Failure.describe, Text.tagged]

@[simp] theorem initial_incompatibleValue (key : String) (expected found : Kind) :
    (Outcome.failure (Failure.incompatibleValue key expected found).describe).initial = some 'I' := by
  simp [Outcome.initial, Failure.describe, Text.record]

@[simp] theorem initial_noValue (within key : String) :
    (Outcome.failure ("no value at " ++ within ++ "." ++ key)).initial = some 'n' := by
  simp [Outcome.initial]

section

variable {tools : Tools} {format : OutputFormat} {document : Projection} {within key : String} {kind : ScalarKind}
  {finding other : Finding}

theorem initial_converted (htools : tools.Lawful format) (key text : String) (kind : ScalarKind) :
    (tools.converted key text kind).initial = none ∨ (tools.converted key text kind).initial = some 'T' := by
  have hfailure (kind : ScalarKind) : (Outcome.failure (Failure.notConvertible key kind text).describe).initial = some 'T' := by
    simp [Outcome.initial, Failure.describe, Text.record]
  cases kind with
  | text => exact .inl rfl
  | bool => exact .inl rfl
  | array =>
      obtain ⟨written, hwritten⟩ := htools.exists_writeList (splitItems text)
      rw [Tools.converted, hwritten]
      exact .inl rfl
  | int =>
      rw [Tools.converted]
      split
      · exact .inl rfl
      · exact .inr (hfailure .int)
  | long =>
      rw [Tools.converted]
      split
      · exact .inl rfl
      · exact .inr (hfailure .long)

namespace Finding

/-- The outcomes of different findings are different, except that a text may be printed as another one is. -/
theorem eq_of_outcome_eq (htools : tools.Lawful format) (hother : ∀ found, other ≠ .text found)
    (h : finding.outcome tools within key kind = other.outcome tools within key kind) : finding = other := by
  by_contra hne
  -- What is reported begins with another letter for each way to fail.
  replace h := congrArg Outcome.initial h
  cases finding with
  | text found =>
      rcases initial_converted htools key found kind with htext | htext <;>
        cases other <;> simp_all [outcome]
  | _ => cases other <;> simp_all [outcome]

theorem Stands.outcome_iff (htools : tools.Lawful format) (h : finding.Stands document within key) (other : Finding)
    (hother : ∀ found, other ≠ .text found) :
    finding.outcome tools within key kind = other.outcome tools within key kind ↔ other.Stands document within key := by
  constructor
  · intro heq
    rwa [← eq_of_outcome_eq htools hother heq]
  · intro hstands
    rw [h.unique hstands]

/-- What succeeds prints a text that was found. -/
theorem exists_text_of_success {output : String} (h : finding.outcome tools within key kind = .success output) :
    ∃ found, finding = .text found := by
  cases finding with
  | text found => exact ⟨found, rfl⟩
  | _ => cases h

theorem Stands.text_iff (h : finding.Stands document within key) (found : String) :
    finding.outcome tools within key .text = .success (found ++ "\n") ↔
      document.follow [within, key] = some (.text found) := by
  constructor
  · intro heq
    obtain ⟨text, rfl⟩ := exists_text_of_success heq
    obtain rfl : text = found := by simpa [outcome, Tools.converted] using heq
    exact h
  · intro hfound
    obtain rfl : finding = .text found := h.unique hfound
    rfl

theorem Stands.list_iff (htools : tools.Lawful format) (h : finding.Stands document within key) {items : List String}
    {text : String} (htext : tools.writeList items = .ok text) :
    finding.outcome tools within key .array = .success (text ++ "\n") ↔
      ∃ found, document.follow [within, key] = some (.text found) ∧ splitItems found = items := by
  constructor
  · intro heq
    obtain ⟨found, rfl⟩ := exists_text_of_success heq
    obtain ⟨written, hwritten⟩ := htools.exists_writeList (splitItems found)
    rw [outcome, Tools.converted, hwritten] at heq
    obtain rfl : written = text := by simpa [Outcome.ofWritten] using heq
    exact ⟨found, h, htools.writeList_injective (hwritten.trans htext.symm)⟩
  · rintro ⟨found, hfound, rfl⟩
    obtain rfl : finding = .text found := h.unique hfound
    rw [outcome, Tools.converted, htext]
    rfl

theorem Stands.agrees (htools : tools.Lawful format) (h : finding.Stands document within key) :
    Agrees tools document within key kind (finding.outcome tools within key kind) where
  text_iff := by
    rintro rfl found
    exact h.text_iff found
  list_iff := by
    rintro rfl items text htext
    exact h.list_iff htools htext
  eq_converted := by
    intro found hfound
    obtain rfl : finding = .text found := h.unique hfound
    rfl
  sectionNotFound_iff := h.outcome_iff htools .noSection (by simp)
  noValue_iff := h.outcome_iff htools .noEntry (by simp)
  incompatible_iff := h.outcome_iff htools .nested (by simp)
  exists_finding := ⟨finding, h, rfl⟩

end Finding

end

/-! ## Running -/

section

variable (tools : Tools)

theorem execute_dump (store : Store) (snapshot : Snapshot) (format : OutputFormat) :
    tools.execute store snapshot (.dump format) =
      (snapshot.handle.projection store).map fun document => .ofWritten format.ending (tools.write format document) := by
  rw [Tools.execute]
  cases snapshot.handle.projection store <;> rfl

theorem execute_get (store : Store) (snapshot : Snapshot) (within key : String) (kind : ScalarKind) :
    tools.execute store snapshot (.get within key kind) =
      ((snapshot.handle.read store (.scalar kind) (some within) key).map Prod.fst).map fun value? =>
        match value?.bind tools.writeValue? with
        | some written => .ofWritten "\n" written
        | none => .failure ("no value at " ++ within ++ "." ++ key) := by
  rw [Tools.execute]
  rcases snapshot.handle.read store (.scalar kind) (some within) key with failure | ⟨value?, after⟩
  · rfl
  · simp only [bind, Except.bind, Except.map]
    cases value?.bind tools.writeValue? <;> rfl

theorem ofResult_execute_text {store : Store} {snapshot : Snapshot} {within key text : String} (kind : ScalarKind)
    (h : snapshot.handle.lookup store (some within) key = .ok (some (.text text))) :
    .ofResult (tools.execute store snapshot (.get within key kind)) = tools.converted key text kind := by
  rw [execute_get, Handle.read_fst_of_text h]
  cases kind with
  | text => rfl
  | array => rfl
  | bool => rfl
  | int =>
      rw [Tools.converted, Scalar.ofText?]
      cases Decimal.int32? text.toList <;> rfl
  | long =>
      rw [Tools.converted, Scalar.ofText?]
      cases Decimal.int64? text.toList <;> rfl

end

section

variable {tools : Tools} {store : Store} {snapshot : Snapshot} {root : SectionId} {fields : List (String × Projection)}

/-- From a root as a load leaves it, a value is got as it stands in the document. -/
theorem exists_finding (hfresh : store.Fresh root) (hhandle : snapshot.handle = .ofRoot root)
    (hfields : store.projectWithin root [] root = .ok fields) (within key : String) (kind : ScalarKind) :
    ∃ finding : Finding, finding.Stands (.object fields) within key ∧
      .ofResult (tools.execute store snapshot (.get within key kind)) = finding.outcome tools within key kind := by
  obtain ⟨_, hmatch⟩ := Store.projectWithin_eq_ok_iff.mp hfields
  cases hchild : store.child? root within with
  | none =>
      refine ⟨.noSection, ?_, ?_⟩
      · -- A scalar in the root would be in the document and still be no section to look into.
        have hfield := hmatch.get?_eq_none (hfresh.get?_eq_none hchild)
        simp [Finding.Stands, Projection.follow, hfield]
      · have howner : snapshot.handle.owner store (some within) = .error (.sectionNotFound within) := by
          rw [hhandle]
          exact Handle.owner_of_child?_eq_none hchild
        rw [execute_get, Handle.read_fst, Handle.lookup_of_owner_error howner]
        rfl
  | some child =>
      have howner : snapshot.handle.owner store (some within) = .ok child := by
        rw [hhandle]
        exact Handle.owner_eq_ok_iff.mpr hchild
      have hpath : store.sectionAt (.nested .plain root) [within] = some child := by
        rw [← List.nil_append [within], Store.sectionAt_concat]
        exact hchild
      obtain ⟨inner, hinner, hproject⟩ := Store.follow_of_projectWithin hfields hpath
      obtain ⟨_, hentries⟩ := Store.projectWithin_eq_ok_iff.mp hproject
      have hpair : (Projection.object fields).follow [within, key] = Entries.get? inner key := by
        rw [Projection.follow_cons, hinner]
        simp [Projection.follow]
      cases hvalue : store.get? child key with
      | none =>
          refine ⟨.noEntry, ⟨⟨inner, hinner⟩, hpair.trans (hentries.get?_eq_none hvalue)⟩, ?_⟩
          rw [execute_get, Handle.read_fst, Handle.lookup_of_none howner hvalue]
          rfl
      | some value =>
          obtain ⟨field, hfield, hshown⟩ := hentries.exists_of_get? hvalue
          cases hfresh.raw_of_get? (Nat.le_of_lt (hfresh.lt_of_child? (Nat.le_refl root) hchild)) hvalue with
          | text raw =>
              obtain ⟨text, htext, rfl⟩ := map_eq_ok_iff.mp hshown
              refine ⟨.text text, hpair.trans hfield, ofResult_execute_text tools kind ?_⟩
              rw [Handle.lookup_of_text howner hvalue, hhandle]
              simp only [Handle.ofRoot, htext, Except.map]
          | nested _ =>
              obtain ⟨below, _, rfl⟩ := map_eq_ok_iff.mp hshown
              refine ⟨.nested, ⟨below, hpair.trans hfield⟩, ?_⟩
              rw [execute_get, Handle.read_fst, Handle.lookup_of_kind_ne howner hvalue (by simp [Value.kind])]
              rfl

end

section

variable {tools : Tools} {disk : Disk} {vars : List (String × String)} {arguments : List String} {invocation : Invocation}

theorem run_eq {command : Command} (h : tools.parse arguments = .invoked { invocation with command }) :
    tools.run disk vars arguments =
      .ofResult (invocation.layers.load ⟨.ofDirectory disk invocation.directory, vars⟩ .empty >>= fun loaded =>
        tools.execute loaded.2 loaded.1 command) := by
  rw [Tools.run, h]
  rfl

theorem run_dump {format : OutputFormat} (h : tools.parse arguments = .invoked { invocation with command := .dump format })
    (hcode : (tools.run disk vars arguments).code = 0) :
    ∃ document, invocation.document disk vars = .ok document ∧
      tools.Dumps format document (tools.run disk vars arguments).output := by
  rw [run_eq h] at hcode ⊢
  rw [Invocation.document]
  cases hload : invocation.layers.load ⟨.ofDirectory disk invocation.directory, vars⟩ .empty with
  | error failure =>
      rw [hload] at hcode
      cases hcode
  | ok loaded =>
      obtain ⟨snapshot, store⟩ := loaded
      simp only [hload, bind, Except.bind, execute_dump] at hcode ⊢
      cases hprojection : snapshot.handle.projection store with
      | error failure =>
          rw [hprojection] at hcode
          cases hcode
      | ok document =>
          rw [hprojection] at hcode
          refine ⟨document, rfl, ?_⟩
          cases hwritten : tools.write format document with
          | error description =>
              rw [Except.map, hwritten] at hcode
              cases hcode
          | ok text => exact ⟨text, hwritten, by rw [Except.map, hwritten]; rfl⟩

theorem run_get {document : Projection} {within key : String} {kind : ScalarKind}
    (h : tools.parse arguments = .invoked { invocation with command := .get within key kind })
    (hdocument : invocation.document disk vars = .ok document) :
    ∃ finding : Finding, finding.Stands document within key ∧
      tools.run disk vars arguments = finding.outcome tools within key kind := by
  obtain ⟨⟨snapshot, store⟩, hload, hprojection⟩ := bind_eq_ok_iff.mp hdocument
  obtain ⟨fields, hfields, rfl⟩ := map_eq_ok_iff.mp hprojection
  rw [run_eq h, hload]
  have hleaving := Layers.load_eq_ok_iff.mp hload
  have hhandle := Layers.handle_of_loadLeaving (congrArg Prod.fst hleaving)
  have hfresh := Layers.fresh_loadLeaving invocation.layers ⟨.ofDirectory disk invocation.directory, vars⟩ .empty
  rw [hleaving] at hfresh
  rw [hhandle] at hfields
  exact exists_finding hfresh hhandle hfields within key kind

theorem Tools.Dumps.same {format : OutputFormat} {document other : Projection} {output : String}
    (htools : tools.Lawful format) (h : tools.Dumps format document output) (hother : tools.Dumps format other output) :
    document.Same other := by
  obtain ⟨text, htext, rfl⟩ := h
  obtain ⟨written, hwritten, heq⟩ := hother
  obtain rfl := String.append_left_inj format.ending |>.mp heq
  exact htools.same_of_write htext hwritten

end

theorem lawful_ofProgram : Tools.ofProgram.Lawful .json where
  same_of_write h hother := Projection.same_of_jsonText_eq (Except.ok.inj (h.trans hother.symm))
  exists_writeList items := ⟨jsonList items, rfl⟩
  writeList_injective _ _ h := JsonText.jsonList_injective (Except.ok.inj h)

/-- Files for an application with a server. -/
def serverDisk : Disk where
  read path :=
    match Entries.get? [("config/app.conf", "application:\n- env: dev\nserver:\n- port: 080\n- tls:\n  - on: yes\n"),
      ("config/model.conf", ""), ("config/env.dev.conf", "")] path with
    | some text => .ok text.toUTF8
    | none => .error .notFound

/-- A run on the files in `config`, without overrides. -/
def plainInvocation : Invocation := ⟨"config", none, .environment⟩

theorem document_serverDisk : plainInvocation.document serverDisk [] =
    .ok (.object [("application", .object [("env", .text "dev")]),
      ("server", .object [("port", .text "080"), ("tls", .object [("on", .text "yes")])])]) := by
  have hload : (plainInvocation.layers.load ⟨.ofDirectory serverDisk "config", []⟩ .empty).map
      (fun loaded => (loaded.1, loaded.2.cells)) = .ok (⟨.ofRoot 0, "dev"⟩, #[[("application", .nested .plain 1),
        ("server", .nested .plain 3)], [("env", .text "dev")], [("on", .text "yes")],
        [("port", .text "080"), ("tls", .nested .plain 2)]]) := by decide +kernel
  obtain ⟨⟨snapshot, ⟨cells⟩⟩, hload, heq⟩ := map_eq_ok_iff.mp hload
  cases heq
  rw [Invocation.document, show plainInvocation.directory = "config" from rfl, hload]
  cbv

/-- What is dumped for `serverDisk`, in another order of fields. -/
def serverDocument : Projection :=
  .object [("server", .object [("port", .text "080"), ("tls", .object [("on", .text "yes")])]),
    ("application", .object [("env", .text "dev")])]

end CommandLine

end LayeredConfig
