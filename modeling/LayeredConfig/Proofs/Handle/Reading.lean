import LayeredConfig.Proofs.Handle.Operation

/-!
# What reads leave as it was

A read writes to no entry but the one that it goes to, and only if it gives a value for it. What it writes has the
section that the entry had, or none if that had none. So no run of reads changes the keys of a section or the sections
under them.
-/

namespace LayeredConfig

namespace Store

/-- The keys of a section in their order, and under each the section that stands there, if one does. -/
def skeleton (store : Store) (id : SectionId) : Entries (Option SectionId) :=
  (store.entries id).mapValues Value.section?

theorem skeleton_insert {store : Store} {owner : SectionId} {key : String} {old new : Value}
    (hold : store.get? owner key = some old) (hsame : new.section? = old.section?) (id : SectionId) :
    (store.insert owner key new).skeleton id = store.skeleton id := by
  by_cases howner : owner = id
  · subst howner
    rw [skeleton, entries_insert_self (lt_size_of_get? hold), ← Entries.insert_mapValues, hsame]
    apply Entries.insert_of_get?
    rw [Entries.get?_mapValues, ← get?, hold, Option.map_some]
  · rw [skeleton, entries_insert_of_ne howner, skeleton]

end Store

variable {store : Store} {handle : Handle} {within : Option String} {key : String}

/-! ## One access -/

/-- A read leaves the store as it was, or it gives a value and puts it in the place of one of another kind, which is the
same section or no section either. -/
theorem Handle.readLeaving_cases (store : Store) (handle : Handle) (target : Kind) (within : Option String)
    (key : String) :
    (handle.readLeaving store target within key).2 = store ∨
      ∃ owner old new, handle.owner store within = .ok owner ∧ store.get? owner key = some old ∧ old.kind ≠ target ∧
        new.kind = target ∧ new.section? = old.section? ∧
        handle.readLeaving store target within key = (.ok (some new), store.insert owner key new) := by
  rw [readLeaving_eq]
  cases hread : handle.read store target within key with
  | error failure => exact .inl rfl
  | ok read =>
      obtain ⟨_ | new, after⟩ := read
      · exact .inl (read_eq_ok_none hread)
      · obtain ⟨owner, found, howner, hfinds, ⟨_, _, rfl⟩ | ⟨hkind, hconvert, rfl⟩⟩ := read_eq_ok_some_iff.mp hread
        · exact .inl rfl
        · obtain ⟨old, hold, hsection⟩ := hfinds.exists_stored
          exact .inr ⟨owner, old, new, howner, hold, hfinds.kind_eq hold ▸ hkind, Value.kind_of_convert hconvert,
            (Value.section?_of_convert hconvert).trans hsection, rfl⟩

namespace Accessor

/-- An access leaves the store as it was, or it gives an answer and writes to the entry that it goes to. Unless it puts a
value, the entry was there and has the same section afterwards, or none as before. -/
theorem perform_cases (store : Store) (handle : Handle) (within : Option String) (key : String) (accessor : Accessor) :
    (accessor.perform store handle within key).2 = store ∨
      ∃ owner new answer, handle.owner store within = .ok owner ∧
        accessor.perform store handle within key = (.ok (some answer), store.insert owner key new) ∧
        ((∃ value, accessor = .put value) ∨ ∃ old, store.get? owner key = some old ∧ new.section? = old.section?) := by
  cases accessor with
  | look => exact .inl rfl
  | read target =>
      refine (handle.readLeaving_cases store target within key).imp_right ?_
      rintro ⟨owner, old, new, howner, hold, _, _, hsection, hread⟩
      refine ⟨owner, new, .value new, howner, ?_, .inr ⟨old, hold, hsection⟩⟩
      rw [perform, hread]
      rfl
  | readText =>
      refine (handle.readLeaving_cases store (.scalar .text) within key).imp_right ?_
      rintro ⟨owner, old, new, howner, hold, _, hkind, hsection, hread⟩
      obtain ⟨text, rfl⟩ := Value.eq_text_of_kind hkind
      refine ⟨owner, _, .text text, howner, ?_, .inr ⟨old, hold, hsection⟩⟩
      rw [perform, hread]
      rfl
  | readNested =>
      refine (handle.readLeaving_cases store (.nested .handedOut) within key).imp_right ?_
      rintro ⟨owner, old, new, howner, hold, _, hkind, hsection, hread⟩
      cases new with
      | scalar content => cases hkind
      | nested role id =>
          refine ⟨owner, _, .handle { handle with scope := id }, howner, ?_, .inr ⟨old, hold, hsection⟩⟩
          rw [perform, hread]
          rfl
  | put value =>
      rw [perform, Handle.putLeaving]
      cases howner : handle.owner store within with
      | error failure => exact .inl rfl
      | ok owner => exact .inr ⟨owner, value, .done, rfl, rfl, .inl ⟨value, rfl⟩⟩

theorem get?_perform (accessor : Accessor) {id : SectionId} {name : String}
    (h : ¬ (handle.owner store within = .ok id ∧ key = name)) :
    (accessor.perform store handle within key).2.get? id name = store.get? id name := by
  rcases accessor.perform_cases store handle within key with hsame | ⟨owner, new, _, howner, hperform, _⟩
  · rw [hsame]
  · rw [hperform]
    apply Store.get?_insert_of_ne
    rintro ⟨rfl, hname⟩
    exact h ⟨howner, hname⟩

end Accessor

/-! ## Operations that read -/

namespace Operation

/-- The operation only reads, or it is a put that fails. -/
def Reads (store : Store) (handle : Handle) : Operation → Prop
  | .entry within key (.put value) => ∃ failure, handle.put store within key value = .error failure
  | .entry _ _ _ | .resolve _ | .project => True
  | .override _ _ | .merge _ => False

/-- The operation resolves or projects, or goes to an entry with a text or a section, if to any, and looks at it or reads it
as a text. -/
def Glances (store : Store) (handle : Handle) : Operation → Prop
  | .entry within key .look | .entry within key .readText =>
    ∀ owner value, handle.owner store within = .ok owner → store.get? owner key = some value →
      value.kind = .scalar .text ∨ ∃ role, value.kind = .nested role
  | .resolve _ | .project => True
  | _ => False

/-- Each operation is allowed in the store in which it is performed. -/
def Each (allowed : Store → Handle → Operation → Prop) (store : Store) : List (Handle × Operation) → Prop
  | [] => True
  | (handle, operation) :: rest =>
    allowed store handle operation ∧ Each allowed (operation.perform store handle).2 rest

variable {operation : Operation}

/-- An operation that fails, or finds nothing, changes nothing. -/
theorem perform_unchanged (h : ∀ answer, (operation.perform store handle).1 ≠ .ok (some answer)) :
    (operation.perform store handle).2 = store := by
  cases operation with
  | entry within key accessor =>
      rcases accessor.perform_cases store handle within key with hsame | ⟨_, _, answer, _, hperform, _⟩
      · exact hsame
      · exact absurd (congrArg Prod.fst hperform) (h answer)
  | resolve text => rfl
  | project => rfl
  | override overrides vars => exact absurd rfl (h _)
  | merge text => exact absurd rfl (h _)

theorem skeleton_perform (h : operation.Reads store handle) (id : SectionId) :
    (operation.perform store handle).2.skeleton id = store.skeleton id := by
  cases operation with
  | entry within key accessor =>
      rcases accessor.perform_cases store handle within key with hsame | ⟨owner, new, _, howner, hperform, hwrites⟩
      · rw [perform, hsame]
      · rcases hwrites with ⟨value, rfl⟩ | ⟨old, hold, hsection⟩
        · obtain ⟨failure, hfails⟩ := h
          rw [Handle.put, howner] at hfails
          cases hfails
        · rw [perform, hperform]
          exact Store.skeleton_insert hold hsection id
  | resolve text => rfl
  | project => rfl
  | override overrides vars => exact h.elim
  | merge text => exact h.elim

theorem perform_of_glances (h : operation.Glances store handle) : (operation.perform store handle).2 = store := by
  cases operation with
  | entry within key accessor =>
      cases accessor with
      | look => rfl
      | readText =>
          rcases handle.readLeaving_cases store (.scalar .text) within key with
            hsame | ⟨owner, old, new, howner, hold, hother, hkind, hsection, _⟩
          · exact hsame
          · obtain ⟨text, rfl⟩ := Value.eq_text_of_kind hkind
            rcases h owner old howner hold with htext | ⟨role, hrole⟩
            · exact absurd htext hother
            · cases old with
              | scalar content => cases hrole
              | nested _ id => cases hsection
      | _ => exact h.elim
  | resolve text => rfl
  | project => rfl
  | override overrides vars => exact h.elim
  | merge text => exact h.elim

/-! ## Runs -/

theorem skeleton_run {steps : List (Handle × Operation)} (h : Each Reads store steps) (id : SectionId) :
    (run store steps).2.skeleton id = store.skeleton id := by
  induction steps generalizing store with
  | nil => rfl
  | cons step rest ih =>
      obtain ⟨handle, operation⟩ := step
      exact (ih h.2).trans (skeleton_perform h.1 id)

theorem run_of_glances {steps : List (Handle × Operation)} (h : Each Glances store steps) :
    (run store steps).2 = store := by
  induction steps generalizing store with
  | nil => rfl
  | cons step rest ih =>
      obtain ⟨handle, operation⟩ := step
      exact (ih h.2).trans (perform_of_glances h.1)

/-- Reads keep the keys of every section in their order, the sections that stand under them, and no section where none
stood. Each of them writes to the entry that it goes to or nowhere, and nowhere if it fails or finds nothing. Operations
that only look, resolve and project, and read texts where texts or sections stand, change nothing at all. -/
theorem reads_keep (store : Store) :
    (∀ steps, Each Reads store steps → ∀ id, (run store steps).2.skeleton id = store.skeleton id) ∧
      (∀ (operation : Operation) handle, (∃ failure, (operation.perform store handle).1 = .error failure) ∨
        (operation.perform store handle).1 = .ok none → (operation.perform store handle).2 = store) ∧
      (∀ (accessor : Accessor) handle within key id name, ¬ (handle.owner store within = .ok id ∧ key = name) →
        ((Operation.entry within key accessor).perform store handle).2.get? id name = store.get? id name) ∧
      ∀ steps, Each Glances store steps → (run store steps).2 = store := by
  refine ⟨fun steps => skeleton_run, fun operation handle hnothing => ?_, fun accessor handle within key id name => ?_,
    fun steps => run_of_glances⟩
  · apply perform_unchanged
    intro answer hanswer
    rcases hnothing with ⟨failure, hfails⟩ | hnone
    · cases hanswer.symm.trans hfails
    · cases hanswer.symm.trans hnone
  · exact accessor.get?_perform

/-- A section with a reference in one of its entries and a section in another. -/
def portStore : Store :=
  ⟨#[[("a", .text "80"), ("port", .text "$\x7ba\x7d80"), ("db", .nested .plain 1)], [("c", .text "5")],
    [("s", .nested .plain 0)]]⟩

/-- A put fails, a number and a section are read and kept, and a read fails. Texts are read, and nothing is kept. -/
theorem reads_keep_portStore :
    let root := Handle.ofRoot 2
    let reads := [(root, entry (some "x") "port" (.put (.text "81"))), (root, entry (some "s") "port" (.read (.scalar .int))),
      (root, entry (some "s") "db" .readNested), (root, entry (some "s") "db" (.read (.scalar .int)))]
    let glances := [(root, entry (some "s") "port" .readText), (root, .project)]
    Each Reads portStore reads ∧ (run portStore reads).2.get? 0 "port" = some (.scalar (.int 8080)) ∧
      (∀ id, (run portStore reads).2.skeleton id = portStore.skeleton id) ∧
      Each Glances portStore glances ∧ (run portStore glances).2 = portStore := by
  intro root reads glances
  have hreads : Each Reads portStore reads :=
    ⟨⟨.sectionNotFound "x", rfl⟩, trivial, trivial, trivial, trivial⟩
  have hglances : Each Glances portStore glances := by
    refine ⟨fun owner value howner hvalue => .inl ?_, trivial, trivial⟩
    have hsection : root.owner portStore (some "s") = .ok 0 := rfl
    cases hsection.symm.trans howner
    have htext : portStore.get? 0 "port" = some (.text "$\x7ba\x7d80") := rfl
    cases htext.symm.trans hvalue
    rfl
  obtain ⟨hskeleton, _, _, hsame⟩ := reads_keep portStore
  exact ⟨hreads, by decide +kernel, hskeleton reads hreads, hglances, hsame glances hglances⟩

end Operation

end LayeredConfig
