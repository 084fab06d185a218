import LayeredConfig.Handle

/-!
# What an access does

A lookup that gives a value, and a read that does, told by the entry that they come to: what the entry holds,
what is given for it, and what the entry holds afterwards.
-/

namespace LayeredConfig

theorem Value.eq_text_of_kind {value : Value} (h : value.kind = .scalar .text) :
    ∃ text, value = .text text := by
  cases value with
  | nested role id => cases h
  | scalar content =>
      cases content with
      | text text => exact ⟨text, rfl⟩
      | _ => cases h

theorem Value.section?_of_convert {key : String} {target : Kind} {value converted : Value}
    (h : value.convert key target = .ok converted) : converted.section? = value.section? := by
  unfold Value.convert at h
  split at h
  · split at h
    · cases h
      rfl
    · cases h
  · cases h
    rfl
  · cases h

namespace Handle

/-- The section of a handle as a value. -/
def tree (handle : Handle) : Value := .nested .plain handle.scope

variable {store after : Store} {handle : Handle} {within : Option String} {key : String}
  {owner : SectionId}

/-! ## Lookups -/

theorem owner_eq_ok_iff {name : String} :
    handle.owner store (some name) = .ok owner ↔ store.child? handle.scope name = some owner := by
  rw [Handle.owner]
  cases store.child? handle.scope name <;> simp

theorem owner_of_child?_eq_none {name : String} (h : store.child? handle.scope name = none) :
    handle.owner store (some name) = .error (.sectionNotFound name) := by
  rw [Handle.owner, h]

/-- The value under `key` in `owner`, with its references resolved if it is a text. -/
inductive Finds (store : Store) (handle : Handle) (owner : SectionId) (key : String) : Value → Prop where
  | resolved {raw text} : store.get? owner key = some (.text raw) →
      store.resolve handle.root owner raw = .ok text → Finds store handle owner key (.text text)
  | held {value} : store.get? owner key = some value → value.kind ≠ .scalar .text →
      Finds store handle owner key value

theorem lookup_of_text {raw : String} (howner : handle.owner store within = .ok owner)
    (hraw : store.get? owner key = some (.text raw)) :
    handle.lookup store within key =
      (store.resolve handle.root owner raw).map fun text => some (.text text) := by
  unfold lookup
  rw [howner]
  simp only [bind, Except.bind, hraw, Value.text]
  cases store.resolve handle.root owner raw with
  | error failure => rfl
  | ok text => rfl

theorem lookup_of_kind_ne {value : Value} (howner : handle.owner store within = .ok owner)
    (hvalue : store.get? owner key = some value) (hkind : value.kind ≠ .scalar .text) :
    handle.lookup store within key = .ok (some value) := by
  unfold lookup
  rw [howner]
  simp only [bind, Except.bind, hvalue]
  split
  · rename_i hraw
    cases hraw
    exact absurd rfl hkind
  · rfl

theorem lookup_of_owner_error {failure : Failure} (howner : handle.owner store within = .error failure) :
    handle.lookup store within key = .error failure := by
  rw [lookup, howner]
  simp only [bind, Except.bind]

theorem lookup_of_none (howner : handle.owner store within = .ok owner) (hnone : store.get? owner key = none) :
    handle.lookup store within key = .ok none := by
  rw [lookup, howner]
  simp only [bind, Except.bind, hnone]
  rfl

theorem lookup_eq_ok_some_iff {found : Value} :
    handle.lookup store within key = .ok (some found) ↔
      ∃ owner, handle.owner store within = .ok owner ∧ Finds store handle owner key found := by
  constructor
  · intro h
    obtain ⟨owner, howner, hlookup⟩ := bind_eq_ok_iff.mp h
    refine ⟨owner, howner, ?_⟩
    cases hstored : store.get? owner key with
    | none =>
        simp only [hstored] at hlookup
        cases hlookup
    | some stored =>
        by_cases hkind : stored.kind = .scalar .text
        · obtain ⟨raw, rfl⟩ := Value.eq_text_of_kind hkind
          rw [lookup_of_text howner hstored] at h
          cases hresolve : store.resolve handle.root owner raw with
          | error failure =>
              rw [hresolve] at h
              cases h
          | ok text =>
              rw [hresolve] at h
              cases h
              exact .resolved hstored hresolve
        · rw [lookup_of_kind_ne howner hstored hkind] at h
          cases h
          exact .held hstored hkind
  · rintro ⟨owner, howner, hfinds⟩
    cases hfinds with
    | resolved hraw hresolve =>
        rw [lookup_of_text howner hraw, hresolve]
        rfl
    | held hvalue hkind => exact lookup_of_kind_ne howner hvalue hkind

theorem Finds.exists_stored {found : Value} (h : Finds store handle owner key found) :
    ∃ stored, store.get? owner key = some stored ∧ found.section? = stored.section? := by
  cases h with
  | resolved hraw _ => exact ⟨_, hraw, rfl⟩
  | held hvalue _ => exact ⟨_, hvalue, rfl⟩

theorem Finds.kind_eq {stored found : Value} (h : Finds store handle owner key found)
    (hstored : store.get? owner key = some stored) : found.kind = stored.kind := by
  cases h with
  | resolved hraw _ =>
      cases hstored.symm.trans hraw
      rfl
  | held hvalue _ =>
      cases hstored.symm.trans hvalue
      rfl

/-! ## Reads -/

/-- A read that gives a value has found one of its kind, or has put what it gives in the place of another. -/
theorem read_eq_ok_some_iff {target : Kind} {value : Value} :
    handle.read store target within key = .ok (some value, after) ↔
      ∃ owner found, handle.owner store within = .ok owner ∧ Finds store handle owner key found ∧
        (found.kind = target ∧ value = found ∧ after = store ∨
          found.kind ≠ target ∧ found.convert key target = .ok value ∧
            after = store.insert owner key value) := by
  constructor
  · intro h
    obtain ⟨found?, hlookup, h⟩ := bind_eq_ok_iff.mp h
    cases found? with
    | none => cases h
    | some found =>
        obtain ⟨owner, howner, hfinds⟩ := lookup_eq_ok_some_iff.mp hlookup
        refine ⟨owner, found, howner, hfinds, ?_⟩
        by_cases hkind : found.kind = target
        · simp only [hkind, if_true] at h
          cases h
          exact .inl ⟨hkind, rfl, rfl⟩
        · simp only [hkind, if_false] at h
          obtain ⟨converted, hconvert, h⟩ := bind_eq_ok_iff.mp h
          obtain ⟨written, hput, h⟩ := bind_eq_ok_iff.mp h
          obtain ⟨place, hplace, hput⟩ := bind_eq_ok_iff.mp hput
          cases h
          cases hput
          cases howner.symm.trans hplace
          exact .inr ⟨hkind, hconvert, rfl⟩
  · rintro ⟨owner, found, howner, hfinds, hresult⟩
    refine bind_eq_ok_iff.mpr ⟨some found, lookup_eq_ok_some_iff.mpr ⟨owner, howner, hfinds⟩, ?_⟩
    rcases hresult with ⟨hkind, rfl, rfl⟩ | ⟨hkind, hconvert, rfl⟩
    · exact if_pos hkind
    · have hput : handle.put store within key value = .ok (store.insert owner key value) :=
        bind_eq_ok_iff.mpr ⟨owner, howner, rfl⟩
      simp only [hkind, if_false]
      exact bind_eq_ok_iff.mpr ⟨value, hconvert, bind_eq_ok_iff.mpr ⟨_, hput, rfl⟩⟩

/-- What a read gives depends on nothing but what it finds. -/
theorem read_fst (store : Store) (handle : Handle) (target : Kind) (within : Option String) (key : String) :
    (handle.read store target within key).map Prod.fst = handle.lookup store within key >>= fun found? =>
      match found? with
      | none => .ok none
      | some found => if found.kind = target then .ok (some found) else (found.convert key target).map some := by
  rw [read]
  cases hlookup : handle.lookup store within key with
  | error failure => rfl
  | ok found? =>
      cases found? with
      | none => rfl
      | some found =>
          obtain ⟨owner, howner, _⟩ := lookup_eq_ok_some_iff.mp hlookup
          simp only [bind, Except.bind, put, howner]
          split
          · rfl
          · cases found.convert key target <;> rfl

/-- A text is read as the scalar that it denotes. -/
theorem read_fst_of_text {kind : ScalarKind} {text : String} (h : handle.lookup store within key = .ok (some (.text text))) :
    (handle.read store (.scalar kind) within key).map Prod.fst =
      match Scalar.ofText? kind text with
      | some content => .ok (some (.scalar content))
      | none => .error (.notConvertible key kind text) := by
  rw [read_fst, h]
  by_cases hkind : kind = .text
  · subst hkind
    rfl
  · have hne : (Value.text text).kind ≠ .scalar kind := fun heq => hkind (Kind.scalar.inj heq).symm
    simp only [bind, Except.bind, if_neg hne]
    change (match Scalar.ofText? kind text with
      | some converted => Except.ok (Value.scalar converted)
      | none => .error (Failure.notConvertible key kind text)).map some = _
    cases Scalar.ofText? kind text <;> rfl

theorem kind_of_read {target : Kind} {value : Value}
    (h : handle.read store target within key = .ok (some value, after)) : value.kind = target := by
  obtain ⟨_, _, _, _, ⟨hkind, rfl, _⟩ | ⟨_, hconvert, _⟩⟩ := read_eq_ok_some_iff.mp h
  · exact hkind
  · exact Value.kind_of_convert hconvert

theorem readText_eq_ok_some_iff {text : String} :
    handle.readText store within key = .ok (some text, after) ↔
      handle.read store (.scalar .text) within key = .ok (some (.text text), after) := by
  constructor
  · intro h
    obtain ⟨⟨value?, left⟩, hread, h⟩ := bind_eq_ok_iff.mp h
    obtain ⟨hrender, rfl⟩ := Prod.mk.inj (Except.ok.inj h)
    obtain ⟨value, rfl, hrender⟩ := Option.bind_eq_some_iff.mp hrender
    obtain ⟨given, rfl⟩ := Value.eq_text_of_kind (kind_of_read hread)
    cases hrender
    exact hread
  · intro h
    exact bind_eq_ok_iff.mpr ⟨_, h, rfl⟩

/-! ## Converted values -/

theorem owner_insert {old new : Value} (hold : store.get? owner key = some old)
    (hsame : new.section? = old.section?) :
    handle.owner (store.insert owner key new) within = handle.owner store within := by
  cases within with
  | none => rfl
  | some name => rw [Handle.owner, Handle.owner, Store.child?_insert hold hsame]

theorem get?_of_convert {target : Kind} {found value : Value} (howner : handle.owner store within = .ok owner)
    (hfinds : Finds store handle owner key found) (hconvert : found.convert key target = .ok value) :
    handle.owner (store.insert owner key value) within = .ok owner ∧
      (store.insert owner key value).get? owner key = some value := by
  obtain ⟨stored, hstored, hsection⟩ := hfinds.exists_stored
  refine ⟨?_, ?_⟩
  · rw [owner_insert hstored ((Value.section?_of_convert hconvert).trans hsection), howner]
  · rw [Store.get?_insert (Store.lt_size_of_get? hstored), if_pos ⟨rfl, rfl⟩]

end Handle

end LayeredConfig
