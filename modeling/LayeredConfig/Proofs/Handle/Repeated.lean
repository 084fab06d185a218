import LayeredConfig.Document.Draft
import LayeredConfig.Proofs.Handle.Access
import LayeredConfig.Proofs.Reference.Semantics
import Mathlib.Data.List.Permutation

/-!
# Reading twice

What a read converts is kept, and is found ready by the next read. Only a text that was made from a list is no
such value: the next read resolves its references, as it does with every text.
-/

namespace LayeredConfig

open Text

/-! ## Textual forms without references -/

theorem not_infix_of_dollar_not_mem {text : List Char} (h : '$' ∉ text) : ¬ referenceMark <:+: text :=
  fun hmark => h (hmark.subset List.mem_cons_self)

/-- Only texts and lists can have references in their textual form. -/
theorem Scalar.plain_render {value : Scalar} (htext : value.kind ≠ .text) (harray : value.kind ≠ .array) :
    ¬ referenceMark <:+: value.render.toList := by
  refine not_infix_of_dollar_not_mem fun hmem => ?_
  cases value with
  | text value => exact htext rfl
  | int value => rcases Decimal.mem_render hmem with hc | hc <;> exact absurd hc (by decide)
  | long value => rcases Decimal.mem_render hmem with hc | hc <;> exact absurd hc (by decide)
  | bool value => cases value <;> exact absurd hmem (by decide)
  | array items => exact harray rfl

theorem Scalar.eq_array_of_kind {value : Scalar} (h : value.kind = .array) :
    ∃ items, value = .array items := by
  cases value with
  | array items => exact ⟨items, rfl⟩
  | _ => cases h

namespace Handle

variable {store after : Store} {handle : Handle} {within : Option String} {key : String}

/-! ## Reading again -/

/-- A value that is read from the store is read once more from what the first read leaves, and the second
read changes nothing. -/
def Repeats {α : Type} (read : Store → Except Failure (Option α × Store)) (store : Store) : Prop :=
  ∀ value after, read store = .ok (some value, after) → read after = .ok (some value, after)

/-- The entry holds a list, and the text of the list would not be read as itself if it stood there. -/
def Rescans (store : Store) (handle : Handle) (within : Option String) (key : String) : Prop :=
  ∃ owner items, handle.owner store within = .ok owner ∧
    store.get? owner key = some (.scalar (.array items)) ∧
      (store.insert owner key (.text (joinItems items))).resolve handle.root owner (joinItems items) ≠
        .ok (joinItems items)

theorem repeats_of_ne_text {target : Kind} (htarget : target ≠ .scalar .text) :
    Repeats (handle.read · target within key) store := by
  intro value after h
  obtain ⟨owner, found, howner, hfinds, hresult⟩ := read_eq_ok_some_iff.mp h
  rcases hresult with ⟨_, rfl, rfl⟩ | ⟨_, hconvert, rfl⟩
  · exact h
  · obtain ⟨hagain, hvalue⟩ := get?_of_convert howner hfinds hconvert
    have hkind := Value.kind_of_convert hconvert
    have hheld : Finds (store.insert owner key value) handle owner key value :=
      .held hvalue (by rwa [hkind])
    exact read_eq_ok_some_iff.mpr ⟨owner, value, hagain, hheld, .inl ⟨hkind, rfl, rfl⟩⟩

theorem repeats_readNested : Repeats (handle.readNested · within key) store := by
  intro nested after h
  obtain ⟨⟨value?, left⟩, hread, h⟩ := bind_eq_ok_iff.mp h
  obtain ⟨hnested, rfl⟩ := Prod.mk.inj (Except.ok.inj h)
  cases value? with
  | none => cases hnested
  | some value =>
      have hagain := repeats_of_ne_text (by decide) value left hread
      exact bind_eq_ok_iff.mpr ⟨_, hagain, h⟩

theorem repeats_readText (hscan : ¬ Rescans store handle within key) :
    Repeats (handle.readText · within key) store := by
  intro text after h
  obtain ⟨owner, found, howner, hfinds, hresult⟩ :=
    read_eq_ok_some_iff.mp (readText_eq_ok_some_iff.mp h)
  rcases hresult with ⟨_, _, rfl⟩ | ⟨hkind, hconvert, rfl⟩
  · exact h
  · obtain ⟨hagain, hvalue⟩ := get?_of_convert howner hfinds hconvert
    -- What was found is no text, so it is what the entry held.
    cases hfinds with
    | resolved => exact absurd rfl hkind
    | held hstored _ =>
        cases found with
        | nested role id => cases hconvert
        | scalar content =>
            cases hconvert
            have hresolve : (store.insert owner key (.text content.render)).resolve handle.root owner
                content.render = .ok content.render := by
              by_cases harray : content.kind = .array
              · obtain ⟨items, rfl⟩ := Scalar.eq_array_of_kind harray
                exact Classical.byContradiction fun hne => hscan ⟨owner, items, howner, hstored, hne⟩
              · have htext : content.kind ≠ .text := fun heq => hkind (congrArg Kind.scalar heq)
                exact Store.resolve_of_plain (Scalar.plain_render htext harray)
            exact readText_eq_ok_some_iff.mpr (read_eq_ok_some_iff.mpr
              ⟨owner, _, hagain, .resolved hvalue hresolve, .inl ⟨rfl, rfl, rfl⟩⟩)

theorem not_rescans_of_repeats (h : Repeats (handle.readText · within key) store) :
    ¬ Rescans store handle within key := by
  rintro ⟨owner, items, howner, hitems, hresolve⟩
  have hlist : (Value.scalar (.array items)).kind ≠ .scalar .text := by simp [Value.kind, Scalar.kind]
  have hconvert : (Value.scalar (.array items)).convert key (.scalar .text) =
      .ok (.text (joinItems items)) := rfl
  have hfound : Finds store handle owner key (.scalar (.array items)) := .held hitems hlist
  have hfirst := readText_eq_ok_some_iff.mpr (read_eq_ok_some_iff.mpr
    ⟨owner, _, howner, hfound, .inr ⟨hlist, hconvert, rfl⟩⟩)
  obtain ⟨hagain, hvalue⟩ := get?_of_convert howner hfound hconvert
  obtain ⟨place, found, hplace, hfinds, hresult⟩ :=
    read_eq_ok_some_iff.mp (readText_eq_ok_some_iff.mp (h _ _ hfirst))
  cases hagain.symm.trans hplace
  cases hfinds with
  | @resolved raw text hraw hresolved =>
      cases hvalue.symm.trans hraw
      rcases hresult with ⟨_, htext, _⟩ | ⟨hkind, _, _⟩
      · cases htext
        exact hresolve hresolved
      · exact hkind rfl
  | held hstored hkind =>
      cases hvalue.symm.trans hstored
      exact hkind rfl

/-- Every accessor reads a value that it gives once more, and changes nothing the second time; the reading of
texts does so exactly where the text of a list is not taken for one with references. -/
theorem repeats_iff_not_rescans (store : Store) (handle : Handle) (within : Option String) (key : String) :
    Repeats (handle.read · (.scalar .int) within key) store ∧
      Repeats (handle.read · (.scalar .long) within key) store ∧
      Repeats (handle.read · (.scalar .bool) within key) store ∧
      Repeats (handle.read · (.scalar .array) within key) store ∧
      Repeats (handle.readNested · within key) store ∧
      (Repeats (handle.readText · within key) store ↔ ¬ Rescans store handle within key) := by
  refine ⟨?int, ?long, ?bool, ?array, repeats_readNested, not_rescans_of_repeats, repeats_readText⟩
  case int => exact repeats_of_ne_text (by decide)
  case long => exact repeats_of_ne_text (by decide)
  case bool => exact repeats_of_ne_text (by decide)
  case array => exact repeats_of_ne_text (by decide)

/-- A store with a document in which two texts without a reference come together as one. -/
def splitReference : SectionId × Store :=
  Store.empty.addDocument (Document.ofText "s:\n- a: $\n- b: \x7bx\x7d\n- t: $\x7ba\x7d$\x7bb\x7d\n")

/-- Read as a list and then as a text, the entry is a text whose reference is looked for the next time. -/
theorem readText_splitReference :
    ∃ listed once,
      (ofRoot splitReference.1).read splitReference.2 (.scalar .array) (some "s") "t" =
        .ok (some (.scalar (.array ["$\x7bx\x7d"])), listed) ∧
      (ofRoot splitReference.1).readText listed (some "s") "t" = .ok (some "$\x7bx\x7d", once) ∧
      (ofRoot splitReference.1).readText once (some "s") "t" = .error (.missingReference "x") := by
  let entries (value : Value) : Entries Value := [("a", .text "$"), ("b", .text "\x7bx\x7d"), ("t", value)]
  let store (value : Value) : Store := ⟨#[entries value, [("s", .nested .plain 0)]]⟩
  refine ⟨store (.scalar (.array ["$\x7bx\x7d"])), store (.text "$\x7bx\x7d"), ?_, ?_, ?_⟩
  · cbv
  · cbv
  · cbv

end Handle

end LayeredConfig
