import LayeredConfig.Proofs.Handle.Repeated
import LayeredConfig.Proofs.Json.Inference
import LayeredConfig.Proofs.Projection.Inferred
import LayeredConfig.Proofs.Reference.Likeness
import LayeredConfig.Proofs.Reference.Persistence
import Mathlib

/-!
# Keeping a number or truth value

A read that keeps a number or a truth value in place of a text is not noticed anywhere else, if the value is
written as the text was resolved: what other texts resolve to and what is inferred from a projection persist.
-/

namespace LayeredConfig

/-- A write to a key changes the entries in that place only. -/
theorem Entries.forall₂_insert {α : Type} {R : String × α → String × α → Prop} {entries : Entries α}
    {key : String} {old new : α} (hold : entries.get? key = some old) (hsame : ∀ entry ∈ entries, R entry entry)
    (hnew : R (key, old) (key, new)) : List.Forall₂ R entries (entries.insert key new) := by
  induction entries with
  | nil => cases hold
  | cons entry rest ih =>
      rw [get?_cons] at hold
      by_cases hkey : entry.1 = key
      · rw [if_pos hkey] at hold
        obtain rfl := Option.some.inj hold
        rw [insert, if_pos hkey]
        refine .cons (by rwa [← hkey] at hnew ⊢) (List.forall₂_same.mpr fun other hother => ?_)
        exact hsame other (List.mem_cons_of_mem entry hother)
      · rw [if_neg hkey] at hold
        rw [insert, if_neg hkey]
        exact .cons (hsame entry List.mem_cons_self)
          (ih hold fun other hother => hsame other (List.mem_cons_of_mem entry hother))

namespace Store

variable {store : Store} {root owner : SectionId} {key raw : String} {content : Scalar}

/-- The entry holds a text, and what it resolves to is how the number or truth value `content` is written. -/
structure Canonical (store : Store) (root owner : SectionId) (key raw : String) (content : Scalar) : Prop where
  held : store.get? owner key = some (.text raw)
  resolved : store.resolve root owner raw = .ok content.render
  ne_text : content.kind ≠ .text
  ne_array : content.kind ≠ .array

/-! ## References -/

theorem target_congr {left right : Store} (h : ∀ head, left.child? root head = right.child? root head)
    (scope : SectionId) (name : List Char) : left.target root scope name = right.target root scope name := by
  rw [target, target]
  cases Target.ofName name with
  | topLevel head key => simp only [h]
  | _ => rfl

namespace Canonical

theorem child?_eq (h : store.Canonical root owner key raw content) (id : SectionId) (name : String) :
    (store.insert owner key (.scalar content)).child? id name = store.child? id name :=
  child?_insert h.held (rfl : (Value.scalar content).section? = none) id name

theorem resolveTo_render (h : store.Canonical root owner key raw content) (after : Store) (limit : Nat) :
    after.resolveTo root limit owner content.render = .ok content.render := by
  rw [← String.ofList_toList (s := content.render)]
  exact resolveTo_of_plain (Scalar.plain_render h.ne_text h.ne_array) limit

theorem valueAt_persists (h : store.Canonical root owner key raw content) {limit : Nat}
    (hlimit : limit ≤ nestingLimit)
    (hresolve : ∀ scope text, Persists (store.resolveTo root limit scope text)
      ((store.insert owner key (.scalar content)).resolveTo root limit scope text))
    (name : List Char) (place : SectionId × String) :
    Persists (store.valueAt root limit name place)
      ((store.insert owner key (.scalar content)).valueAt root limit name place) := by
  rw [valueAt, valueAt, get?_insert (lt_size_of_get? h.held)]
  by_cases hplace : owner = place.1 ∧ key = place.2
  · -- The one entry that has changed: its text may lie too deep, its value never does.
    have hkept : Persists (store.resolveTo root limit owner raw) (.ok content.render) := by
      rw [← h.resolved]
      exact Store.resolveTo_persists hlimit owner raw
    rw [if_pos hplace, ← hplace.1, ← hplace.2, h.held]
    rwa [← h.resolveTo_render (store.insert owner key (.scalar content)) limit] at hkept
  · rw [if_neg hplace]
    rcases (store.get? place.1 place.2).map Value.render with _ | _ | found
    · exact .refl _
    · exact .refl _
    · exact hresolve place.1 found

theorem resolveTo_persists (h : store.Canonical root owner key raw content) (limit : Nat)
    (hlimit : limit ≤ nestingLimit) (scope : SectionId) (text : String) :
    Persists (store.resolveTo root limit scope text)
      ((store.insert owner key (.scalar content)).resolveTo root limit scope text) := by
  induction limit generalizing scope text with
  | zero => exact .refl _
  | succ limit ih =>
      rw [resolveTo_succ, resolveTo_succ]
      refine Template.expand_persists (fun name => ?_) _ _
      rw [valueOf_eq, valueOf_eq, target_congr (h.child?_eq root)]
      exact (Persists.refl _).bind fun place _ =>
        h.valueAt_persists (by omega) (ih (by omega)) name place

theorem resolve_persists (h : store.Canonical root owner key raw content) (scope : SectionId) (text : String) :
    Persists (store.resolve root scope text)
      ((store.insert owner key (.scalar content)).resolve root scope text) :=
  h.resolveTo_persists nestingLimit (Nat.le_refl _) scope text

/-! ## Projections -/

theorem infer_projectScalar (h : store.Canonical root owner key raw content) (after : Store) (id : SectionId) :
    (after.projectScalar root id content).map (fun projection => projection.toJson.infer) =
      .ok (inferText content.render) := by
  have htext := h.ne_text
  have harray := h.ne_array
  cases content with
  | text value => exact absurd rfl htext
  | int n =>
      have hinfer := inferText_render (Int.le_trans (by decide) n.minValue_le_toInt)
        (Int.le_trans n.toInt_le (by decide))
      exact congrArg Except.ok hinfer.symm
  | long n =>
      have hinfer := inferText_render n.minValue_le_toInt n.toInt_le
      exact congrArg Except.ok hinfer.symm
  | bool b => cases b <;> rfl
  | array items => exact absurd rfl harray

theorem inferredValue_persists (h : store.Canonical root owner key raw content) {opened : List SectionId}
    {id : SectionId}
    (hwithin : ∀ child, Persists (store.inferredWithin root (id :: opened) child)
      ((store.insert owner key (.scalar content)).inferredWithin root (id :: opened) child)) (value : Value) :
    Persists (store.inferredValue root opened id value)
      ((store.insert owner key (.scalar content)).inferredValue root opened id value) := by
  cases value with
  | nested role child =>
      rw [inferredValue_nested, inferredValue_nested]
      exact (hwithin child).map _
  | scalar value =>
      cases value with
      | text text => exact ((h.resolve_persists id text).map _).map _
      | _ => exact .refl _

theorem inferredWithin_persists (h : store.Canonical root owner key raw content) (opened : List SectionId)
    (id : SectionId) :
    Persists (store.inferredWithin root opened id)
      ((store.insert owner key (.scalar content)).inferredWithin root opened id) := by
  induction opened, id using store.walk_induction with
  | step opened id ih =>
      rw [inferredWithin_eq, inferredWithin_eq]
      split
      · exact .refl _
      · rename_i hopened
        refine .mapM ?_
        have hsame : ∀ entry ∈ store.entries id, Persists
            ((store.inferredValue root opened id entry.2).map fun value => (entry.1, value))
            (((store.insert owner key (.scalar content)).inferredValue root opened id entry.2).map
              fun value => (entry.1, value)) := fun entry hentry =>
          (h.inferredValue_persists (ih hopened (lt_size_of_mem_entries hentry)) entry.2).map _
        by_cases howner : owner = id
        · subst howner
          rw [entries_insert_self (lt_size_of_get? h.held)]
          refine Entries.forall₂_insert h.held hsame (Persists.map (.inr ?_) _)
          have hbefore : store.inferredValue root opened owner (.text raw) = .ok (inferText content.render) := by
            rw [inferredValue_text, h.resolved]
            rfl
          exact (h.infer_projectScalar _ owner).trans hbefore.symm
        · rw [entries_insert_of_ne howner]
          exact List.forall₂_same.mpr hsame

end Canonical

end Store

namespace Handle

variable {store after : Store} {handle : Handle} {within : Option String} {key raw text : String}
  {owner : SectionId} {kind : ScalarKind} {value : Value}

theorem canonical_of_read (hkind : kind = .int ∨ kind = .long ∨ kind = .bool)
    (howner : handle.owner store within = .ok owner) (hraw : store.get? owner key = some (.text raw))
    (hresolve : store.resolve handle.root owner raw = .ok text)
    (hread : handle.read store (.scalar kind) within key = .ok (some value, after))
    (hrender : value.render = some text) :
    ∃ content, store.Canonical handle.root owner key raw content ∧
      after = store.insert owner key (.scalar content) := by
  obtain ⟨hneText, hneArray⟩ : kind ≠ .text ∧ kind ≠ .array := by
    rcases hkind with rfl | rfl | rfl <;> decide
  obtain ⟨place, found, hplace, hfinds, hresult⟩ := read_eq_ok_some_iff.mp hread
  cases howner.symm.trans hplace
  have hfound : found.kind = .scalar .text := by
    cases hfinds with
    | resolved => rfl
    | held hvalue hne =>
        cases hraw.symm.trans hvalue
        rfl
  rcases hresult with ⟨hsame, _⟩ | ⟨_, hconvert, rfl⟩
  · exact absurd (Kind.scalar.inj (hsame.symm.trans hfound)) hneText
  · have hvalue := Value.kind_of_convert hconvert
    cases value with
    | nested role id => cases hrender
    | scalar content =>
        obtain rfl := Option.some.inj hrender
        have hcontent : content.kind = kind := Kind.scalar.inj hvalue
        exact ⟨content, ⟨hraw, hresolve, hcontent ▸ hneText, hcontent ▸ hneArray⟩, rfl⟩

/-- After a read that keeps a number or a truth value, and that is written as the text that was there resolved,
every text resolves as before and every projection with the same root infers as before, except where references
were found to be nested too deeply before. -/
theorem persists_of_read_canonical (hkind : kind = .int ∨ kind = .long ∨ kind = .bool)
    (howner : handle.owner store within = .ok owner) (hraw : store.get? owner key = some (.text raw))
    (hresolve : store.resolve handle.root owner raw = .ok text)
    (hread : handle.read store (.scalar kind) within key = .ok (some value, after))
    (hrender : value.render = some text) :
    (∀ scope template,
      Persists (store.resolve handle.root scope template) (after.resolve handle.root scope template)) ∧
    ∀ other : Handle, other.root = handle.root →
      Persists ((other.projection store).map fun projection => projection.toJson.infer)
        ((other.projection after).map fun projection => projection.toJson.infer) := by
  obtain ⟨content, hcanonical, rfl⟩ := canonical_of_read hkind howner hraw hresolve hread hrender
  refine ⟨hcanonical.resolve_persists, ?_⟩
  rintro ⟨scope, root⟩ rfl
  rw [infer_projection, infer_projection]
  exact (hcanonical.inferredWithin_persists [] scope).map _

/-- A section with `value` under a key between a number and a text that refers to the value, and the root that it
stands in. -/
def numberedStore (value : Value) : Store :=
  ⟨#[[("a", .text "80"), ("b", value), ("c", .text "port $\x7bb\x7d")], [("s", .nested .plain 0)]]⟩

/-- A text with a reference in it is read as a number that is written as the text resolves. -/
theorem persists_numberedStore :
    let before := numberedStore (.text "$\x7ba\x7d80")
    let after := numberedStore (.scalar (.int 8080))
    (ofRoot 1).read before (.scalar .int) (some "s") "b" = .ok (some (.scalar (.int 8080)), after) ∧
      (∀ scope template, Persists (before.resolve 1 scope template) (after.resolve 1 scope template)) ∧
      ∀ other : Handle, other.root = 1 →
        Persists ((other.projection before).map fun projection => projection.toJson.infer)
          ((other.projection after).map fun projection => projection.toJson.infer) := by
  intro before after
  have howner : (ofRoot 1).owner before (some "s") = .ok 0 := by cbv
  have hraw : before.get? 0 "b" = some (.text "$\x7ba\x7d80") := by cbv
  have hresolve : before.resolve (ofRoot 1).root 0 "$\x7ba\x7d80" = .ok "8080" := by cbv
  have hread : (ofRoot 1).read before (.scalar .int) (some "s") "b" =
      .ok (some (.scalar (.int 8080)), after) := by cbv
  have hrender : (Value.scalar (.int 8080)).render = some "8080" := by decide
  have hpersists := persists_of_read_canonical (.inl rfl) howner hraw hresolve hread hrender
  exact ⟨hread, hpersists⟩

end Handle

end LayeredConfig
