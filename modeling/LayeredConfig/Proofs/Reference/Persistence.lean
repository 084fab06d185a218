import LayeredConfig.Proofs.Reference.Semantics
import Mathlib.Data.List.Forall2

/-!
# Results that persist

A result persists if it stays what it is, unless it was that references are nested too deeply. What is put
together from steps persists if every step does, because the first failure ends the whole. What a text resolves
to within a limit persists within every greater one.
-/

namespace LayeredConfig

open Text

variable {α β γ : Type}

/-- The failure is that references are nested too deeply. -/
def EndsCircular (result : Except Failure α) : Prop := ∃ text, result = .error (.circularReference text)

/-- `after` is `before`, unless references were nested too deeply before. -/
def Persists (before after : Except Failure α) : Prop := EndsCircular before ∨ after = before

namespace Persists

protected theorem refl (result : Except Failure α) : Persists result result := .inr rfl

theorem bind {before after : Except Failure α} {next next' : α → Except Failure β}
    (h : Persists before after) (hnext : ∀ value, before = .ok value → Persists (next value) (next' value)) :
    Persists (before >>= next) (after >>= next') := by
  rcases h with ⟨text, rfl⟩ | rfl
  · exact .inl ⟨text, rfl⟩
  · cases after with
    | error failure => exact .inr rfl
    | ok value => exact hnext value rfl

theorem map {before after : Except Failure α} (h : Persists before after) (f : α → β) :
    Persists (before.map f) (after.map f) := by
  rcases h with ⟨text, rfl⟩ | rfl
  · exact .inl ⟨text, rfl⟩
  · exact .inr rfl

theorem mapM {f : α → Except Failure γ} {g : β → Except Failure γ} {xs : List α} {ys : List β}
    (h : List.Forall₂ (fun x y => Persists (f x) (g y)) xs ys) : Persists (xs.mapM f) (ys.mapM g) := by
  induction h with
  | nil => exact .refl _
  | cons hhead _ ih =>
      rw [List.mapM_cons, List.mapM_cons]
      exact hhead.bind fun _ _ => ih.bind fun _ _ => .refl _

/-- A result that is kept twice is kept, unless a step on the way went too deep. -/
theorem trans {first second third : Except Failure α} (h : Persists first second)
    (hnext : Persists second third) : Persists first third := by
  rcases h with h | rfl
  · exact .inl h
  · exact hnext

end Persists

/-! ## References -/

theorem Template.expand_persists {lookup lookup' : List Char → Except Failure String}
    (h : ∀ name, Persists (lookup name) (lookup' name)) (unclosed : Failure) (template : Template) :
    Persists (template.expand lookup unclosed) (template.expand lookup' unclosed) := by
  induction template with
  | plain text => exact .refl _
  | unclosed before => exact .refl _
  | reference before name rest ih => exact (h name).bind fun _ _ => ih.bind fun _ _ => .refl _

namespace Store

variable {store : Store} {root : SectionId}

theorem resolveTo_succ_persists (limit : Nat) (scope : SectionId) (text : String) :
    Persists (store.resolveTo root limit scope text) (store.resolveTo root (limit + 1) scope text) := by
  induction limit generalizing scope text with
  | zero =>
      by_cases hmark : referenceMark <:+: text.toList
      · refine .inl ⟨text, ?_⟩
        rw [resolveTo, if_pos]
        exact Option.isSome_iff_ne_none.mpr fun hnone => cutAt_eq_none_iff.mp hnone hmark
      · rw [← String.ofList_toList (s := text), resolveTo_of_plain hmark, resolveTo_of_plain hmark]
        exact .refl _
  | succ limit ih =>
      rw [resolveTo_succ, resolveTo_succ]
      exact Template.expand_persists
        (fun _ => (Persists.refl _).bind fun found _ => ih found.1 found.2) _ _

/-- What a text resolves to is found out within every limit that is not too low for it. -/
theorem resolveTo_persists {limit limit' : Nat} (h : limit ≤ limit') (scope : SectionId) (text : String) :
    Persists (store.resolveTo root limit scope text) (store.resolveTo root limit' scope text) := by
  induction h with
  | refl => exact .refl _
  | step _ ih => exact ih.trans (resolveTo_succ_persists _ scope text)

end Store

end LayeredConfig
