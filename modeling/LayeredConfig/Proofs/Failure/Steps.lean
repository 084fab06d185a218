import LayeredConfig.Failure
import Mathlib.Data.List.Forall2

/-!
# Steps that may fail, one after another

A row of steps succeeds if each of them does, and fails as the first one that does not.
-/

namespace LayeredConfig

variable {ε α β γ : Type} {f : α → Except ε β} {xs : List α} {failure : ε}

theorem bind_eq_error_iff {first : Except ε α} {next : α → Except ε β} :
    (first >>= next) = .error failure ↔
      first = .error failure ∨ ∃ value, first = .ok value ∧ next value = .error failure := by
  cases first with
  | error reason => simp [bind, Except.bind]
  | ok value => simp [bind, Except.bind]

theorem bind_pure_eq_map (result : Except ε α) (f : α → β) : (do let value ← result; return f value) = result.map f := by
  cases result <;> rfl

theorem map_eq_ok_iff {result : Except ε α} {g : α → β} {value : β} :
    result.map g = .ok value ↔ ∃ before, result = .ok before ∧ g before = value := by
  cases result <;> simp [Except.map]

theorem map_eq_error_iff {result : Except ε α} {g : α → β} : result.map g = .error failure ↔ result = .error failure := by
  cases result <;> simp [Except.map]

/-! ## Steps over a list -/

theorem mapM_congr {g : α → Except ε β} (h : ∀ x ∈ xs, f x = g x) : xs.mapM f = xs.mapM g := by
  induction xs with
  | nil => rfl
  | cons x xs ih =>
      obtain ⟨hhead, htail⟩ := List.forall_mem_cons.mp h
      rw [List.mapM_cons, List.mapM_cons, hhead, ih htail]

theorem map_mapM (f : α → Except ε β) (g : β → γ) (xs : List α) :
    (xs.mapM f).map (List.map g) = xs.mapM fun x => (f x).map g := by
  induction xs with
  | nil => rfl
  | cons x xs ih =>
      rw [List.mapM_cons, List.mapM_cons, ← ih]
      cases f x with
      | error failure => rfl
      | ok value => cases xs.mapM f <;> rfl

theorem mapM_eq_ok_iff {ys : List β} : xs.mapM f = .ok ys ↔ List.Forall₂ (fun x y => f x = .ok y) xs ys := by
  induction xs generalizing ys with
  | nil => cases ys <;> simp [pure, Except.pure]
  | cons x xs ih =>
      simp only [List.mapM_cons, bind_eq_ok_iff, ih, List.forall₂_cons_left_iff]
      constructor
      · rintro ⟨y, hy, ys, hys, h⟩
        cases h
        exact ⟨y, ys, hy, hys, rfl⟩
      · rintro ⟨y, ys, hy, hys, rfl⟩
        exact ⟨y, hy, ys, hys, rfl⟩

theorem exists_of_mapM_eq_error (h : xs.mapM f = .error failure) : ∃ x ∈ xs, f x = .error failure := by
  induction xs with
  | nil => cases h
  | cons x xs ih =>
      rw [List.mapM_cons] at h
      rcases bind_eq_error_iff.mp h with hx | ⟨y, -, h⟩
      · exact ⟨x, List.mem_cons_self, hx⟩
      · rcases bind_eq_error_iff.mp h with hxs | ⟨ys, -, h⟩
        · obtain ⟨other, hother, hfails⟩ := ih hxs
          exact ⟨other, List.mem_cons_of_mem x hother, hfails⟩
        · cases h

end LayeredConfig
