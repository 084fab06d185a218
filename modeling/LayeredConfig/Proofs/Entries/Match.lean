import LayeredConfig.Entries
import Mathlib.Data.List.Forall2
import Mathlib.Data.List.Pairwise
import Mathlib.Data.Option.Basic

/-!
# Entries that match

Two lists of entries with the same keys in the same order, and values that correspond. So they show the same under
every key.
-/

namespace LayeredConfig.Entries

variable {α β : Type}

/-- The entries have the same keys, with values that correspond. -/
abbrev Match (R : α → β → Prop) (mine : Entries α) (yours : Entries β) : Prop :=
  List.Forall₂ (fun entry other => entry.1 = other.1 ∧ R entry.2 other.2) mine yours

variable {R : α → β → Prop} {mine : Entries α} {yours : Entries β}

theorem Match.keys_eq (h : Match R mine yours) : mine.keys = yours.keys := by
  induction h with
  | nil => rfl
  | cons hhead _ ih => rw [keys_cons, keys_cons, hhead.1, ih]

theorem Match.exists_of_mem (h : Match R mine yours) {entry : String × α} (hentry : entry ∈ mine) :
    ∃ other, R entry.2 other := by
  induction h with
  | nil => cases hentry
  | cons hhead _ ih =>
      rcases List.mem_cons.mp hentry with rfl | hmem
      · exact ⟨_, hhead.2⟩
      · exact ih hmem

theorem Match.bind_get?_eq {γ : Type} (h : Match R mine yours) (key : String) {f : α → Option γ}
    {g : β → Option γ} (hfg : ∀ {value other}, (key, value) ∈ mine → R value other → f value = g other) :
    (Entries.get? mine key).bind f = (Entries.get? yours key).bind g := by
  induction h with
  | nil => rfl
  | @cons entry other mine yours hhead _ ih =>
      rw [get?_cons, get?_cons, hhead.1]
      split
      · rename_i hkey
        exact hfg (by rw [← hkey, ← hhead.1]; exact List.mem_cons_self) hhead.2
      · exact ih fun hmem => hfg (List.mem_cons_of_mem entry hmem)

theorem Match.get?_eq_none (h : Match R mine yours) {key : String} (hkey : mine.get? key = none) :
    yours.get? key = none := by
  induction h with
  | nil => rfl
  | cons hhead _ ih =>
      rw [get?_cons] at hkey ⊢
      rw [← hhead.1]
      split at hkey
      · cases hkey
      · simp_all

theorem Match.exists_of_get? (h : Match R mine yours) {key : String} {value : α} (hkey : mine.get? key = some value) :
    ∃ other, yours.get? key = some other ∧ R value other := by
  induction h with
  | nil => cases hkey
  | cons hhead _ ih =>
      rw [get?_cons] at hkey ⊢
      rw [← hhead.1]
      split at hkey
      · cases hkey
        exact ⟨_, by simp_all, hhead.2⟩
      · simp_all

/-- Values that are related in pairs are so under any two keys. -/
theorem rel_of_pairwise (r : α → α → Prop) (hsymm : ∀ {value other}, r value other → r other value)
    (h : mine.Pairwise fun entry other => r entry.2 other.2) {key name : String} {value other : α}
    (hkey : mine.get? key = some value) (hname : mine.get? name = some other) (hne : key ≠ name) : r value other := by
  have : Std.Symm fun entry other : String × α => r entry.2 other.2 := ⟨fun _ _ => hsymm⟩
  have hdifferent : (key, value) ≠ (name, other) := fun heq => hne (congrArg Prod.fst heq)
  exact h.forall (mem_of_get? hkey) (mem_of_get? hname) hdifferent

end LayeredConfig.Entries
