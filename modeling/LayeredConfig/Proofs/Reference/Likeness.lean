import LayeredConfig.Proofs.Reference.Semantics
import Mathlib.Data.Option.Basic

/-!
# What references can tell apart

Resolving looks at a store through two things only: which top-level sections there are, and how the entries of a
section are written. Two stores that agree on these for sections that correspond resolve every text alike.
-/

namespace LayeredConfig

namespace Store

variable {store : Store} {root : SectionId}

/-! ## The value of a reference in two steps -/

/-- What is put in for a reference to the entry `place`. -/
def valueAt (store : Store) (root : SectionId) (limit : Nat) (name : List Char) (place : SectionId × String) :
    Except Failure String :=
  match (store.get? place.1 place.2).map Value.render with
  | none => .error (.missingReference (String.ofList name))
  | some none => .error (.nonScalarReference (String.ofList name))
  | some (some found) => store.resolveTo root limit place.1 found

theorem valueOf_eq (limit : Nat) (scope : SectionId) (name : List Char) :
    store.valueOf root limit scope name =
      store.target root scope name >>= store.valueAt root limit name := by
  rw [valueOf, referenced]
  cases store.target root scope name with
  | error failure => rfl
  | ok place =>
      simp only [bind, Except.bind, valueAt]
      cases store.get? place.1 place.2 with
      | none => rfl
      | some value => cases hrender : value.render <;> simp only [Option.map_some, hrender]

/-! ## Stores that are alike -/

/-- Sections that correspond in the two stores: the top-level ones of the same names do, and the entries of any
two that do are written alike. -/
structure Alike (left right : Store) (leftRoot rightRoot : SectionId) (same : SectionId → SectionId → Prop) :
    Prop where
  topLevel : ∀ name, Option.Rel same (left.child? leftRoot name) (right.child? rightRoot name)
  written : ∀ {mine yours}, same mine yours → ∀ key,
    (left.get? mine key).map Value.render = (right.get? yours key).map Value.render

namespace Alike

variable {left right : Store} {leftRoot rightRoot mine yours : SectionId} {same : SectionId → SectionId → Prop}

theorem target (h : Alike left right leftRoot rightRoot same) (hsame : same mine yours) (name : List Char) :
    (∃ failure, left.target leftRoot mine name = .error failure ∧
      right.target rightRoot yours name = .error failure) ∨
    ∃ mine' yours' key, left.target leftRoot mine name = .ok (mine', key) ∧
      right.target rightRoot yours name = .ok (yours', key) ∧ same mine' yours' := by
  rw [Store.target, Store.target]
  cases Target.ofName name with
  | here key => exact .inr ⟨mine, yours, key, rfl, rfl, hsame⟩
  | tooDeep => exact .inl ⟨_, rfl, rfl⟩
  | topLevel head key =>
      have htop := h.topLevel head
      dsimp only
      generalize left.child? leftRoot head = mineChild, right.child? rightRoot head = yoursChild at htop ⊢
      cases htop with
      | none => exact .inl ⟨_, rfl, rfl⟩
      | some hchild => exact .inr ⟨_, _, key, rfl, rfl, hchild⟩

theorem resolveTo_eq (h : Alike left right leftRoot rightRoot same) (limit : Nat) (hsame : same mine yours)
    (text : String) : left.resolveTo leftRoot limit mine text = right.resolveTo rightRoot limit yours text := by
  induction limit generalizing mine yours text with
  | zero => rw [resolveTo, resolveTo]
  | succ limit ih =>
      have hvalues : left.valueOf leftRoot limit mine = right.valueOf rightRoot limit yours := by
        funext name
        rw [valueOf_eq, valueOf_eq]
        rcases h.target hsame name with ⟨failure, hleft, hright⟩ | ⟨mine', yours', key, hleft, hright, hplace⟩
        · rw [hleft, hright]
          rfl
        · rw [hleft, hright]
          change left.valueAt leftRoot limit name (mine', key) = right.valueAt rightRoot limit name (yours', key)
          rw [valueAt, valueAt, h.written hplace key]
          rcases (right.get? yours' key).map Value.render with _ | _ | found
          · rfl
          · rfl
          · exact ih hplace found
      rw [resolveTo_succ, resolveTo_succ, hvalues]

theorem resolve_eq (h : Alike left right leftRoot rightRoot same) (hsame : same mine yours) (text : String) :
    left.resolve leftRoot mine text = right.resolve rightRoot yours text :=
  h.resolveTo_eq nestingLimit hsame text

end Alike

end Store

end LayeredConfig
