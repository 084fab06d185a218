import LayeredConfig.Proofs.Failure.Steps
import LayeredConfig.Proofs.Reference.Semantics

/-!
# How references fail

A text fails to resolve for reasons that have to do with its references only, whatever the store holds.
-/

namespace LayeredConfig

/-- The failure is about a reference. -/
def Failure.OfReference : Failure → Prop
  | .missingReference _ | .invalidReferencePath _ | .nonScalarReference _ | .unclosedReference _
  | .circularReference _ => True
  | _ => False

/-- The failure is about what a name points at. -/
inductive Failure.OfName (name : String) : Failure → Prop where
  | missing : OfName name (.missingReference name)
  | tooDeep : OfName name (.invalidReferencePath name)
  | nonScalar : OfName name (.nonScalarReference name)

theorem Failure.OfName.ofReference {name : String} {failure : Failure} (h : failure.OfName name) :
    failure.OfReference := by
  cases h <;> trivial

/-- The names in the references of a text, from left to right. -/
def Template.names : Template → List (List Char)
  | .plain _ | .unclosed _ => []
  | .reference _ name rest => name :: rest.names

theorem Template.expand_eq_error {ε : Type} {lookup : List Char → Except ε String} {unclosed failure : ε}
    {template : Template} (h : template.expand lookup unclosed = .error failure) :
    failure = unclosed ∨ ∃ name ∈ template.names, lookup name = .error failure := by
  induction template with
  | plain text => cases h
  | unclosed before =>
      cases h
      exact .inl rfl
  | reference before name rest ih =>
      rcases bind_eq_error_iff.mp h with hname | ⟨value, -, h⟩
      · exact .inr ⟨name, List.mem_cons_self, hname⟩
      · rcases bind_eq_error_iff.mp h with hrest | ⟨remaining, -, h⟩
        · refine (ih hrest).imp_right ?_
          rintro ⟨later, hlater, hfails⟩
          exact ⟨later, List.mem_cons_of_mem name hlater, hfails⟩
        · cases h

namespace Store

variable {store : Store} {root scope : SectionId} {failure : Failure}

theorem ofName_of_target {name : List Char} (h : store.target root scope name = .error failure) :
    failure.OfName (String.ofList name) := by
  unfold target at h
  split at h
  · cases h
  · split at h
    · cases h
    · cases h
      exact .missing
  · cases h
    exact .tooDeep

theorem ofName_of_referenced {name : List Char} (h : store.referenced root scope name = .error failure) :
    failure.OfName (String.ofList name) := by
  rcases bind_eq_error_iff.mp h with htarget | ⟨⟨owner, key⟩, -, h⟩
  · exact ofName_of_target htarget
  · cases hvalue : store.get? owner key with
    | none =>
        simp only [hvalue] at h
        cases h
        exact .missing
    | some value =>
        simp only [hvalue] at h
        cases hrender : value.render with
        | none =>
            rw [hrender] at h
            cases h
            exact .nonScalar
        | some text =>
            rw [hrender] at h
            cases h

theorem ofReference_of_resolveTo (limit : Nat) {text : String}
    (h : store.resolveTo root limit scope text = .error failure) : failure.OfReference := by
  induction limit generalizing scope text with
  | zero =>
      rw [resolveTo] at h
      split at h
      · cases h
        trivial
      · cases h
  | succ limit ih =>
      rw [resolveTo_succ] at h
      rcases Template.expand_eq_error h with rfl | ⟨name, -, hname⟩
      · trivial
      · rcases bind_eq_error_iff.mp hname with hreferenced | ⟨⟨owner, found⟩, -, hinner⟩
        · exact (ofName_of_referenced hreferenced).ofReference
        · exact ih hinner

theorem ofReference_of_resolve {text : String} (h : store.resolve root scope text = .error failure) :
    failure.OfReference :=
  ofReference_of_resolveTo nestingLimit h

end Store

end LayeredConfig
