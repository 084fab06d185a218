import LayeredConfig.Failure
import LayeredConfig.Reference.Template
import LayeredConfig.Store.Basic

/-!
# Resolving references

A plain name refers to a key of the section that the text stands in. A name with a dot refers to a key of
a top-level section. The value that is found is resolved first, in the section that it was found in, and
what has been put in is not looked at again.
-/

namespace LayeredConfig

inductive Target where
  /-- A key of the section that the text stands in. -/
  | here (key : String)
  | topLevel (name key : String)
  /-- Further down than references go. -/
  | tooDeep
  deriving DecidableEq, Repr

/-- Reads the name in a reference. A dot in front is part of a plain name. -/
def Target.ofName (name : List Char) : Target :=
  match Text.cutAtChar '.' name with
  | none | some ([], _) => .here (String.ofList name)
  | some (head, tail) =>
    if '.' ∈ tail then .tooDeep else .topLevel (String.ofList head) (String.ofList tail)

namespace Store

/-- The section and the key that a name points at, seen from `scope`. -/
def target (store : Store) (root scope : SectionId) (name : List Char) :
    Except Failure (SectionId × String) :=
  match Target.ofName name with
  | .here key => .ok (scope, key)
  | .topLevel head key =>
    match store.child? root head with
    | some owner => .ok (owner, key)
    | none => .error (.missingReference (String.ofList name))
  | .tooDeep => .error (.invalidReferencePath (String.ofList name))

/-- The section that a name points into, and the text that it finds there. -/
def referenced (store : Store) (root scope : SectionId) (name : List Char) :
    Except Failure (SectionId × String) := do
  let (owner, key) ← store.target root scope name
  match store.get? owner key with
  | none => .error (.missingReference (String.ofList name))
  | some value =>
    match value.render with
    | none => .error (.nonScalarReference (String.ofList name))
    | some text => .ok (owner, text)

/-- Resolves the references of a text in `scope`, nested at most `limit` deep. -/
def resolveTo (store : Store) (root : SectionId) :
    (limit : Nat) → (scope : SectionId) → (text : String) → Except Failure String
  | 0, _, text => if mentionsReference text then .error (.circularReference text) else .ok text
  | limit + 1, scope, text =>
    (Template.ofText text.toList).expand
      (fun name => do
        let (owner, value) ← store.referenced root scope name
        store.resolveTo root limit owner value)
      (.unclosedReference text)

/-- How deep references may be nested. What is deeper counts as a cycle. -/
def nestingLimit : Nat := 64

/-- Resolves the references of a text that stands in `scope`. -/
def resolve (store : Store) (root scope : SectionId) (text : String) : Except Failure String :=
  store.resolveTo root nestingLimit scope text

end Store

end LayeredConfig
