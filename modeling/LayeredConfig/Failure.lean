import LayeredConfig.Decimal
import LayeredConfig.Kind
import LayeredConfig.Text.Record

/-!
# Failures

Every way in which reading a configuration can fail, one constructor for each cause, with two renderings:
a message for people, and a record of the cause with its fields.
-/

namespace LayeredConfig

/-- Why the bytes of a document could not be had, or are no text. -/
inductive ReadFailure where
  | notFound
  | accessDenied
  | isDirectory
  | notDirectory
  | nameTooLong
  | nulInPath
  | notText
  deriving DecidableEq, Repr

inductive Failure where
  | documentNotFound (location : String)
  /-- The document is there, but cannot be read. -/
  | unreadable (path : String) (failure : ReadFailure)
  /-- The documents do not say which environment they are for. -/
  | missingEnvironment
  | sectionNotFound (name : String)
  /-- The text under `key` does not denote a value of the target kind. -/
  | notConvertible (key : String) (target : ScalarKind) (text : String)
  /-- The value under `key` is of a kind that the caller has no use for. -/
  | incompatibleValue (key : String) (expected found : Kind)
  | missingReference (name : String)
  /-- The reference names more than a section and a key. -/
  | invalidReferencePath (name : String)
  | nonScalarReference (name : String)
  | unclosedReference (text : String)
  /-- References are nested too deeply; `text` is the one that was not looked into. -/
  | circularReference (text : String)
  /-- A section contains itself, `depth` levels below where the projection began. -/
  | selfContaining (depth : Nat)
  | shapeMismatch
  deriving DecidableEq, Repr

/-! ## Messages -/

def ReadFailure.message : ReadFailure → String
  | .notFound => "No such file or directory (os error 2)"
  | .accessDenied => "Permission denied (os error 13)"
  | .isDirectory => "Is a directory (os error 21)"
  | .notDirectory => "Not a directory (os error 20)"
  | .nameTooLong => "File name too long (os error 36)"
  | .nulInPath => "file name contained an unexpected NUL byte"
  | .notText => "stream did not contain valid UTF-8"

def selfContainingMessage (depth : Nat) : String :=
  "section contains itself at depth " ++ Decimal.render depth

def Failure.message : Failure → String
  | .documentNotFound location => "config document not found: " ++ location
  | .unreadable path failure =>
    "failed to read config document '" ++ path ++ "': " ++ failure.message
  | .missingEnvironment => "'application.env' is not set; cannot select the environment document"
  | .sectionNotFound name => "section not found: " ++ name
  | .notConvertible key target text =>
    "cannot convert '" ++ text ++ "' at '" ++ key ++ "' to " ++ target.name
  | .incompatibleValue key expected found =>
    "value at '" ++ key ++ "' is " ++ found.found ++ ", expected " ++ expected.expected
  | .missingReference name => "referenced value not found: " ++ name
  | .invalidReferencePath name =>
    "invalid reference path (only 'section.key' is supported): " ++ name
  | .nonScalarReference name => "cannot reference non-scalar value: " ++ name
  | .unclosedReference text => "unclosed reference (missing '\x7d') in '" ++ text ++ "'"
  | .circularReference text => "circular reference detected while resolving '" ++ text ++ "'"
  | .selfContaining depth => "failed to project configuration: " ++ selfContainingMessage depth
  | .shapeMismatch => "failed to deserialize config: unexpected shape"

/-! ## Records -/

def osRecord (code kind message : String) : String :=
  Text.record "Os" [("code", code), ("kind", kind), ("message", Text.quoted message)]

def simpleRecord (kind message : String) : String :=
  Text.record "Error" [("kind", kind), ("message", Text.quoted message)]

def ReadFailure.describe : ReadFailure → String
  | .notFound => osRecord "2" "NotFound" "No such file or directory"
  | .accessDenied => osRecord "13" "PermissionDenied" "Permission denied"
  | .isDirectory => osRecord "21" "IsADirectory" "Is a directory"
  | .notDirectory => osRecord "20" "NotADirectory" "Not a directory"
  | .nameTooLong => osRecord "36" "InvalidFilename" "File name too long"
  | .nulInPath => simpleRecord "InvalidInput" "file name contained an unexpected NUL byte"
  | .notText => simpleRecord "InvalidData" "stream did not contain valid UTF-8"

def Failure.describe : Failure → String
  | .documentNotFound location => Text.tagged "ResourceNotFound" (Text.quoted location)
  | .unreadable path failure =>
    Text.record "ReadError" [("path", Text.quoted path), ("source", failure.describe)]
  | .missingEnvironment => "MissingEnvironment"
  | .sectionNotFound name => Text.tagged "SectionNotFound" (Text.quoted name)
  | .notConvertible key target text =>
    Text.record "TypeCoercion"
      [("key", Text.quoted key), ("target", Text.quoted target.name), ("value", Text.quoted text)]
  | .incompatibleValue key expected found =>
    Text.record "IncompatibleValue"
      [("key", Text.quoted key), ("expected", Text.quoted expected.expected),
        ("found", Text.quoted found.found)]
  | .missingReference name => Text.tagged "MissingReference" (Text.quoted name)
  | .invalidReferencePath name => Text.tagged "InvalidReferencePath" (Text.quoted name)
  | .nonScalarReference name => Text.tagged "NonScalarReference" (Text.quoted name)
  | .unclosedReference text => Text.tagged "UnclosedReference" (Text.quoted text)
  | .circularReference text => Text.tagged "CircularReference" (Text.quoted text)
  | .selfContaining depth => Text.tagged "Projection" (Text.quoted (selfContainingMessage depth))
  | .shapeMismatch => Text.tagged "Deserialize" (Text.quoted "unexpected shape")

/-! ## Steps that may fail -/

theorem bind_eq_ok_iff {ε α β : Type} {first : Except ε α} {next : α → Except ε β} {result : β} :
    (first >>= next) = .ok result ↔ ∃ value, first = .ok value ∧ next value = .ok result := by
  cases first with
  | error failure =>
    constructor
    · intro h
      cases h
    · rintro ⟨value, h, _⟩
      cases h
  | ok value =>
    constructor
    · intro h
      exact ⟨value, rfl, h⟩
    · rintro ⟨other, h, hnext⟩
      cases h
      exact hnext

end LayeredConfig
