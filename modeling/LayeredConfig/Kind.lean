/-!
# Kinds of values

The kinds that a value can be of, with the words for them.
-/

namespace LayeredConfig

/-- The kinds of values that have a textual form. -/
inductive ScalarKind where
  | text
  | int
  | long
  | bool
  | array
  deriving DecidableEq, Repr, Inhabited

/-- How a section stands in the entry that holds it. -/
inductive Role where
  /-- As it was read or put. -/
  | plain
  /-- It was handed out under a handle of its own. -/
  | handedOut
  deriving DecidableEq, Repr, Inhabited

inductive Kind where
  | scalar (kind : ScalarKind)
  | nested (role : Role)
  deriving DecidableEq, Repr, Inhabited

/-- The name of a kind, which also stands for it on the command line. -/
def ScalarKind.name : ScalarKind → String
  | .text => "text"
  | .int => "int"
  | .long => "long"
  | .bool => "bool"
  | .array => "array"

def Kind.found : Kind → String
  | .scalar .text => "text"
  | .scalar .int => "an int"
  | .scalar .long => "a long"
  | .scalar .bool => "a bool"
  | .scalar .array => "an array"
  | .nested .plain => "a section"
  | .nested .handedOut => "a sub-section"

def Kind.expected : Kind → String
  | .scalar kind => kind.name
  | .nested _ => "a section"

end LayeredConfig
