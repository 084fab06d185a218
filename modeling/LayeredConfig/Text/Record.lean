import LayeredConfig.Text.Quoted

/-!
# Records and tagged values

One-line forms of structured values: a name with an argument in parentheses, and a name with named fields
between braces.
-/

namespace LayeredConfig.Text

/-- A named group of fields, `Name \x7b a: x, b: y \x7d`. -/
def record (name : String) (fields : List (String × String)) : String :=
  name ++ " \x7b " ++ ", ".intercalate (fields.map fun field => field.1 ++ ": " ++ field.2) ++ " \x7d"

/-- A name with one argument, `Name(x)`. -/
def tagged (name argument : String) : String := name ++ "(" ++ argument ++ ")"

end LayeredConfig.Text
