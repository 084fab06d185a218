import LayeredConfig.Handle
import LayeredConfig.Store.Outline
import LayeredConfig.Text.Record

/-!
# Descriptions

The contents of a section on one line, with every value under the name of its kind. References are not
resolved.
-/

namespace LayeredConfig

def Scalar.describe : Scalar → String
  | .text value => Text.tagged "Text" (Text.quoted value)
  | .int value => Text.tagged "Int" (Decimal.render value.toInt)
  | .long value => Text.tagged "Long" (Decimal.render value.toInt)
  | .bool value => Text.tagged "Bool" (if value then "true" else "false")
  | .array items => Text.tagged "Array" ("[" ++ ", ".intercalate (items.map Text.quoted) ++ "]")

def Role.describe : Role → String
  | .plain => "Section"
  | .handedOut => "SubTree"

mutual

def Outline.describe : Outline → String
  | .scalar value => value.describe
  | .nested role _ entries => Text.tagged role.describe (Outline.describeEntries entries)
  | .again role _ => Text.tagged role.describe ".."

def Outline.describeEntries (entries : List (String × Outline)) : String :=
  "\x7b" ++ ", ".intercalate (Outline.describeEach entries) ++ "\x7d"

def Outline.describeEach : List (String × Outline) → List String
  | [] => []
  | (key, outline) :: rest =>
    (Text.quoted key ++ ": " ++ outline.describe) :: Outline.describeEach rest

end

def Handle.describe (store : Store) (handle : Handle) : String :=
  let entries :=
    match store.outline handle.scope with
    | .nested _ _ entries => Outline.describeEntries entries
    | other => other.describe
  Text.record "ConfigTree" [("values", entries)]

end LayeredConfig
