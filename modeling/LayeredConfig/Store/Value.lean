import LayeredConfig.Decimal
import LayeredConfig.Items
import LayeredConfig.Kind

/-!
# Values

A value is a scalar, which has a textual form, or a section. Sections are shared, so a value only names
one; the store holds its entries.
-/

namespace LayeredConfig

/-- The name of a section in a store. Equal names are the same section. -/
abbrev SectionId := Nat

inductive Scalar where
  | text (value : String)
  | int (value : Int32)
  | long (value : Int64)
  | bool (value : Bool)
  | array (items : List String)
  deriving DecidableEq, Repr, Inhabited

inductive Value where
  | scalar (value : Scalar)
  | nested (role : Role) (id : SectionId)
  deriving DecidableEq, Repr, Inhabited

def Scalar.kind : Scalar → ScalarKind
  | .text _ => .text
  | .int _ => .int
  | .long _ => .long
  | .bool _ => .bool
  | .array _ => .array

/-! ## Textual form -/

def Scalar.render : Scalar → String
  | .text value => value
  | .int value => Decimal.render value.toInt
  | .long value => Decimal.render value.toInt
  | .bool value => if value then "true" else "false"
  | .array items => joinItems items

namespace Value

def text (value : String) : Value := .scalar (.text value)

/-- The textual form of a scalar. A section has none. -/
def render : Value → Option String
  | .scalar value => some value.render
  | .nested _ _ => none

def section? : Value → Option SectionId
  | .scalar _ => none
  | .nested _ id => some id

def kind : Value → Kind
  | .scalar value => .scalar value.kind
  | .nested role _ => .nested role

theorem render_eq_none_iff (value : Value) : value.render = none ↔ ∃ id, value.section? = some id := by
  cases value <;> simp [render, section?]

end Value

end LayeredConfig
