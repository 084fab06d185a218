import LayeredConfig.Failure
import LayeredConfig.Store.Value

/-!
# Conversions

Scalars are converted through their textual form, and sections only to sections. `Scalar.ofText?` is the
reading side of `Scalar.render`.
-/

namespace LayeredConfig

/-- The scalar of a kind that a text denotes. The word `true` in any case of its letters is true, and every
other text is false. -/
def Scalar.ofText? (kind : ScalarKind) (text : String) : Option Scalar :=
  match kind with
  | .text => some (.text text)
  | .int => (Decimal.int32? text.toList).map .int
  | .long => (Decimal.int64? text.toList).map .long
  | .bool => some (.bool (text.toList.map Char.toLower == "true".toList))
  | .array => some (.array (splitItems text))

/-- The value under `key` as a value of the kind `target`. -/
def Value.convert (key : String) (target : Kind) (value : Value) : Except Failure Value :=
  match target, value with
  | .scalar kind, .scalar content =>
    match Scalar.ofText? kind content.render with
    | some converted => .ok (.scalar converted)
    | none => .error (.notConvertible key kind content.render)
  | .nested role, .nested _ id => .ok (.nested role id)
  | target, value => .error (.incompatibleValue key target value.kind)

/-! ## Kinds of the results -/

theorem Scalar.kind_of_ofText? {kind : ScalarKind} {text : String} {scalar : Scalar}
    (h : Scalar.ofText? kind text = some scalar) : scalar.kind = kind := by
  cases kind <;> simp [Scalar.ofText?] at h
  case int => obtain ⟨n, _, rfl⟩ := h; rfl
  case long => obtain ⟨n, _, rfl⟩ := h; rfl
  all_goals subst h; rfl

theorem Value.kind_of_convert {key : String} {target : Kind} {value converted : Value}
    (h : value.convert key target = .ok converted) : converted.kind = target := by
  unfold Value.convert at h
  split at h
  · split at h
    · rename_i hscalar
      cases h
      simp [Value.kind, Scalar.kind_of_ofText? hscalar]
    · cases h
  · cases h
    rfl
  · cases h

end LayeredConfig
