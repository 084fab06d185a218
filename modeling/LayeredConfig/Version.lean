import LayeredConfig.Text.Units

/-!
# Version numbers

A number that stands for a version text: the polynomial hash of its UTF-16 units with the factor 31, in
32 bits, folded into the numbers that are not negative.
-/

namespace LayeredConfig

/-- The polynomial hash of a list of units. -/
def polynomialHash (units : List UInt16) : Int32 :=
  units.foldl (fun hash unit => hash * 31 + Int32.ofNat unit.toNat) 0

/-- The number that stands for a version. -/
def versionNumber (version : String) : Int32 :=
  let hash := polynomialHash (Text.units version.toList)
  if 0 ≤ hash then hash else (hash + Int32.maxValue) &&& Int32.maxValue

end LayeredConfig
