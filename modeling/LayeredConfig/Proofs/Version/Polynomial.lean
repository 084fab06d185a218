import LayeredConfig.Version
import Mathlib.Algebra.BigOperators.Fin
import Mathlib.Tactic.Ring

/-!
# The hash of a version as a polynomial

The hash of a version text is the sum of its UTF-16 units times the powers of 31, taken modulo `2 ^ 32` as a signed
number. Folding makes a number from 0 to `2 ^ 31 - 1` of it, and adds without wrapping around.
-/

namespace LayeredConfig

/-! ## UTF-16 -/

namespace Text

/-- The units of the characters one after another: the code of a character, or a high and a low surrogate with ten bits
each of what the code has above the basic plane. -/
inductive Encodes : List Char → List UInt16 → Prop where
  | nil : Encodes [] []
  | single {c cs unit units} : unit.toNat = c.toNat → Encodes cs units → Encodes (c :: cs) (unit :: units)
  | pair {c cs high low units} : 0xd800 ≤ high.toNat → high.toNat < 0xdc00 → 0xdc00 ≤ low.toNat → low.toNat < 0xe000 →
      c.toNat = 0x10000 + (high.toNat - 0xd800) * 0x400 + (low.toNat - 0xdc00) →
      Encodes cs units → Encodes (c :: cs) (high :: low :: units)

theorem toNat_toUInt16 {n : Nat} (h : n < 0x10000) : n.toUInt16.toNat = n := Nat.mod_eq_of_lt h

theorem encodes_units (cs : List Char) : Encodes cs (units cs) := by
  induction cs with
  | nil => exact .nil
  | cons c cs ih =>
      rw [units, List.flatMap_cons, charUnits]
      by_cases hbasic : c.toNat < 0x10000
      · rw [if_pos hbasic]
        exact .single (toNat_toUInt16 hbasic) ih
      · rw [if_neg hbasic]
        have hvalid : c.toNat < 0xd800 ∨ 0xdfff < c.toNat ∧ c.toNat < 0x110000 := c.valid
        have hhigh : 0xd800 + (c.toNat - 0x10000) / 0x400 < 0x10000 := by omega
        have hlow : 0xdc00 + (c.toNat - 0x10000) % 0x400 < 0x10000 := by omega
        refine .pair ?_ ?_ ?_ ?_ ?_ ih
        all_goals
          simp only [toNat_toUInt16 hhigh, toNat_toUInt16 hlow]
          omega

end Text

/-! ## The polynomial -/

/-- The sum of the units, each times the power of 31 that has as many factors as units come after it. -/
def unitSum (units : List UInt16) : Int :=
  ∑ i : Fin units.length, (units[i].toNat : Int) * 31 ^ (units.length - 1 - i)

theorem unitSum_cons (unit : UInt16) (units : List UInt16) :
    unitSum (unit :: units) = unit.toNat * 31 ^ units.length + unitSum units := by
  simp [unitSum, Fin.sum_univ_succ, Nat.sub_sub, Nat.add_comm]

/-- A number that 32 bits hold is read back as itself. -/
theorem bmod_eq_self {n : Int} (hmin : -2 ^ 31 ≤ n) (hmax : n < 2 ^ 31) : n.bmod (2 ^ 32) = n :=
  Int.bmod_eq_of_le (by omega) (by omega)

theorem toInt_unit (unit : UInt16) : (Int32.ofNat unit.toNat).toInt = unit.toNat :=
  Int32.toInt_ofNat_of_lt (unit.toNat_lt.trans (by decide))

/-- Going on from a hash takes it times a power of 31 into the sum. -/
theorem toInt_foldl (units : List UInt16) (hash : Int32) :
    (units.foldl (fun hash unit => hash * 31 + Int32.ofNat unit.toNat) hash).toInt =
      (hash.toInt * 31 ^ units.length + unitSum units).bmod (2 ^ 32) := by
  induction units generalizing hash with
  | nil => simp [unitSum]
  | cons unit units ih =>
      have hstep : (hash * 31 + Int32.ofNat unit.toNat).toInt = (hash.toInt * 31 + unit.toNat).bmod (2 ^ 32) := by
        rw [Int32.toInt_add, Int32.toInt_mul, toInt_unit, Int.bmod_add_bmod]
        rfl
      calc
        _ = ((hash.toInt * 31 + unit.toNat).bmod (2 ^ 32) * 31 ^ units.length + unitSum units).bmod (2 ^ 32) := by
          rw [List.foldl_cons, ih, hstep]
        _ = ((hash.toInt * 31 + unit.toNat) * 31 ^ units.length + unitSum units).bmod (2 ^ 32) := by
          rw [← Int.bmod_add_bmod, Int.bmod_mul_bmod, Int.bmod_add_bmod]
        _ = _ := by
          rw [unitSum_cons, List.length_cons]
          congr 1
          ring

theorem toInt_polynomialHash (units : List UInt16) :
    (polynomialHash units).toInt = (unitSum units).bmod (2 ^ 32) := by
  rw [polynomialHash, toInt_foldl]
  simp

/-! ## Folding -/

/-- Taking the bits of the greatest number takes the rest modulo `2 ^ 31`. -/
theorem toInt_and_maxValue (n : Int32) : (n &&& Int32.maxValue).toInt = n.toInt % 2 ^ 31 := by
  have hbits : (n &&& Int32.maxValue).toBitVec.toNat = n.toBitVec.toNat % 2 ^ 31 := by
    rw [Int32.toBitVec_and, BitVec.toNat_and]
    exact Nat.and_two_pow_sub_one_eq_mod _ 31
  have hsmall : 2 * (n &&& Int32.maxValue).toBitVec.toNat < 2 ^ 32 := by omega
  have hvalue : n.toInt % 2 ^ 31 = (n.toBitVec.toNat : Int) % 2 ^ 31 := by
    change n.toBitVec.toInt % _ = _
    rw [BitVec.toInt_eq_toNat_cond]
    split <;> omega
  change (n &&& Int32.maxValue).toBitVec.toInt = _
  rw [BitVec.toInt_eq_toNat_of_lt hsmall, hbits, hvalue]
  norm_cast

theorem toInt_versionNumber (version : String) :
    (versionNumber version).toInt =
      if 0 ≤ (polynomialHash (Text.units version.toList)).toInt then (polynomialHash (Text.units version.toList)).toInt
      else ((polynomialHash (Text.units version.toList)).toInt + (2 ^ 31 - 1)) % 2 ^ 31 := by
  simp only [versionNumber, Int32.le_iff_toInt_le]
  generalize polynomialHash (Text.units version.toList) = hash
  change (if 0 ≤ hash.toInt then hash else _).toInt = _
  split
  · rfl
  · rename_i hnegative
    have hmin := Int32.le_toInt hash
    have hsum : (hash + Int32.maxValue).toInt = hash.toInt + (2 ^ 31 - 1) := by
      rw [Int32.toInt_add, Int32.toInt_maxValue]
      exact bmod_eq_self (by omega) (by omega)
    rw [toInt_and_maxValue, hsum]

/-- The number of a version is the polynomial of its UTF-16 units if that is not negative in 32 bits, and is folded into
the range from 0 to `2 ^ 31 - 1` otherwise. Adding the greatest number to a negative one stays within 32 bits. -/
theorem versionNumber_eq_folded (version : String) :
    let units := Text.units version.toList
    let hash := (unitSum units).bmod (2 ^ 32)
    Text.Encodes version.toList units ∧
      (versionNumber version).toInt =
        (if 0 ≤ hash then hash else if hash = -2 ^ 31 then 2 ^ 31 - 1 else hash + 2 ^ 31 - 1) ∧
      (0 ≤ (versionNumber version).toInt ∧ (versionNumber version).toInt ≤ 2 ^ 31 - 1) ∧
      (hash < 0 → -2 ^ 31 ≤ hash + (2 ^ 31 - 1) ∧ hash + (2 ^ 31 - 1) < 2 ^ 31) := by
  intro units hash
  have hhash : (polynomialHash (Text.units version.toList)).toInt = hash := toInt_polynomialHash units
  have hmin : -2 ^ 31 ≤ hash := hhash ▸ Int32.le_toInt _
  have hmax : hash < 2 ^ 31 := hhash ▸ Int32.toInt_lt _
  have hnumber : (versionNumber version).toInt =
      if 0 ≤ hash then hash else if hash = -2 ^ 31 then 2 ^ 31 - 1 else hash + 2 ^ 31 - 1 := by
    rw [toInt_versionNumber, hhash]
    split
    · rfl
    · -- The least number alone stays below zero after the addition.
      split <;> omega
  refine ⟨Text.encodes_units _, hnumber, ?_, fun hnegative => ?_⟩
  · rw [hnumber]
    split
    · omega
    · split <;> omega
  · omega

/-- The hash of this text is the least number. -/
theorem versionNumber_polygenelubricants :
    (unitSum (Text.units "polygenelubricants".toList)).bmod (2 ^ 32) < 0 ∧
      (-2 ^ 31 ≤ (unitSum (Text.units "polygenelubricants".toList)).bmod (2 ^ 32) + (2 ^ 31 - 1) ∧
        (unitSum (Text.units "polygenelubricants".toList)).bmod (2 ^ 32) + (2 ^ 31 - 1) < 2 ^ 31) ∧
      (versionNumber "polygenelubricants").toInt = 2 ^ 31 - 1 := by
  have hleast : (unitSum (Text.units "polygenelubricants".toList)).bmod (2 ^ 32) = -2 ^ 31 := by
    rw [← toInt_polynomialHash]
    decide
  obtain ⟨-, hnumber, -, hadds⟩ := versionNumber_eq_folded "polygenelubricants"
  have hnegative : (unitSum (Text.units "polygenelubricants".toList)).bmod (2 ^ 32) < 0 := by
    rw [hleast]
    decide
  refine ⟨hnegative, hadds hnegative, ?_⟩
  rw [hnumber, hleast]
  decide

end LayeredConfig
