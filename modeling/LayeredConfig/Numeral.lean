import LayeredConfig.Decimal

/-!
# Numerals with a fraction and an exponent

An optional sign, digits with an optional decimal point, at least one digit before or after it, and an
optional exponent: `-12.5`, `.5`, `1.`, `2.5e-3`. A numeral denotes `digits · 10 ^ exponent`, and the
nearest double stands for it.
-/

namespace LayeredConfig

/-- A signed decimal number `± digits · 10 ^ exponent`. -/
structure Numeral where
  negative : Bool
  digits : Nat
  exponent : Int
  deriving DecidableEq, Repr

namespace Numeral

/-! ## Reading -/

/-- Exponents are read up to the digit with which they reach this bound, far beyond those of doubles. Later
digits do not count. -/
def exponentBound : Nat := 65536

/-- The size of an exponent that is written with one or more digits. -/
def exponentSize? (cs : List Char) : Option Nat :=
  if cs ≠ [] ∧ cs.all Char.isDigit then
    some (cs.foldl (fun n c => if n < exponentBound then 10 * n + (c.toNat - '0'.toNat) else n) 0)
  else none

/-- The exponent part: nothing, or the letter `e` in either case and digits after an optional
sign. -/
def exponent? : List Char → Option Int
  | [] => some 0
  | c :: rest => if c = 'e' ∨ c = 'E' then Decimal.signed? exponentSize? rest else none

def unsigned? (negative : Bool) (cs : List Char) : Option Numeral :=
  let whole := cs.takeWhile Char.isDigit
  let (fraction, rest) :=
    match cs.dropWhile Char.isDigit with
    | '.' :: rest => (rest.takeWhile Char.isDigit, rest.dropWhile Char.isDigit)
    | rest => ([], rest)
  if whole = [] ∧ fraction = [] then none
  else
    (exponent? rest).map fun exponent =>
      { negative
        digits := Decimal.ofDigits (whole ++ fraction)
        exponent := exponent - fraction.length }

def ofText? : List Char → Option Numeral
  | '-' :: rest => unsigned? true rest
  | '+' :: rest => unsigned? false rest
  | rest => unsigned? false rest

/-! ## The nearest double -/

/-- About the number of digits before the decimal point, by the count of binary digits; negative for a
number that starts with zeros after it. -/
def magnitude (x : Numeral) : Int := x.digits.log2 * 30103 / 100000 + x.exponent

/-- The double nearest to the number without its sign. Far beyond the magnitudes of finite doubles it is
infinity or zero, so that no power of ten has to be computed there. -/
def toFloatUnsigned (x : Numeral) : Float :=
  if x.digits = 0 then 0.0
  else if x.magnitude > 400 then 1.0 / 0.0
  else if x.magnitude < -400 then 0.0
  else Float.ofScientific x.digits (decide (x.exponent < 0)) x.exponent.natAbs

def toFloat (x : Numeral) : Float :=
  if x.negative then -x.toFloatUnsigned else x.toFloatUnsigned

end Numeral

end LayeredConfig
