import Abacus.Binary64.Basic

/-!
# Decimal numbers

A decimal number is a coefficient times a power of ten. It is read as the floating-point
magnitude nearest to it (`Decimal.nearest?`), and its normal form has no zero at the end of the
coefficient. `Decimal.numerator` and `Decimal.denominator` give its exact value.
-/

namespace Abacus

/-- The decimal number `coefficient * 10 ^ exponent`. -/
structure Decimal where
  /-- The digits, as a number. -/
  coefficient : Nat
  /-- The power of ten that scales them. -/
  exponent : Int
  deriving DecidableEq

namespace Decimal

/-- The numerator of the value. -/
def numerator (d : Decimal) : Nat := d.coefficient * powTen d.exponent.toNat

/-- The denominator of the value. -/
def denominator (d : Decimal) : Nat := powTen (-d.exponent).toNat

theorem denominator_pos (d : Decimal) : 0 < d.denominator := powTen_pos _

/-- The magnitude nearest to a decimal number, or nothing beyond the overflow bound. -/
def nearest? (d : Decimal) : Option Magnitude :=
  Magnitude.nearest (d.numerator * unitsPerOne) d.denominator

/-- The digits of the coefficient, the leading one first. -/
def digits (d : Decimal) : List Char := Nat.toDigits 10 d.coefficient

/-- The power of ten of the leading digit. -/
def leadExponent (d : Decimal) : Int := d.exponent + d.digits.length - 1

/-- The same number without zeros at the end of its coefficient; zero has the exponent zero. -/
def normal (d : Decimal) : Decimal :=
  if h : d.coefficient = 0 then ⟨0, 0⟩
  else if d.coefficient % 10 = 0 then normal ⟨d.coefficient / 10, d.exponent + 1⟩
  else d
termination_by d.coefficient
decreasing_by exact Nat.div_lt_self (Nat.pos_of_ne_zero h) (by decide)

end Decimal
end Abacus
