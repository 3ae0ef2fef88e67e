import Abacus.Decimal.Basic

/-!
# Writing decimal numbers

A decimal number is written positionally, with a point and at least one digit on either side of
it, or in scientific form, with one digit before the point and the power of ten after an `e`.
A `DecimalLayout` says which powers of ten are written positionally.
-/

namespace Abacus

/-- The choices in the written form of a decimal number. -/
structure DecimalLayout where
  /-- The least power of ten of a leading digit that is written positionally. -/
  leastPositional : Int
  /-- The least power of ten above those written positionally. -/
  leastScientific : Int
  /-- The least count of digits in a written power of ten. -/
  exponentDigits : Nat

namespace Decimal

/-- Digits followed or split by a point, so that the last digit counts `10 ^ exponent`. -/
def positional (digits : List Char) (exponent : Int) : List Char :=
  let places := (-exponent).toNat
  if places = 0 then digits ++ List.replicate exponent.toNat '0' ++ ['.', '0']
  else if places < digits.length then
    digits.take (digits.length - places) ++ '.' :: digits.drop (digits.length - places)
  else '0' :: '.' :: List.replicate (places - digits.length) '0' ++ digits

/-- A power of ten with its sign and at least `width` digits. -/
def signedPower (width : Nat) (power : Int) : List Char :=
  let digits := Nat.toDigits 10 power.natAbs
  (if power < 0 then '-' else '+') :: List.replicate (width - digits.length) '0' ++ digits

/-- The leading digit, the others after a point, and the power of ten of the leading digit. -/
def scientific (width : Nat) (digits : List Char) (power : Int) : List Char :=
  let fraction := digits.drop 1
  digits.take 1 ++ (if fraction.isEmpty then [] else '.' :: fraction) ++
    'e' :: signedPower width power

/-- The written form of a decimal number. -/
def write (layout : DecimalLayout) (d : Decimal) : List Char :=
  if layout.leastPositional ≤ d.leadExponent ∧ d.leadExponent < layout.leastScientific then
    positional d.digits d.exponent
  else scientific layout.exponentDigits d.digits d.leadExponent

end Decimal
end Abacus
