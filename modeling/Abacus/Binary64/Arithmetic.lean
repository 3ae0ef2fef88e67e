import Abacus.Binary64.Basic

/-!
# Arithmetic of floating-point numbers

Each operation on finite numbers takes the exact result as a quotient of units and rounds it
once. A sum that is exactly zero is negative only when both terms are; a product and a quotient
are negative when exactly one operand is. The operations on infinities follow the limits, and
what has no limit is `nan`.
-/

namespace Abacus.Binary64

/-- The number with the other sign. -/
def neg : Binary64 → Binary64
  | .nan => .nan
  | .infinite negative => .infinite (!negative)
  | .finite negative m => .finite (!negative) m

/-- A magnitude with its sign as a whole number of units. -/
def signedUnits (negative : Bool) (m : Magnitude) : Int :=
  if negative then -(m.units : Int) else (m.units : Int)

/-- The sum, rounded to nearest. -/
def add : Binary64 → Binary64 → Binary64
  | .nan, _ => .nan
  | _, .nan => .nan
  | .infinite a, .infinite b => if a = b then .infinite a else .nan
  | .infinite a, .finite _ _ => .infinite a
  | .finite _ _, .infinite b => .infinite b
  | .finite a m, .finite b n =>
    let sum := signedUnits a m + signedUnits b n
    if sum = 0 then zero (a && b)
    else nearest (decide (sum < 0)) sum.natAbs 1

/-- The difference, rounded to nearest. -/
def sub (x y : Binary64) : Binary64 := add x (neg y)

/-- The product, rounded to nearest. -/
def mul : Binary64 → Binary64 → Binary64
  | .nan, _ => .nan
  | _, .nan => .nan
  | .infinite a, .infinite b => .infinite (a != b)
  | .infinite a, .finite b n => if n.units = 0 then .nan else .infinite (a != b)
  | .finite a m, .infinite b => if m.units = 0 then .nan else .infinite (a != b)
  | .finite a m, .finite b n => nearest (a != b) (m.units * n.units) unitsPerOne

/-- The quotient, rounded to nearest. -/
def div : Binary64 → Binary64 → Binary64
  | .nan, _ => .nan
  | _, .nan => .nan
  | .infinite _, .infinite _ => .nan
  | .infinite a, .finite b _ => .infinite (a != b)
  | .finite a _, .infinite b => zero (a != b)
  | .finite a m, .finite b n =>
    if n.units = 0 then
      if m.units = 0 then .nan else .infinite (a != b)
    else nearest (a != b) (m.units * unitsPerOne) n.units

theorem add_finite (a b : Bool) (m n : Magnitude) :
    add (.finite a m) (.finite b n) =
      if signedUnits a m + signedUnits b n = 0 then zero (a && b)
      else nearest (decide (signedUnits a m + signedUnits b n < 0))
        (signedUnits a m + signedUnits b n).natAbs 1 := rfl

theorem mul_finite (a b : Bool) (m n : Magnitude) :
    mul (.finite a m) (.finite b n) = nearest (a != b) (m.units * n.units) unitsPerOne := rfl

theorem div_finite (a b : Bool) (m : Magnitude) {n : Magnitude} (h : n.units ≠ 0) :
    div (.finite a m) (.finite b n) = nearest (a != b) (m.units * unitsPerOne) n.units :=
  if_neg h

/-- The number nearest to an integer, or nothing beyond the bound. -/
def ofInt? (n : Int) : Option Binary64 :=
  (Magnitude.nearest (n.natAbs * unitsPerOne) 1).map (.finite (decide (n < 0)))

/-- The number nearest to a quotient of integers, or nothing beyond the bound. A zero quotient
keeps the sign that the operands give it. -/
def ofQuotient? (a b : Int) : Option Binary64 :=
  (Magnitude.nearest (a.natAbs * unitsPerOne) b.natAbs).map
    (.finite (decide (a < 0) != decide (b < 0)))

end Abacus.Binary64
