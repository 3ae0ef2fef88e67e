import Abacus.Power
import Abacus.Rounding

/-!
# Binary floating-point numbers of 64 bits

A finite number is a sign and a magnitude, and a magnitude is a whole number of units, the unit
being the smallest positive number of the format. A whole number of units is a
magnitude of the format when it keeps at most 53 significant bits and stays below the overflow
bound, and the type carries a proof of that. All payloads of "not a number" are one value.

`Magnitude.nearest` is the only rounding rule: every operation computes an exact quotient of
units and rounds it once. `Magnitude.nearest_units` says what it rounds to.
-/

namespace Abacus

/-- The unit is `2 ^ (-unitExponent)`. -/
def unitExponent : Nat := 1074

/-- The largest power of two, in units, that a coefficient of 53 bits is scaled by. -/
def maxGridExponent : Nat := 2045

/-- The units in the number one. -/
def unitsPerOne : Nat := powTwo unitExponent

/-- The units that no finite number reaches. -/
def overflowBound : Nat := powTwo (53 + maxGridExponent)

theorem unitsPerOne_pos : 0 < unitsPerOne := powTwo_pos unitExponent

theorem overflowBound_eq : overflowBound = powTwo 53 * powTwo maxGridExponent :=
  powTwo_add 53 maxGridExponent

/-- The absolute value of a finite number. -/
structure Magnitude where
  /-- The value as a multiple of the unit. -/
  units : Nat
  /-- Below its 53 leading bits the value has none. -/
  bits_le : powTwo (units.log2 - 52) ∣ units
  /-- The value is below the overflow bound. -/
  lt_bound : units < overflowBound
  deriving DecidableEq

namespace Magnitude

@[ext] theorem ext {a b : Magnitude} (h : a.units = b.units) : a = b := by
  cases a; cases b; simp_all

/-- A coefficient of at most 53 bits, scaled by a power of two. -/
theorem scaled_bits_le {m e : Nat} (hm : m ≤ powTwo 53) :
    powTwo ((m * powTwo e).log2 - 52) ∣ m * powTwo e := by
  rcases Nat.eq_zero_or_pos m with rfl | hpos
  · simp
  rcases Nat.eq_or_lt_of_le hm with rfl | hlt
  · rw [← powTwo_add, log2_powTwo]
    exact powTwo_dvd (Nat.sub_le _ _)
  · have hne : m * powTwo e ≠ 0 :=
      Nat.mul_ne_zero (Nat.ne_of_gt hpos) (Nat.ne_of_gt (powTwo_pos e))
    have hlog : (m * powTwo e).log2 < 53 + e := by
      rw [log2_lt_iff hne, powTwo_add]
      exact Nat.mul_lt_mul_of_pos_right hlt (powTwo_pos e)
    exact Nat.dvd_trans (powTwo_dvd (by omega)) (Nat.dvd_mul_left _ _)

/-- A coefficient times a power of two units, within the bounds of the format. -/
def scaled (m e : Nat) (hm : m < powTwo 53) (he : e ≤ maxGridExponent) : Magnitude where
  units := m * powTwo e
  bits_le := scaled_bits_le (Nat.le_of_lt hm)
  lt_bound := by
    rw [overflowBound_eq]
    exact Nat.lt_of_lt_of_le (Nat.mul_lt_mul_of_pos_right hm (powTwo_pos e))
      (Nat.mul_le_mul_left (powTwo 53) (powTwo_le he))

/-- Zero. -/
def zero : Magnitude := scaled 0 0 (powTwo_pos 53) (Nat.zero_le _)

@[simp] theorem units_zero : zero.units = 0 := Nat.zero_mul _

/-- The exponent of the grid on which the numbers of 53 bits nearest to `num / den` lie. -/
def gridExponent (num den : Nat) : Nat :=
  (num / den).log2 - 52

/-- The point nearest to `num / den` on its grid, a tie going to the even coefficient. -/
def gridPoint (num den : Nat) : Nat :=
  roundQuotient num (den * powTwo (gridExponent num den)) * powTwo (gridExponent num den)

theorem coefficient_le (num den : Nat) :
    roundQuotient num (den * powTwo (gridExponent num den)) ≤ powTwo 53 := by
  refine roundQuotient_le ?_
  rw [← Nat.div_div_eq_div_mul, Nat.div_lt_iff_lt_mul (powTwo_pos _), ← powTwo_add]
  rcases Nat.eq_zero_or_pos (num / den) with h | h
  · rw [h]
    exact powTwo_pos _
  · rw [← log2_lt_iff (Nat.ne_of_gt h), gridExponent]
    omega

theorem gridPoint_bits_le (num den : Nat) :
    powTwo ((gridPoint num den).log2 - 52) ∣ gridPoint num den :=
  scaled_bits_le (coefficient_le num den)

/-- The magnitude nearest to `num / den` units, a tie going to the even coefficient, and nothing
when that is at or above the overflow bound. -/
def nearest (num den : Nat) : Option Magnitude :=
  if h : gridPoint num den < overflowBound then
    some ⟨gridPoint num den, gridPoint_bits_le num den, h⟩
  else
    none

theorem nearest_units {num den : Nat} {m : Magnitude} (h : nearest num den = some m) :
    m.units = gridPoint num den := by
  unfold nearest at h
  split at h
  · cases h; rfl
  · cases h

theorem nearest_eq_none_iff {num den : Nat} :
    nearest num den = none ↔ overflowBound ≤ gridPoint num den := by
  unfold nearest
  split <;> simp_all

end Magnitude

/-- A floating-point number of 64 bits. -/
inductive Binary64
  /-- Not a number. -/
  | nan
  /-- An infinity, below or above all finite numbers. -/
  | infinite (negative : Bool)
  /-- A finite number; zero has two signs. -/
  | finite (negative : Bool) (magnitude : Magnitude)
  deriving DecidableEq

namespace Binary64

/-- Zero with a sign. -/
def zero (negative : Bool) : Binary64 := .finite negative .zero

/-- Whether a number is one of the two zeros. -/
def isZero : Binary64 → Bool
  | .finite _ m => m.units == 0
  | _ => false

/-- The number nearest to `num / den` units with a sign, an infinity beyond the bound. -/
def nearest (negative : Bool) (num den : Nat) : Binary64 :=
  match Magnitude.nearest num den with
  | some m => .finite negative m
  | none => .infinite negative

theorem nearest_of_some {negative : Bool} {num den : Nat} {m : Magnitude}
    (h : Magnitude.nearest num den = some m) : nearest negative num den = .finite negative m := by
  unfold nearest
  rw [h]

theorem nearest_of_none {negative : Bool} {num den : Nat}
    (h : Magnitude.nearest num den = none) : nearest negative num den = .infinite negative := by
  unfold nearest
  rw [h]

/-- The whole number that a finite integral number is. -/
def toInt? : Binary64 → Option Int
  | .finite negative m =>
    if m.units % unitsPerOne = 0 then
      some (if negative then -(m.units / unitsPerOne : Int) else (m.units / unitsPerOne : Int))
    else none
  | _ => none

end Binary64
end Abacus
