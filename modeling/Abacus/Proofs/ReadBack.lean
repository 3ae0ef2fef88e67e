import Abacus.Proofs.CorrectRounding
import Abacus.Proofs.DecimalText

/-!
# Reading back a decimal number

Rounding depends on the value of a quotient and not on its terms (`nearest_eq_of_mul_eq`), so two
decimal numbers of one value are read as the same magnitude. The shortest decimal number of a
magnitude is therefore read back as that magnitude in every form in which it can be written
(`nearest?_shortest`), and the magnitude is the correctly rounded value of the number.
-/
namespace Abacus

/-! ## Rounding a quotient in other terms -/

section
variable {num den num' den' k : ℕ}

theorem roundQuotient_mul_right (hk : 0 < k) :
    roundQuotient (num * k) (den * k) = roundQuotient num den := by
  have hbelow : 2 * (num % den * k) < den * k ↔ 2 * (num % den) < den := by
    rw [← Nat.mul_assoc, Nat.mul_lt_mul_right hk]
  have habove : den * k < 2 * (num % den * k) ↔ den < 2 * (num % den) := by
    rw [← Nat.mul_assoc, Nat.mul_lt_mul_right hk]
  simp only [roundQuotient, Nat.mul_div_mul_right _ _ hk, Nat.mul_mod_mul_right, hbelow, habove]

namespace Magnitude

theorem gridPoint_mul_mul (hk : 0 < k) : gridPoint (num * k) (den * k) = gridPoint num den := by
  have hgrid : gridExponent (num * k) (den * k) = gridExponent num den := by
    rw [gridExponent, Nat.mul_div_mul_right _ _ hk, gridExponent]
  rw [gridPoint, hgrid, Nat.mul_right_comm den, roundQuotient_mul_right hk, gridPoint]

theorem nearest_mul_mul (hk : 0 < k) : nearest (num * k) (den * k) = nearest num den := by
  simp only [nearest, gridPoint_mul_mul hk]

/-- **Equal quotients have the same nearest magnitude.** -/
theorem nearest_eq_of_mul_eq (hden : 0 < den) (hden' : 0 < den')
    (h : num * den' = num' * den) : nearest num den = nearest num' den' := by
  rw [← nearest_mul_mul hden', h, Nat.mul_comm den, nearest_mul_mul hden]

end Magnitude
end

/-! ## Decimal numbers of one value -/

namespace Decimal

section
variable {d d' : Decimal} {m : Magnitude}

theorem cast_powTen (n : ℕ) : (powTen n : ℚ) = 10 ^ n := Nat.cast_pow 10 n

theorem denominator_cast_pos (d : Decimal) : (0 : ℚ) < d.denominator :=
  Nat.cast_pos.mpr d.denominator_pos

theorem value_eq_div (d : Decimal) : d.value = d.numerator / d.denominator := by
  -- One of the two powers of ten is one, by the sign of the exponent.
  have hexponent : d.exponent = (d.exponent.toNat : ℤ) - ((-d.exponent).toNat : ℤ) := by omega
  rw [value, numerator, denominator, Nat.cast_mul, cast_powTen, cast_powTen, mul_div_assoc]
  congr 1
  conv_lhs => rw [hexponent]
  rw [zpow_sub₀ (by norm_num), zpow_natCast, zpow_natCast]

theorem value_nonneg (d : Decimal) : 0 ≤ d.value := by
  rw [value_eq_div]
  exact div_nonneg (Nat.cast_nonneg _) (Nat.cast_nonneg _)

/-- **The nearest magnitude is that of the value.** -/
theorem nearest?_eq_of_value_eq (h : d.value = d'.value) : d.nearest? = d'.nearest? := by
  rw [value_eq_div, value_eq_div,
    div_eq_div_iff d.denominator_cast_pos.ne' d'.denominator_cast_pos.ne'] at h
  have hmul : d.numerator * d'.denominator = d'.numerator * d.denominator := by exact_mod_cast h
  refine Magnitude.nearest_eq_of_mul_eq d.denominator_pos d'.denominator_pos ?_
  rw [Nat.mul_right_comm, hmul, Nat.mul_right_comm]

/-- A decimal number that is a magnitude is read as that magnitude. -/
theorem nearest?_of_value_eq (h : d.value = m.units / unitsPerOne) : d.nearest? = some m := by
  rw [value_eq_div, div_eq_div_iff d.denominator_cast_pos.ne'
    Binary64.unitsPerOne_cast_pos.ne'] at h
  have hmul : d.numerator * unitsPerOne = m.units * d.denominator := by exact_mod_cast h
  rw [nearest?, hmul, Magnitude.nearest_mul_right m d.denominator_pos]

theorem value_normal (d : Decimal) : d.normal.value = d.value := by
  fun_induction normal d with
  | case1 d hzero => simp [value, hzero]
  | case2 d hne hmod ih =>
    rw [ih]
    obtain ⟨k, hk⟩ := Nat.dvd_of_mod_eq_zero hmod
    simp only [value, hk, Nat.mul_div_cancel_left k (show 0 < 10 by decide)]
    rw [zpow_add_one₀ (by norm_num)]
    push_cast
    ring
  | case3 d => rfl

/-- **What reads back is near**: the value is rounded correctly, with any sign. -/
theorem roundsTo_of_nearest? (h : d.nearest? = some m) (negative : Bool) :
    Binary64.RoundsTo (Binary64.withSign negative d.value) negative m := by
  have hrounds := Binary64.roundsTo_of_nearest d.denominator_pos h negative
  rwa [Nat.cast_mul, mul_div_mul_right _ _ Binary64.unitsPerOne_cast_pos.ne', ← value_eq_div]
    at hrounds

/-- A decimal number is read as a finite number when it is below the limit. -/
theorem nearest?_eq_none_iff : d.nearest? = none ↔ (Binary64.finiteLimit : ℚ) ≤ d.value := by
  have hden : (d.denominator : ℤ) ≠ 0 := Nat.cast_ne_zero.mpr d.denominator_pos.ne'
  have h := Binary64.nearest_natAbs_eq_none_iff d.numerator hden
  rw [Int.natAbs_natCast, Int.natAbs_natCast, Nat.abs_cast, Nat.abs_cast] at h
  rw [nearest?, h, value_eq_div, le_div_iff₀ d.denominator_cast_pos]
  exact_mod_cast Iff.rfl

theorem abs_lt_of_nearest? (h : d.nearest? = some m) (negative : Bool) :
    |Binary64.withSign negative d.value| < Binary64.finiteLimit := by
  have hlimit : ¬(Binary64.finiteLimit : ℚ) ≤ d.value := by
    rw [← nearest?_eq_none_iff, h]
    exact Option.some_ne_none m
  have habs := Binary64.abs_withSign_sub negative d.value 0
  rw [Binary64.withSign_zero, sub_zero, sub_zero, abs_of_nonneg d.value_nonneg] at habs
  rw [habs]
  exact not_le.mp hlimit

end

end Decimal

/-! ## The shortest decimal number -/

namespace Magnitude
variable (m : Magnitude)

/-- A power of five over one of ten is one over a power of two. -/
theorem cast_pow_five_mul_zpow (n : ℕ) :
    ((Nat.pow 5 n : ℕ) : ℚ) * 10 ^ (-n : ℤ) = 1 / powTwo n := by
  have hfive : ((Nat.pow 5 n : ℕ) : ℚ) = 5 ^ n := Nat.cast_pow 5 n
  have htwo : (powTwo n : ℚ) = 2 ^ n := Nat.cast_pow 2 n
  have hten : (10 : ℚ) ^ n = 5 ^ n * 2 ^ n := by
    rw [← mul_pow]
    norm_num
  rw [hfive, htwo, zpow_neg, zpow_natCast, hten]
  field_simp

theorem value_exactDecimal : m.exactDecimal.value = m.units / unitsPerOne := by
  rw [Decimal.value, exactDecimal, Nat.cast_mul, mul_assoc, cast_pow_five_mul_zpow, unitsPerOne,
    mul_one_div]

/-- **The shortest decimal number reads back.** -/
theorem nearest?_shortest : m.shortest.nearest? = some m := by
  rw [shortest, Decimal.nearest?_eq_of_value_eq (Decimal.value_normal _)]
  cases hfound : (List.range 17).findSome? fun n => m.candidate? (n + 1) with
  | none => exact Decimal.nearest?_of_value_eq m.value_exactDecimal
  | some d =>
    obtain ⟨n, -, hn⟩ := List.exists_of_findSome?_eq_some hfound
    exact nearest?_candidate hn

end Magnitude
end Abacus
