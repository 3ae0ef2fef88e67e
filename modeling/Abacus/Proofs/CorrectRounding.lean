import Abacus.Number.Arithmetic
import Abacus.Proofs.Nearest
import Mathlib.Algebra.Order.Field.Basic
import Mathlib.Algebra.Order.Field.Rat
import Mathlib.Tactic.FieldSimp
import Mathlib.Tactic.Linarith
import Mathlib.Tactic.NormNum
import Mathlib.Tactic.Ring

/-!
# Correct rounding

`Binary64.RoundsTo` says what correct rounding is: of all finite numbers none is nearer to the exact
value, and of two that are equally near the one with an even significand is taken.
`roundsTo_of_nearest` says that `Magnitude.nearest` rounds so, `nearest_eq_none_iff_midpoint` at
which quotient the finite numbers end, and `divide_correctly_rounded` what follows for integers.
-/
namespace Abacus

/-! ## Rounded quotients -/

section Quotient
variable {num den : ℕ}

/-- A quotient half way between two whole numbers goes to the even one. -/
theorem even_roundQuotient_of_tie (hden : 0 < den)
    (h : 2 * num = 2 * (roundQuotient num den * den) + den ∨
      2 * (roundQuotient num den * den) = 2 * num + den) : roundQuotient num den % 2 = 0 := by
  have hsplit := Nat.div_add_mod num den
  have hmod := Nat.mod_lt num hden
  have hmul : num / den * den = den * (num / den) := Nat.mul_comm _ _
  simp only [roundQuotient] at h ⊢
  split at h
  · next hbelow => omega
  · split at h
    · next habove =>
      rw [Nat.add_mul] at h
      omega
    · next hbelow habove =>
      rw [if_neg hbelow, if_neg habove]
      omega

/-- An even whole number is reached from half of one below it on. -/
theorem le_roundQuotient_iff_of_even (hden : 0 < den) {k : ℕ} (heven : k % 2 = 0) :
    k ≤ roundQuotient num den ↔ 2 * (k * den) ≤ 2 * num + den := by
  constructor
  · intro h
    have hmul := Nat.mul_le_mul_right den h
    have hbelow := @two_mul_roundQuotient_le num den hden
    omega
  · intro h
    by_contra hlt
    have hmul := Nat.mul_le_mul_right den (Nat.lt_of_not_le hlt)
    rw [Nat.succ_mul] at hmul
    have habove := @le_two_mul_roundQuotient num den hden
    have htie : 2 * num = 2 * (roundQuotient num den * den) + den := by omega
    have hround := even_roundQuotient_of_tie hden (.inl htie)
    have hnext : roundQuotient num den + 2 ≤ k := by omega
    have hmul' := Nat.mul_le_mul_right den hnext
    rw [Nat.add_mul] at hmul'
    omega

/-- The distance of a quotient from a whole number, as a multiple of one over the divisor. -/
def distance (num den k : ℕ) : ℕ := ((num : ℤ) - (k * den : ℕ)).natAbs

theorem two_mul_distance_roundQuotient_le (hden : 0 < den) :
    2 * distance num den (roundQuotient num den) ≤ den := by
  have hbelow := @two_mul_roundQuotient_le num den hden
  have habove := @le_two_mul_roundQuotient num den hden
  rw [distance]
  omega

/-- Two distances add up to the divisor at least, unless they are those of the same number. -/
theorem le_distance_add_distance {j k : ℕ} (h : j ≠ k) :
    den ≤ distance num den j + distance num den k := by
  rcases Nat.lt_or_gt_of_ne h with hlt | hlt
  · have hmul := Nat.mul_le_mul_right den hlt
    rw [Nat.succ_mul] at hmul
    simp only [distance]
    omega
  · have hmul := Nat.mul_le_mul_right den hlt
    rw [Nat.succ_mul] at hmul
    simp only [distance]
    omega

/-- **The rounded quotient is the nearest whole number.** -/
theorem distance_roundQuotient_le (hden : 0 < den) (k : ℕ) :
    distance num den (roundQuotient num den) ≤ distance num den k := by
  rcases eq_or_ne (roundQuotient num den) k with rfl | hne
  · exact le_rfl
  · have hhalf := @two_mul_distance_roundQuotient_le num den hden
    have hsum := @le_distance_add_distance num den _ _ hne
    omega

/-- **Of two whole numbers that are equally near** the even one is the rounded quotient. -/
theorem even_roundQuotient_of_distance_eq (hden : 0 < den) {k : ℕ} (hne : roundQuotient num den ≠ k)
    (h : distance num den k = distance num den (roundQuotient num den)) :
    roundQuotient num den % 2 = 0 := by
  have hhalf := @two_mul_distance_roundQuotient_le num den hden
  have hsum := @le_distance_add_distance num den _ _ hne
  apply even_roundQuotient_of_tie hden
  rw [h] at hsum
  simp only [distance] at hhalf hsum
  omega

end Quotient

namespace Magnitude

/-! ## The nearest point of the format -/

/-- The leading bits of a number of units, 53 at most, as a number of their own. -/
def coefficient (units : ℕ) : ℕ := units / powTwo (units.log2 - 52)

/-- The significand of a magnitude. -/
def significand (m : Magnitude) : ℕ := coefficient m.units

section Grid
variable {num den u : ℕ}

theorem distance_mul_right (num den k g : ℕ) :
    distance num (den * g) k = distance num den (k * g) := by
  rw [distance, distance, show k * (den * g) = k * g * den by ring]

theorem powTwo_log2_mul_le (h : num / den ≠ 0) : powTwo (num / den).log2 * den ≤ num :=
  (Nat.mul_le_mul_right den (Nat.log2_self_le h)).trans (Nat.div_mul_le_self num den)

/-- A power of two is a point of the format. -/
theorem powTwo_log2_sub_dvd (k : ℕ) : powTwo ((powTwo k).log2 - 52) ∣ powTwo k := by
  rw [log2_powTwo]
  exact powTwo_dvd (Nat.sub_le _ _)

/-- A point of the format that is not on the grid of a quotient lies below the power of two that the
grid starts from, and that is nearer to the quotient. -/
theorem distance_lt_of_not_dvd (hu : powTwo (u.log2 - 52) ∣ u)
    (hgrid : ¬powTwo (gridExponent num den) ∣ u) :
    distance num den (powTwo (num / den).log2) < distance num den u := by
  have hexponent : u.log2 - 52 < gridExponent num den := by
    by_contra hle
    exact hgrid ((powTwo_dvd (Nat.le_of_not_lt hle)).trans hu)
  have hlog : u.log2 < (num / den).log2 := by
    rw [gridExponent] at hexponent
    omega
  have hquotient : num / den ≠ 0 := by
    intro h0
    simp [h0] at hlog
  have hden : 0 < den := by
    rcases Nat.eq_zero_or_pos den with rfl | hpos
    · simp at hquotient
    · exact hpos
  have hbelow : u < powTwo (num / den).log2 := by
    rcases Nat.eq_zero_or_pos u with rfl | hpos
    · exact powTwo_pos _
    · exact (log2_lt_iff hpos.ne').mp hlog
  have hpower := powTwo_log2_mul_le hquotient
  have hmul := Nat.mul_lt_mul_of_pos_right hbelow hden
  simp only [distance]
  omega

/-- **The point of the grid is the nearest point of the format.** -/
theorem distance_gridPoint_le (hden : 0 < den) (hu : powTwo (u.log2 - 52) ∣ u) :
    distance num den (gridPoint num den) ≤ distance num den u := by
  have hgrid : ∀ k, distance num den (gridPoint num den) ≤
      distance num den (k * powTwo (gridExponent num den)) := by
    intro k
    rw [gridPoint, ← distance_mul_right, ← distance_mul_right]
    exact distance_roundQuotient_le (Nat.mul_pos hden (powTwo_pos _)) k
  by_cases hdvd : powTwo (gridExponent num den) ∣ u
  · obtain ⟨k, rfl⟩ := hdvd
    rw [Nat.mul_comm]
    exact hgrid k
  · obtain ⟨k, hk⟩ := powTwo_dvd (Nat.sub_le (num / den).log2 52)
    have hpower := hgrid k
    rw [gridExponent, Nat.mul_comm, ← hk] at hpower
    exact hpower.trans (distance_lt_of_not_dvd hu hdvd).le

/-- Behind the finest grid the rounded quotient has all leading bits. -/
theorem powTwo_le_roundQuotient (hden : 0 < den) (hexponent : gridExponent num den ≠ 0) :
    powTwo 52 ≤ roundQuotient num (den * powTwo (gridExponent num den)) := by
  have hlog : (num / den).log2 = 52 + gridExponent num den := by
    rw [gridExponent] at hexponent ⊢
    omega
  have hquotient : num / den ≠ 0 := by
    intro h0
    rw [h0, Nat.log2_zero] at hlog
    omega
  have hpower := powTwo_log2_mul_le hquotient
  rw [hlog, powTwo_add] at hpower
  refine le_roundQuotient_of_le (Nat.mul_pos hden (powTwo_pos _)) (le_of_eq_of_le ?_ hpower)
  ring

/-- A number of leading bits is the coefficient of its multiple on a grid. -/
theorem coefficient_mul_powTwo {r e : ℕ} (hlow : e ≠ 0 → powTwo 52 ≤ r) (hlt : r < powTwo 53) :
    coefficient (r * powTwo e) = r := by
  rcases Nat.eq_zero_or_pos r with rfl | hpos
  · simp [coefficient]
  have hne : r * powTwo e ≠ 0 := (Nat.mul_pos hpos (powTwo_pos e)).ne'
  have hlog : (r * powTwo e).log2 < 53 + e := by
    rw [log2_lt_iff hne, powTwo_add]
    exact Nat.mul_lt_mul_of_pos_right hlt (powTwo_pos e)
  have hexponent : (r * powTwo e).log2 - 52 = e := by
    by_cases he : e = 0
    · omega
    · have hmul := Nat.mul_le_mul_right (powTwo e) (hlow he)
      rw [← powTwo_add] at hmul
      have hge : ¬(r * powTwo e).log2 < 52 + e := by
        rw [log2_lt_iff hne]
        exact hmul.not_gt
      omega
  rw [coefficient, hexponent, Nat.mul_div_cancel _ (powTwo_pos e)]

/-- Rounding that carries into the next power of two leaves the least coefficient of a grid. -/
theorem coefficient_carry (e : ℕ) : coefficient (powTwo 53 * powTwo e) = powTwo 52 := by
  have hexponent : (powTwo 53 * powTwo e).log2 - 52 = 1 + e := by
    rw [← powTwo_add, log2_powTwo]
    omega
  have hcarry : powTwo 53 * powTwo e = powTwo 52 * powTwo (1 + e) := by
    rw [← powTwo_add, ← powTwo_add]
    congr 1
    omega
  rw [coefficient, hexponent, hcarry, Nat.mul_div_cancel _ (powTwo_pos _)]

/-- The coefficient of the point of the grid is even where the rounded quotient is. -/
theorem coefficient_gridPoint_even (hden : 0 < den)
    (heven : roundQuotient num (den * powTwo (gridExponent num den)) % 2 = 0) :
    coefficient (gridPoint num den) % 2 = 0 := by
  rw [gridPoint]
  rcases Nat.eq_or_lt_of_le (coefficient_le num den) with hcarry | hlt
  · rw [hcarry, coefficient_carry]
    rfl
  · rwa [coefficient_mul_powTwo (powTwo_le_roundQuotient hden) hlt]

/-- **Of two points of the format that are equally near** the even one is taken. -/
theorem coefficient_even_of_distance_eq (hden : 0 < den) (hu : powTwo (u.log2 - 52) ∣ u)
    (hne : gridPoint num den ≠ u)
    (h : distance num den u = distance num den (gridPoint num den)) :
    coefficient (gridPoint num den) % 2 = 0 := by
  apply coefficient_gridPoint_even hden
  have hpos := Nat.mul_pos hden (powTwo_pos (gridExponent num den))
  by_cases hdvd : powTwo (gridExponent num den) ∣ u
  · obtain ⟨k, rfl⟩ := hdvd
    rw [Nat.mul_comm] at h hne
    rw [gridPoint, ← distance_mul_right, ← distance_mul_right] at h
    refine even_roundQuotient_of_distance_eq hpos (k := k) ?_ h
    rintro rfl
    exact hne rfl
  · -- Nothing off the grid is as near as the power of two that the grid starts from.
    have hpower := @distance_gridPoint_le num den _ hden (powTwo_log2_sub_dvd (num / den).log2)
    have hlt := distance_lt_of_not_dvd hu hdvd
    omega

end Grid

/-! ## Where the finite numbers end -/

/-- The point half way between the largest finite number and the overflow bound, in units. -/
def overflowMidpoint : ℕ := (2 * powTwo 53 - 1) * powTwo (maxGridExponent - 1)

theorem two_mul_overflowMidpoint :
    2 * overflowMidpoint + powTwo maxGridExponent = 2 * overflowBound := by
  have hpower : powTwo maxGridExponent = powTwo 1 * powTwo (maxGridExponent - 1) := by
    rw [← powTwo_add]
    exact congrArg powTwo (by decide)
  have hone : powTwo 1 = 2 := rfl
  have hsucc : 2 * powTwo 53 - 1 + 1 = 2 * powTwo 53 := rfl
  rw [overflowBound_eq, overflowMidpoint, hpower, hone, ← Nat.mul_add, ← Nat.succ_mul,
    Nat.succ_eq_add_one, hsucc, Nat.mul_assoc, Nat.mul_left_comm (powTwo 53)]

theorem overflowMidpoint_le_overflowBound : overflowMidpoint ≤ overflowBound := by
  have htwo := two_mul_overflowMidpoint
  omega

theorem powTwo_le_overflowMidpoint {k : ℕ} (h : k < 53 + maxGridExponent) :
    powTwo k ≤ overflowMidpoint := by
  have hle : powTwo k ≤ powTwo 53 * powTwo (maxGridExponent - 1) := by
    rw [← powTwo_add]
    exact powTwo_le (by rw [maxGridExponent] at h ⊢; omega)
  exact hle.trans (Nat.mul_le_mul_right _ (by decide))

section Bound
variable {num den : ℕ}

/-- On the last grid a quotient is rounded to the bound from half a step below it on. -/
theorem overflowBound_le_gridPoint_iff (hden : 0 < den)
    (hgrid : gridExponent num den = maxGridExponent) :
    overflowBound ≤ gridPoint num den ↔ overflowMidpoint * den ≤ num := by
  have heven : powTwo 53 % 2 = 0 := by decide
  have hround := @le_roundQuotient_iff_of_even num _
    (Nat.mul_pos hden (powTwo_pos maxGridExponent)) _ heven
  have htwo := congrArg (· * den) two_mul_overflowMidpoint
  simp only [overflowBound_eq, Nat.add_mul, Nat.mul_assoc] at htwo
  rw [gridPoint, hgrid, overflowBound_eq, Nat.mul_le_mul_right_iff (powTwo_pos _), hround,
    Nat.mul_comm den]
  generalize powTwo 53 * (powTwo maxGridExponent * den) = bound at *
  generalize powTwo maxGridExponent * den = step at *
  generalize overflowMidpoint * den = midpoint at *
  omega

/-- A quotient is below the power of two in which its grid ends. -/
theorem quotient_lt_powTwo (num den : ℕ) : num / den < powTwo (53 + gridExponent num den) := by
  rcases Nat.eq_zero_or_pos (num / den) with h0 | hpos
  · rw [h0]
    exact powTwo_pos _
  · rw [← log2_lt_iff hpos.ne', gridExponent]
    omega

/-- On an earlier grid both the rounded quotient and the quotient itself stay below the bound. -/
theorem gridPoint_lt_overflowBound (hden : 0 < den)
    (hexponent : gridExponent num den < maxGridExponent) :
    gridPoint num den < overflowBound ∧ num < overflowMidpoint * den := by
  have hbelow : 53 + gridExponent num den < 53 + maxGridExponent := Nat.add_lt_add_left hexponent 53
  constructor
  · have hpoint : gridPoint num den ≤ powTwo (53 + gridExponent num den) := by
      rw [gridPoint, powTwo_add]
      exact Nat.mul_le_mul_right _ (coefficient_le num den)
    exact hpoint.trans_lt (powTwo_lt hbelow)
  · have hlt := (quotient_lt_powTwo num den).trans_le (powTwo_le_overflowMidpoint hbelow)
    exact (Nat.div_lt_iff_lt_mul hden).mp hlt

/-- **The finite numbers end half way** to the bound: a quotient there or beyond has no nearest
magnitude, and every other one has. -/
theorem nearest_eq_none_iff_midpoint (hden : 0 < den) :
    nearest num den = none ↔ overflowMidpoint * den ≤ num := by
  rw [nearest_eq_none_iff]
  rcases Nat.lt_trichotomy (gridExponent num den) maxGridExponent with hbelow | heq | habove
  · obtain ⟨hpoint, hnum⟩ := gridPoint_lt_overflowBound hden hbelow
    exact iff_of_false hpoint.not_ge hnum.not_ge
  · exact overflowBound_le_gridPoint_iff hden heq
  · have hlog : 53 + maxGridExponent ≤ (num / den).log2 := by
      rw [gridExponent] at habove
      omega
    have hquotient : num / den ≠ 0 := by
      intro h0
      rw [h0, Nat.log2_zero] at hlog
      exact absurd hlog (by decide)
    have hbound : overflowBound * den ≤ num :=
      (Nat.mul_le_mul_right den (powTwo_le hlog)).trans (powTwo_log2_mul_le hquotient)
    have hbits : powTwo (overflowBound.log2 - 52) ∣ overflowBound := by
      rw [overflowBound]
      exact powTwo_log2_sub_dvd _
    exact iff_of_true (le_gridPoint hden hbits hbound)
      ((Nat.mul_le_mul_right den overflowMidpoint_le_overflowBound).trans hbound)

end Bound

end Magnitude

/-! ## Correctly rounded numbers -/

namespace Binary64

/-- The exact value of the finite number with a sign and a magnitude. -/
def value (negative : Bool) (m : Magnitude) : ℚ := signedUnits negative m / unitsPerOne

/-- **Correct rounding** of a rational number to the finite number with a sign and a magnitude: no
finite number is nearer, and if one of another value is as near then the significand is even. -/
structure RoundsTo (q : ℚ) (negative : Bool) (m : Magnitude) : Prop where
  nearest : ∀ sign n, |q - value negative m| ≤ |q - value sign n|
  even : ∀ sign n, value sign n ≠ value negative m →
    |q - value sign n| = |q - value negative m| → m.significand % 2 = 0

theorem unitsPerOne_cast_pos : (0 : ℚ) < unitsPerOne := Nat.cast_pos.mpr unitsPerOne_pos

/-- A number with a sign. -/
def withSign (negative : Bool) (p : ℚ) : ℚ := if negative then -p else p

@[simp] theorem withSign_zero (negative : Bool) : withSign negative 0 = 0 := by
  cases negative <;> simp [withSign]

theorem value_eq (negative : Bool) (m : Magnitude) :
    value negative m = withSign negative (m.units / unitsPerOne) := by
  cases negative with
  | false => rfl
  | true =>
    simp only [value, signedUnits, withSign, if_true]
    push_cast
    ring

theorem abs_withSign_sub (negative : Bool) (p u : ℚ) :
    |withSign negative p - withSign negative u| = |p - u| := by
  cases negative with
  | false => rfl
  | true => rw [withSign, withSign, if_pos rfl, if_pos rfl, neg_sub_neg, abs_sub_comm]

/-- A number of the other sign is as far away as zero is, and farther by its own magnitude. -/
theorem abs_withSign_sub_not (negative : Bool) {p u : ℚ} (hp : 0 ≤ p) (hu : 0 ≤ u) :
    |withSign negative p - withSign (!negative) u| = p + u := by
  have hsum := abs_of_nonneg (add_nonneg hp hu)
  cases negative with
  | false => simpa [withSign] using hsum
  | true =>
    rw [← hsum, ← abs_neg (p + u)]
    simp [withSign]
    ring_nf

/-- The distance of a magnitude from a quotient of units, as a rational number. -/
theorem abs_sub_units_div {num den : ℕ} (hden : 0 < den) (u : ℕ) :
    |(num : ℚ) / (den * unitsPerOne) - u / unitsPerOne| =
      distance num den u / (den * unitsPerOne) := by
  have hone := unitsPerOne_cast_pos
  have hcast : (0 : ℚ) < den := Nat.cast_pos.mpr hden
  have hsplit : (num : ℚ) / (den * unitsPerOne) - u / unitsPerOne =
      (num - u * den) / (den * unitsPerOne) := by
    field_simp
  rw [hsplit, abs_div, abs_of_pos (mul_pos hcast hone), distance, Nat.cast_natAbs]
  push_cast
  rfl

section
variable {num den : ℕ} {m : Magnitude}

theorem abs_sub_units_le_iff (hden : 0 < den) (u v : ℕ) :
    |(num : ℚ) / (den * unitsPerOne) - u / unitsPerOne| ≤
        |(num : ℚ) / (den * unitsPerOne) - v / unitsPerOne| ↔
      distance num den u ≤ distance num den v := by
  have hpos := mul_pos (Nat.cast_pos.mpr hden : (0 : ℚ) < den) unitsPerOne_cast_pos
  rw [abs_sub_units_div hden, abs_sub_units_div hden, div_le_div_iff_of_pos_right hpos,
    Nat.cast_le]

theorem abs_sub_units_eq_iff (hden : 0 < den) (u v : ℕ) :
    |(num : ℚ) / (den * unitsPerOne) - u / unitsPerOne| =
        |(num : ℚ) / (den * unitsPerOne) - v / unitsPerOne| ↔
      distance num den u = distance num den v := by
  rw [le_antisymm_iff, abs_sub_units_le_iff hden, abs_sub_units_le_iff hden, le_antisymm_iff]

theorem cast_units_div_nonneg (u : ℕ) : (0 : ℚ) ≤ u / unitsPerOne :=
  div_nonneg (Nat.cast_nonneg u) unitsPerOne_cast_pos.le

theorem quotient_nonneg (num den : ℕ) : (0 : ℚ) ≤ num / (den * unitsPerOne) :=
  div_nonneg (Nat.cast_nonneg num) (mul_nonneg (Nat.cast_nonneg den) unitsPerOne_cast_pos.le)

theorem abs_sub_zero_units (num den : ℕ) :
    |(num : ℚ) / (den * unitsPerOne) - (0 : ℕ) / unitsPerOne| = num / (den * unitsPerOne) := by
  rw [Nat.cast_zero, zero_div, sub_zero, abs_of_nonneg (quotient_nonneg num den)]

/-- The nearest magnitude is no farther from a quotient than zero. -/
theorem abs_sub_nearest_le (hden : 0 < den) (h : Magnitude.nearest num den = some m) :
    |(num : ℚ) / (den * unitsPerOne) - m.units / unitsPerOne| ≤ num / (den * unitsPerOne) := by
  have hle := (abs_sub_units_le_iff hden m.units 0).mpr
    (Magnitude.nearest_units h ▸ Magnitude.distance_gridPoint_le hden (by simp))
  rwa [abs_sub_zero_units] at hle

/-- If another magnitude is as near as the nearest one, that one has an even significand. -/
theorem significand_even_of_abs_eq (hden : 0 < den) (h : Magnitude.nearest num den = some m)
    {u : ℕ} (hu : powTwo (u.log2 - 52) ∣ u) (hne : m.units ≠ u)
    (heq : |(num : ℚ) / (den * unitsPerOne) - u / unitsPerOne| =
      |(num : ℚ) / (den * unitsPerOne) - m.units / unitsPerOne|) : m.significand % 2 = 0 := by
  have hunits := Magnitude.nearest_units h
  rw [abs_sub_units_eq_iff hden, hunits] at heq
  rw [Magnitude.significand, hunits]
  exact Magnitude.coefficient_even_of_distance_eq hden hu (hunits ▸ hne) heq

/-- **The nearest magnitude is correctly rounded**, with the sign of the quotient. -/
theorem roundsTo_of_nearest (hden : 0 < den) (h : Magnitude.nearest num den = some m)
    (negative : Bool) :
    RoundsTo (withSign negative (num / (den * unitsPerOne))) negative m := by
  have hp := quotient_nonneg num den
  constructor
  · intro sign n
    rw [value_eq, value_eq, abs_withSign_sub]
    rcases Bool.eq_or_eq_not sign negative with rfl | rfl
    · rw [abs_withSign_sub, abs_sub_units_le_iff hden, Magnitude.nearest_units h]
      exact Magnitude.distance_gridPoint_le hden n.bits_le
    · rw [abs_withSign_sub_not _ hp (cast_units_div_nonneg _)]
      exact (abs_sub_nearest_le hden h).trans (le_add_of_nonneg_right (cast_units_div_nonneg _))
  · intro sign n hne heq
    rw [value_eq, value_eq, abs_withSign_sub] at heq
    rcases Bool.eq_or_eq_not sign negative with rfl | rfl
    · rw [abs_withSign_sub] at heq
      refine significand_even_of_abs_eq hden h n.bits_le ?_ heq
      intro hsame
      exact hne (by rw [Magnitude.ext hsame])
    · -- Of the other sign only zero can be as near, and zero has this sign as well.
      rw [abs_withSign_sub_not _ hp (cast_units_div_nonneg _)] at heq
      have hn : (n.units : ℚ) / unitsPerOne = 0 :=
        le_antisymm (by linarith [abs_sub_nearest_le hden h]) (cast_units_div_nonneg n.units)
      refine @significand_even_of_abs_eq num den m hden h 0 (by simp) ?_ ?_
      · intro hm
        apply hne
        rw [value_eq, value_eq, hn, hm, Nat.cast_zero, zero_div, withSign_zero, withSign_zero]
      · rw [abs_sub_zero_units, ← heq, hn, add_zero]

end

/-! ## Integers -/

theorem withSign_natAbs (a : ℤ) : withSign (decide (a < 0)) (a.natAbs : ℚ) = a := by
  rw [Nat.cast_natAbs, withSign]
  split
  · next h => rw [abs_of_neg (of_decide_eq_true h), Int.cast_neg, neg_neg]
  · next h => rw [abs_of_nonneg (by simpa using h)]

theorem withSign_div (s t : Bool) (p r : ℚ) :
    withSign (s != t) (p / r) = withSign s p / withSign t r := by
  cases s <;> cases t <;> simp [withSign, neg_div, div_neg]

/-- The least magnitude that no finite number is nearest to. -/
def finiteLimit : ℤ := 2 ^ 1024 - 2 ^ 970

theorem cast_powTwo (k : ℕ) : (powTwo k : ℤ) = 2 ^ k := Nat.cast_pow 2 k

theorem overflowMidpoint_eq : (Magnitude.overflowMidpoint : ℤ) = finiteLimit * unitsPerOne := by
  have htwo := congrArg (Nat.cast (R := ℤ)) Magnitude.two_mul_overflowMidpoint
  have hbound : (2 : ℤ) ^ 1024 * 2 ^ 1074 = 2 ^ (53 + 2045) := (pow_add 2 1024 1074).symm
  have hstep : 2 * ((2 : ℤ) ^ 970 * 2 ^ 1074) = 2 ^ 2045 := by
    rw [← pow_add, ← pow_succ']
  simp only [Nat.cast_add, Nat.cast_mul, Nat.cast_ofNat, overflowBound, maxGridExponent,
    cast_powTwo, ← hbound, ← hstep] at htwo
  rw [finiteLimit, unitsPerOne, unitExponent, cast_powTwo, sub_mul]
  generalize (2 : ℤ) ^ 1024 * 2 ^ 1074 = bound at *
  generalize (2 : ℤ) ^ 970 * 2 ^ 1074 = step at *
  omega

/-- A quotient of integers has no nearest magnitude from the limit on. -/
theorem nearest_natAbs_eq_none_iff (a : ℤ) {b : ℤ} (hb : b ≠ 0) :
    Magnitude.nearest (a.natAbs * unitsPerOne) b.natAbs = none ↔ finiteLimit * |b| ≤ |a| := by
  have hpos : (0 : ℤ) < unitsPerOne := Nat.cast_pos.mpr unitsPerOne_pos
  rw [Magnitude.nearest_eq_none_iff_midpoint (Int.natAbs_pos.mpr hb), ← Int.ofNat_le,
    Nat.cast_mul, Nat.cast_mul, overflowMidpoint_eq, Int.natCast_natAbs, Int.natCast_natAbs,
    mul_right_comm, mul_le_mul_iff_left₀ hpos]

theorem ofQuotient?_eq_none_iff (a : ℤ) {b : ℤ} (hb : b ≠ 0) :
    ofQuotient? a b = none ↔ finiteLimit * |b| ≤ |a| := by
  rw [ofQuotient?, Option.map_eq_none_iff, nearest_natAbs_eq_none_iff a hb]

theorem ofInt?_eq_none_iff (n : ℤ) : ofInt? n = none ↔ finiteLimit ≤ |n| := by
  have h := nearest_natAbs_eq_none_iff n one_ne_zero
  rw [abs_one, mul_one] at h
  rw [ofInt?, Option.map_eq_none_iff]
  exact h

/-- **The quotient of two integers is correctly rounded.** -/
theorem exists_roundsTo_of_ofQuotient? {a b : ℤ} {x : Binary64} (hb : b ≠ 0)
    (h : ofQuotient? a b = some x) :
    ∃ m, x = .finite (decide (a < 0) != decide (b < 0)) m ∧
      RoundsTo (a / b) (decide (a < 0) != decide (b < 0)) m := by
  obtain ⟨m, hm, rfl⟩ := Option.map_eq_some_iff.mp h
  refine ⟨m, rfl, ?_⟩
  have hrounds := roundsTo_of_nearest (Int.natAbs_pos.mpr hb) hm
    (decide (a < 0) != decide (b < 0))
  rwa [Nat.cast_mul, mul_div_mul_right _ _ unitsPerOne_cast_pos.ne', withSign_div,
    withSign_natAbs, withSign_natAbs] at hrounds

/-- **An integer is converted to the nearest number.** -/
theorem exists_roundsTo_of_ofInt? {n : ℤ} {x : Binary64} (h : ofInt? n = some x) :
    ∃ m, x = .finite (decide (n < 0)) m ∧ RoundsTo n (decide (n < 0)) m := by
  obtain ⟨m, hm, rfl⟩ := Option.map_eq_some_iff.mp h
  refine ⟨m, rfl, ?_⟩
  have hrounds := roundsTo_of_nearest Nat.one_pos hm (decide (n < 0))
  rwa [Nat.cast_mul, Nat.cast_one, one_mul, mul_div_cancel_right₀ _ unitsPerOne_cast_pos.ne',
    withSign_natAbs] at hrounds

end Binary64

theorem bne_decide_iff_xor (p q : Prop) [Decidable p] [Decidable q] :
    (decide p != decide q) = true ↔ Xor p q := by
  by_cases hp : p <;> by_cases hq : q <;> simp [Xor, hp, hq]

open Binary64 in
/-- **Integer division is correctly rounded.** Two integers of any size have a quotient unless it is
at the limit of the finite numbers or beyond. The quotient is the exact one, rounded once, and it is
negative when exactly one of the integers is, a quotient of zero too. -/
theorem divide_correctly_rounded (a b : ℤ) (hb : b ≠ 0) :
    ((∃ v, Number.apply (.integer a) (.operator .divide) (.integer b) = .ok v) ↔
      |(a : ℚ) / b| < finiteLimit) ∧
    ∀ v, Number.apply (.integer a) (.operator .divide) (.integer b) = .ok v →
      ∃ negative m, v = .real (.finite negative m) ∧ RoundsTo (a / b) negative m ∧
        (negative = true ↔ Xor (a < 0) (b < 0)) := by
  have hlimit : ofQuotient? a b = none ↔ ¬|(a : ℚ) / b| < finiteLimit := by
    have hpos : (0 : ℚ) < |(b : ℚ)| := abs_pos.mpr (Int.cast_ne_zero.mpr hb)
    rw [ofQuotient?_eq_none_iff a hb, abs_div, not_lt, le_div_iff₀ hpos]
    exact_mod_cast Iff.rfl
  rw [Number.apply_operator, Number.operate_integer_integer, Number.applyIntegers, if_neg hb]
  cases hx : ofQuotient? a b with
  | none => simpa using hlimit.mp hx
  | some x =>
    obtain ⟨m, rfl, hrounds⟩ := exists_roundsTo_of_ofQuotient? hb hx
    refine ⟨iff_of_true ⟨_, rfl⟩ (by simpa [hx] using hlimit), ?_⟩
    intro v hv
    exact ⟨_, m, (Except.ok.inj hv).symm, hrounds, bne_decide_iff_xor _ _⟩

open Binary64 in
/-- Far beyond the limit neither integer is a floating-point number, but their quotient is half way
between two of them. -/
theorem divide_correctly_rounded_tie :
    let a : ℤ := (powTwo 53 + 1) * powTen 400
    let b : ℤ := -powTen 400
    b ≠ 0 ∧ finiteLimit ≤ |a| ∧ ∃ m : Magnitude,
      Number.apply (.integer a) (.operator .divide) (.integer b) = .ok (.real (.finite true m)) ∧
        m.units = powTwo 53 * unitsPerOne ∧ RoundsTo (a / b) true m := by
  intro a b
  have hb : b ≠ 0 := by decide +kernel
  have hvalue : Number.apply (.integer a) (.operator .divide) (.integer b) =
      .ok (.real (.finite true (.whole (powTwo 53) le_rfl))) := by decide +kernel
  obtain ⟨negative, m, hm, hrounds, -⟩ := (divide_correctly_rounded a b hb).2 _ hvalue
  obtain ⟨rfl, rfl⟩ := Binary64.finite.inj (Number.real.inj hm)
  exact ⟨hb, by decide +kernel, _, hvalue, rfl, hrounds⟩

end Abacus
