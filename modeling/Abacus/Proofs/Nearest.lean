import Abacus.Binary64.Arithmetic
import Mathlib.Data.Int.Cast.Lemmas
import Mathlib.Tactic.Ring

/-!
# Rounding to the nearest magnitude

Rounding a quotient of units never takes it across a magnitude of the format: `gridPoint_le` and
`le_gridPoint` say so for the two sides, and together they round every quotient that is a magnitude
to itself (`nearest_mul_right`). Whole numbers up to `2 ^ 53` are such magnitudes, and an integer
that is not zero never rounds to less than one (`exists_ofInt?_natCast`).
-/
namespace Abacus

/-! ## Rounded quotients -/

theorem roundQuotient_le_of_le {num den k : ℕ} (hden : 0 < den) (h : num ≤ k * den) :
    roundQuotient num den ≤ k := by
  rcases Nat.lt_or_eq_of_le h with hlt | rfl
  · exact roundQuotient_le ((Nat.div_lt_iff_lt_mul hden).mpr hlt)
  · simp [roundQuotient, hden, Nat.mul_div_cancel k hden]

theorem le_roundQuotient_of_le {num den k : ℕ} (hden : 0 < den) (h : k * den ≤ num) :
    k ≤ roundQuotient num den :=
  ((Nat.le_div_iff_mul_le hden).mpr h).trans (le_roundQuotient num den)

namespace Magnitude

/-! ## The grid -/

section Grid
variable {num den u : ℕ}

theorem gridPoint_le_of_dvd (hden : 0 < den) (hgrid : powTwo (gridExponent num den) ∣ u)
    (h : num ≤ u * den) : gridPoint num den ≤ u := by
  obtain ⟨k, rfl⟩ := hgrid
  have hround : roundQuotient num (den * powTwo (gridExponent num den)) ≤ k := by
    refine roundQuotient_le_of_le (Nat.mul_pos hden (powTwo_pos _)) (h.trans_eq ?_)
    ring
  rw [gridPoint, Nat.mul_comm]
  exact Nat.mul_le_mul_left _ hround

theorem le_gridPoint_of_dvd (hden : 0 < den) (hgrid : powTwo (gridExponent num den) ∣ u)
    (h : u * den ≤ num) : u ≤ gridPoint num den := by
  obtain ⟨k, rfl⟩ := hgrid
  have hround : k ≤ roundQuotient num (den * powTwo (gridExponent num den)) := by
    refine le_roundQuotient_of_le (Nat.mul_pos hden (powTwo_pos _)) (le_of_eq_of_le ?_ h)
    ring
  rw [gridPoint, Nat.mul_comm]
  exact Nat.mul_le_mul_right _ hround

theorem log2_le_log2 {m n : ℕ} (h : m ≤ n) : m.log2 ≤ n.log2 := by
  rcases Nat.eq_zero_or_pos m with rfl | hpos
  · simp
  · have hn : n ≠ 0 := by omega
    exact (Nat.le_log2 hn).mpr ((Nat.log2_self_le hpos.ne').trans h)

/-- **A quotient below a magnitude is rounded to at most that magnitude.** -/
theorem gridPoint_le (hden : 0 < den) (hu : powTwo (u.log2 - 52) ∣ u) (h : num ≤ u * den) :
    gridPoint num den ≤ u := by
  refine gridPoint_le_of_dvd hden ((powTwo_dvd ?_).trans hu) h
  have hle := log2_le_log2 ((Nat.div_le_div_right h).trans_eq (Nat.mul_div_cancel u hden))
  exact Nat.sub_le_sub_right hle 52

/-- **A quotient above a magnitude is rounded to at least that magnitude.** -/
theorem le_gridPoint (hden : 0 < den) (hu : powTwo (u.log2 - 52) ∣ u) (h : u * den ≤ num) :
    u ≤ gridPoint num den := by
  have hle : u ≤ num / den := (Nat.le_div_iff_mul_le hden).mpr h
  rcases Nat.lt_or_eq_of_le (log2_le_log2 hle) with hlt | heq
  · -- The grid may be coarser than `u`, but the power of two between `u` and the quotient is on it.
    have hne : num / den ≠ 0 := by
      intro h0
      simp [h0] at hlt
    have hpow : powTwo (num / den).log2 * den ≤ num :=
      (Nat.le_div_iff_mul_le hden).mp (Nat.log2_self_le hne)
    have hgrid := le_gridPoint_of_dvd hden (powTwo_dvd (Nat.sub_le _ 52)) hpow
    have hbelow : u ≤ powTwo (num / den).log2 := by
      rcases Nat.eq_zero_or_pos u with rfl | hpos
      · exact Nat.zero_le _
      · exact ((log2_lt_iff hpos.ne').mp hlt).le
    exact hbelow.trans hgrid
  · refine le_gridPoint_of_dvd hden ?_ h
    rwa [gridExponent, ← heq]

theorem gridPoint_mul_right (hden : 0 < den) (hu : powTwo (u.log2 - 52) ∣ u) :
    gridPoint (u * den) den = u :=
  Nat.le_antisymm (gridPoint_le hden hu le_rfl) (le_gridPoint hden hu le_rfl)

end Grid

/-! ## The nearest magnitude -/

/-- A quotient that is a magnitude is its own nearest magnitude. -/
theorem nearest_mul_right (m : Magnitude) {den : ℕ} (hden : 0 < den) :
    nearest (m.units * den) den = some m := by
  have hpoint := gridPoint_mul_right hden m.bits_le
  have hbound : gridPoint (m.units * den) den < overflowBound := hpoint.symm ▸ m.lt_bound
  rw [nearest, dif_pos hbound, Option.some.injEq]
  exact ext hpoint

/-- A quotient below a magnitude has a nearest magnitude, and that is not above it either. -/
theorem exists_nearest_le (m : Magnitude) {num den : ℕ} (hden : 0 < den)
    (h : num ≤ m.units * den) : ∃ m', nearest num den = some m' ∧ m'.units ≤ m.units := by
  have hpoint := gridPoint_le hden m.bits_le h
  have hbound : gridPoint num den < overflowBound := hpoint.trans_lt m.lt_bound
  exact ⟨_, dif_pos hbound, hpoint⟩

theorem le_nearest (m : Magnitude) {m' : Magnitude} {num den : ℕ} (hden : 0 < den)
    (h : m.units * den ≤ num) (hnearest : nearest num den = some m') : m.units ≤ m'.units := by
  rw [nearest_units hnearest]
  exact le_gridPoint hden m.bits_le h

/-! ## Whole numbers -/

/-- A whole number of at most 53 bits, or `2 ^ 53` itself. -/
def whole (n : ℕ) (h : n ≤ powTwo 53) : Magnitude where
  units := n * unitsPerOne
  bits_le := scaled_bits_le h
  lt_bound := by
    refine (Nat.mul_le_mul_right unitsPerOne h).trans_lt ?_
    rw [unitsPerOne, overflowBound_eq]
    exact Nat.mul_lt_mul_of_pos_left (powTwo_lt (by decide)) (powTwo_pos 53)

@[simp] theorem units_whole (n : ℕ) (h : n ≤ powTwo 53) :
    (whole n h).units = n * unitsPerOne := rfl

theorem nearest_whole {n den : ℕ} (h : n ≤ powTwo 53) (hden : 0 < den) :
    nearest (n * unitsPerOne * den) den = some (whole n h) :=
  nearest_mul_right (whole n h) hden

theorem one_le_powTwo : 1 ≤ powTwo 53 := powTwo_pos 53

end Magnitude

namespace Binary64

/-- An integer of at most 53 bits is converted exactly. -/
theorem ofInt?_eq_some {n : ℤ} (h : n.natAbs ≤ powTwo 53) :
    ofInt? n = some (.finite (decide (n < 0)) (.whole n.natAbs h)) := by
  rw [ofInt?, ← Nat.mul_one (n.natAbs * unitsPerOne), Magnitude.nearest_whole h Nat.one_pos]
  rfl

/-- **A natural number is converted to a number without a sign**, which is zero only for zero, and
else one or more. -/
theorem exists_ofInt?_natCast {n : ℕ} {x : Binary64} (h : ofInt? n = some x) :
    ∃ m, x = .finite false m ∧ (n = 0 → m.units = 0) ∧ (0 < n → unitsPerOne ≤ m.units) := by
  obtain ⟨m, hm, rfl⟩ := Option.map_eq_some_iff.mp h
  refine ⟨m, by simp, ?_, ?_⟩
  · rintro rfl
    have hzero := Magnitude.gridPoint_le Nat.one_pos Magnitude.zero.bits_le
      (show (0 : ℕ) * unitsPerOne ≤ Magnitude.zero.units * 1 by simp)
    rw [Magnitude.nearest_units hm]
    simpa using hzero
  · intro hn
    have hone : (Magnitude.whole 1 Magnitude.one_le_powTwo).units * 1 ≤
        (n : ℤ).natAbs * unitsPerOne := by
      simpa using Nat.mul_le_mul_right unitsPerOne hn
    simpa using Magnitude.le_nearest _ Nat.one_pos hone hm

end Binary64
end Abacus
