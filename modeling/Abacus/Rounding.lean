/-!
# Rounding a quotient to the nearest whole number

`roundQuotient num den` is the whole number nearest to `num / den`, a tie going to the even
neighbour. `roundQuotient_le` bounds it, and `two_mul_roundQuotient_le` and
`le_two_mul_roundQuotient` say that it is within half of one.
-/

namespace Abacus

/-- The whole number nearest to `num / den`; of two equally near, the even one. -/
def roundQuotient (num den : Nat) : Nat :=
  let q := num / den
  let r := num % den
  if 2 * r < den then q
  else if den < 2 * r then q + 1
  else q + q % 2

theorem roundQuotient_le_succ (num den : Nat) : roundQuotient num den ≤ num / den + 1 := by
  simp only [roundQuotient]
  split
  · omega
  · split <;> omega

theorem le_roundQuotient (num den : Nat) : num / den ≤ roundQuotient num den := by
  simp only [roundQuotient]
  split
  · omega
  · split <;> omega

theorem roundQuotient_le {num den bound : Nat} (h : num / den < bound) :
    roundQuotient num den ≤ bound :=
  Nat.le_trans (roundQuotient_le_succ num den) h

/-- The rounded quotient is at most half of one above the exact one. -/
theorem two_mul_roundQuotient_le {num den : Nat} (hden : 0 < den) :
    2 * (roundQuotient num den * den) ≤ 2 * num + den := by
  have hsplit := Nat.div_add_mod num den
  have hmod := Nat.mod_lt num hden
  have hmul : num / den * den = den * (num / den) := Nat.mul_comm _ _
  simp only [roundQuotient]
  split
  · omega
  · split
    · rw [Nat.add_mul]; omega
    · rcases Nat.mod_two_eq_zero_or_one (num / den) with h | h <;> rw [h, Nat.add_mul] <;> omega

/-- The rounded quotient is at most half of one below the exact one. -/
theorem le_two_mul_roundQuotient {num den : Nat} (hden : 0 < den) :
    2 * num ≤ 2 * (roundQuotient num den * den) + den := by
  have hsplit := Nat.div_add_mod num den
  have hmod := Nat.mod_lt num hden
  have hmul : num / den * den = den * (num / den) := Nat.mul_comm _ _
  simp only [roundQuotient]
  split
  · omega
  · split
    · rw [Nat.add_mul]; omega
    · rcases Nat.mod_two_eq_zero_or_one (num / den) with h | h <;> rw [h, Nat.add_mul] <;> omega

end Abacus
