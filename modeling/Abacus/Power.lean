/-!
# Powers of two and of ten

The powers that scale binary and decimal numbers, with the laws that the number formats need.
-/

namespace Abacus

/-- The power of two with an exponent. -/
def powTwo (n : Nat) : Nat := Nat.pow 2 n

/-- The power of ten with an exponent. -/
def powTen (n : Nat) : Nat := Nat.pow 10 n

theorem powTwo_pos (n : Nat) : 0 < powTwo n := Nat.two_pow_pos n

theorem powTen_pos (n : Nat) : 0 < powTen n := Nat.pow_pos (by decide)

theorem powTwo_add (m n : Nat) : powTwo (m + n) = powTwo m * powTwo n := Nat.pow_add 2 m n

theorem powTwo_le {m n : Nat} (h : m ≤ n) : powTwo m ≤ powTwo n :=
  Nat.pow_le_pow_right (by decide) h

theorem powTwo_lt {m n : Nat} (h : m < n) : powTwo m < powTwo n :=
  Nat.pow_lt_pow_right (by decide) h

theorem powTwo_dvd {m n : Nat} (h : m ≤ n) : powTwo m ∣ powTwo n := Nat.pow_dvd_pow 2 h

theorem log2_powTwo (n : Nat) : (powTwo n).log2 = n := Nat.log2_two_pow

/-- The binary logarithm says below which powers of two a number lies. -/
theorem log2_lt_iff {n k : Nat} (h : n ≠ 0) : n.log2 < k ↔ n < powTwo k := Nat.log2_lt h

end Abacus
