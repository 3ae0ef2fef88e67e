import Abacus.Proofs.Scanning

/-!
# Decimal numerals

The library writes a natural number with `Nat.toDigits` and reads it with `Nat.ofDigitChars`.
`toDigits_ofDigitChars` says that reading a numeral and writing it again removes the zeros in front
and nothing else, and `toDigits_of_head?` that a number is written without such zeros.
-/
namespace Abacus

theorem toList_toString_natCast (n : ℕ) : (toString (n : ℤ)).toList = Nat.toDigits 10 n := by
  change (toString n).toList = _
  rw [Nat.toString_eq_ofList_toDigits, String.toList_ofList]

/-- A digit is the one that writes its value. -/
theorem exists_eq_digitChar {c : Char} (h : c.isDigit = true) : ∃ n < 10, c = n.digitChar := by
  obtain ⟨hlo, hhi⟩ := toNat_of_isDigit h
  have hlt : c.toNat - 48 < 10 := by omega
  refine ⟨c.toNat - 48, hlt, Char.toNat_inj.mp ?_⟩
  rw [Nat.toNat_digitChar_of_lt_ten hlt]
  omega

/-- A numeral without the zeros in front that it can spare. -/
def stripZeros : List Char → List Char
  | '0' :: c :: rest => stripZeros (c :: rest)
  | cs => cs

/-- Zeros in front do not change what a numeral is worth. -/
theorem ofDigitChars_replicate_append (n : ℕ) (digits : List Char) :
    Nat.ofDigitChars 10 (List.replicate n '0' ++ digits) 0 = Nat.ofDigitChars 10 digits 0 := by
  rw [Nat.ofDigitChars_append, Nat.ofDigitChars_replicate_zero, Nat.mul_zero]

/-- Digits that are read behind a number are written behind it. -/
theorem toDigits_ofDigitChars_of_pos {digits : List Char} (h : ∀ c ∈ digits, c.isDigit = true)
    {n : ℕ} (hn : 0 < n) :
    Nat.toDigits 10 (Nat.ofDigitChars 10 digits n) = Nat.toDigits 10 n ++ digits := by
  induction digits generalizing n with
  | nil => simp
  | cons c digits ih =>
    obtain ⟨d, hd, rfl⟩ := exists_eq_digitChar (h c List.mem_cons_self)
    rw [Nat.ofDigitChars_cons_digitChar_of_lt_ten hd,
      ih (fun e he => h e (List.mem_cons_of_mem _ he)) (by omega),
      ← Nat.toDigits_append_toDigits (by decide) hn hd, Nat.toDigits_of_lt_base hd,
      List.append_assoc]
    rfl

/-- **A numeral that is read and written again** loses the zeros in front that it can spare. -/
theorem toDigits_ofDigitChars {digits : List Char} (hne : digits ≠ [])
    (h : ∀ c ∈ digits, c.isDigit = true) :
    Nat.toDigits 10 (Nat.ofDigitChars 10 digits 0) = stripZeros digits := by
  induction digits using stripZeros.induct with
  | case1 c rest ih =>
    rw [stripZeros, ← ih (by simp) fun d hd => h d (List.mem_cons_of_mem _ hd)]
    exact congrArg _ (ofDigitChars_replicate_append 1 (c :: rest))
  | case2 digits hstrip =>
    obtain ⟨c, rest, rfl⟩ := List.exists_cons_of_ne_nil hne
    obtain ⟨d, hd, rfl⟩ := exists_eq_digitChar (h c List.mem_cons_self)
    rw [stripZeros.eq_2 _ hstrip, Nat.ofDigitChars_cons_digitChar_of_lt_ten hd, Nat.mul_zero,
      Nat.zero_add]
    -- A zero in front that is kept stands alone.
    rcases Nat.eq_zero_or_pos d with rfl | hpos
    · cases rest with
      | nil => rfl
      | cons e rest => exact absurd rfl (hstrip e rest)
    · rw [toDigits_ofDigitChars_of_pos (fun e he => h e (List.mem_cons_of_mem _ he)) hpos,
        Nat.toDigits_of_lt_base hd]
      rfl

/-- A zero that is left in front stands alone. -/
theorem stripZeros_of_head? {cs : List Char} (h : (stripZeros cs).head? = some '0') :
    stripZeros cs = ['0'] := by
  induction cs using stripZeros.induct with
  | case1 c rest ih =>
    rw [stripZeros] at h ⊢
    exact ih h
  | case2 cs hstrip =>
    rw [stripZeros.eq_2 _ hstrip] at h ⊢
    obtain ⟨rest, rfl⟩ := List.head?_eq_some_iff.mp h
    cases rest with
    | nil => rfl
    | cons c rest => exact absurd rfl (hstrip c rest)

/-- **A number is written without a zero in front**, save zero itself. -/
theorem toDigits_of_head? {n : ℕ} (h : (Nat.toDigits 10 n).head? = some '0') :
    Nat.toDigits 10 n = ['0'] := by
  have hstrip := toDigits_ofDigitChars (Nat.toDigits_ne_nil (b := 10) (n := n))
    fun c => Nat.isDigit_of_mem_toDigits (by decide) (by decide)
  rw [Nat.ofDigitChars_ten_toDigits] at hstrip
  rw [hstrip] at h ⊢
  exact stripZeros_of_head? h

end Abacus
