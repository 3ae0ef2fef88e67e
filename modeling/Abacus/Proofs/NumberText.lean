import Abacus.Number.Basic
import Abacus.Proofs.Numeral

/-!
# The characters of a number's text

A number is written with digits, signs, a point and a few letters. `Number.isNumeric_display` says
so for the text of a result, whatever the number is, and `Number.toList_display_ne_nil` that there
is a text at all. So no result can be taken for a message of the shell.
-/
namespace Abacus

/-- Whether a character occurs in the text of numbers: a digit, a sign, the point, the letter in
front of a power of ten, or a letter of `inf` and `nan`. -/
def isNumeric (c : Char) : Bool :=
  c.isDigit || ['-', '+', '.', 'e', 'i', 'n', 'f', 'a'].contains c

theorem isNumeric_toDigits {n : ℕ} {c : Char} (h : c ∈ Nat.toDigits 10 n) :
    isNumeric c = true := by
  rw [isNumeric, Nat.isDigit_of_mem_toDigits (b := 10) (by decide) (by decide) h, Bool.true_or]

/-! ## Integers -/

/-- The sign of an integer and the digits of its size. -/
theorem toList_toString_int (n : ℤ) :
    (toString n).toList = (if n < 0 then ['-'] else []) ++ Nat.toDigits 10 n.natAbs := by
  cases n with
  | ofNat n =>
    rw [if_neg (by simp)]
    exact toList_toString_natCast n
  | negSucc n =>
    rw [if_pos (Int.negSucc_lt_zero n)]
    change ("-" ++ toString (n + 1)).toList = _
    rw [String.toList_append]
    exact congrArg _ (toList_toString_natCast (n + 1))

theorem isNumeric_toString_int {n : ℤ} {c : Char} (h : c ∈ (toString n).toList) :
    isNumeric c = true := by
  rw [toList_toString_int, List.mem_append] at h
  rcases h with h | h
  · split at h
    · rw [List.mem_singleton.mp h]
      decide
    · cases h
  · exact isNumeric_toDigits h

theorem toList_toString_int_ne_nil (n : ℤ) : (toString n).toList ≠ [] := by
  rw [toList_toString_int]
  exact List.append_ne_nil_of_right_ne_nil _ Nat.toDigits_ne_nil

/-! ## Decimal numbers -/

namespace Decimal

theorem isNumeric_replicate {n : ℕ} {c : Char} (h : c ∈ List.replicate n '0') :
    isNumeric c = true := by
  rw [List.eq_of_mem_replicate h]
  decide

theorem isNumeric_positional {digits : List Char} (h : ∀ c ∈ digits, isNumeric c = true)
    (exponent : ℤ) : ∀ c ∈ positional digits exponent, isNumeric c = true := by
  simp only [positional]
  split
  · simp only [List.forall_mem_append]
    exact ⟨⟨h, fun c => isNumeric_replicate⟩, List.all_eq_true.mp (by decide)⟩
  · split
    · simp only [List.forall_mem_append, List.forall_mem_cons]
      exact ⟨fun c hc => h c (List.mem_of_mem_take hc), by decide,
        fun c hc => h c (List.mem_of_mem_drop hc)⟩
    · simp only [List.cons_append, List.forall_mem_append, List.forall_mem_cons]
      exact ⟨by decide, by decide, fun c => isNumeric_replicate, h⟩

theorem isNumeric_signedPower (width : ℕ) (power : ℤ) :
    ∀ c ∈ signedPower width power, isNumeric c = true := by
  simp only [signedPower, List.cons_append, List.forall_mem_append, List.forall_mem_cons]
  refine ⟨?_, fun c => isNumeric_replicate, fun c => isNumeric_toDigits⟩
  split <;> decide

theorem isNumeric_scientific {digits : List Char} (h : ∀ c ∈ digits, isNumeric c = true)
    (width : ℕ) (power : ℤ) : ∀ c ∈ scientific width digits power, isNumeric c = true := by
  simp only [scientific, List.forall_mem_append, List.forall_mem_cons]
  refine ⟨⟨fun c hc => h c (List.mem_of_mem_take hc), ?_⟩, by decide,
    isNumeric_signedPower width power⟩
  split
  · exact List.forall_mem_nil _
  · rw [List.forall_mem_cons]
    exact ⟨by decide, fun c hc => h c (List.mem_of_mem_drop hc)⟩

/-- **A decimal number is written with the characters of numbers**, in either form. -/
theorem isNumeric_write (layout : DecimalLayout) (d : Decimal) :
    ∀ c ∈ d.write layout, isNumeric c = true := by
  have hdigits : ∀ c ∈ d.digits, isNumeric c = true := fun c => isNumeric_toDigits
  rw [write]
  split
  · exact isNumeric_positional hdigits _
  · exact isNumeric_scientific hdigits _ _

theorem write_ne_nil (layout : DecimalLayout) (d : Decimal) : d.write layout ≠ [] := by
  rw [write]
  split
  · simp only [positional]
    split
    · simp
    · split <;> simp
  · simp [scientific]

end Decimal

/-! ## The text of a result -/

theorem Binary64.isNumeric_text (x : Binary64) : ∀ c ∈ x.text.toList, isNumeric c = true := by
  cases x with
  | nan => exact List.all_eq_true.mp (by decide)
  | infinite negative => cases negative <;> exact List.all_eq_true.mp (by decide)
  | finite negative m =>
    rw [Binary64.text, String.toList_ofList, List.forall_mem_append]
    refine ⟨?_, Decimal.isNumeric_write _ _⟩
    cases negative <;> exact List.all_eq_true.mp (by decide)

theorem Binary64.toList_text_ne_nil (x : Binary64) : x.text.toList ≠ [] := by
  cases x with
  | nan => decide
  | infinite negative => cases negative <;> decide
  | finite negative m =>
    rw [Binary64.text, String.toList_ofList]
    exact List.append_ne_nil_of_right_ne_nil _ (Decimal.write_ne_nil _ _)

/-- The text of a result is the text of an integer, or of the floating-point number that it is. -/
theorem Number.display_eq (v : Number) :
    (∃ n : ℤ, v.display = toString n) ∨ ∃ x, v = .real x ∧ v.display = x.text := by
  cases v with
  | integer n => exact .inl ⟨n, rfl⟩
  | real x =>
    rw [Number.display]
    split
    · next n _ =>
      split
      · exact .inl ⟨n, rfl⟩
      · exact .inr ⟨x, rfl, rfl⟩
    · exact .inr ⟨x, rfl, rfl⟩

/-- **A result is written with the characters of numbers.** -/
theorem Number.isNumeric_display (v : Number) : ∀ c ∈ v.display.toList, isNumeric c = true := by
  rcases v.display_eq with ⟨n, h⟩ | ⟨x, -, h⟩ <;> rw [h]
  · exact fun c => isNumeric_toString_int
  · exact Binary64.isNumeric_text x

theorem Number.toList_display_ne_nil (v : Number) : v.display.toList ≠ [] := by
  rcases v.display_eq with ⟨n, h⟩ | ⟨x, -, h⟩ <;> rw [h]
  · exact toList_toString_int_ne_nil n
  · exact Binary64.toList_text_ne_nil x

end Abacus
