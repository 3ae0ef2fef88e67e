import Abacus.Proofs.ExactWindow
import Abacus.Proofs.NumberText
import Abacus.Proofs.ReadBack

/-!
# The text of a result

The text of a result says what the result is worth. An integer, and a whole floating-point number
below `10 ^ 16`, has the canonical numeral of that integer; every other finite number has a text
with a point or a power of ten, and the number that it denotes is rounded to the result. So the
text can be read back: `readBack?_display` does this for every number, and
`Number.display_faithful` says all of it.
-/
namespace Abacus

open Binary64 (value withSign finiteLimit RoundsTo)

/-! ## What a text denotes -/

/-- The rational number that a text denotes. -/
def Denotes (text : String) (q : ℚ) : Prop :=
  ∃ negative d, Decimal.read? text.toList = some (negative, d) ∧ q = withSign negative d.value

/-- An integer numeral: digits, with or without a minus sign in front. -/
def IsNumeral (text : String) : Prop :=
  ∃ sign digits, text.toList = sign ++ digits ∧ (sign = [] ∨ sign = ['-']) ∧
    isDigits digits = true

/-- **The canonical numeral** of an integer denotes it, has a minus sign if it is negative and only
then, and has no zero in front of other digits. -/
structure IsCanonical (text : String) (n : ℤ) : Prop where
  digits : ∃ digits, text.toList = (if n < 0 then ['-'] else []) ++ digits ∧
    isDigits digits = true ∧ (digits.head? = some '0' → digits = ['0'])
  denotes : Denotes text n

/-- A text has a point or the letter in front of a power of ten. -/
def HasPointOrPower (text : String) : Prop := '.' ∈ text.toList ∨ 'e' ∈ text.toList

instance (text : String) : Decidable (HasPointOrPower text) :=
  inferInstanceAs (Decidable (_ ∨ _))

theorem IsNumeral.not_hasPointOrPower {text : String} (h : IsNumeral text) :
    ¬HasPointOrPower text := by
  obtain ⟨sign, digits, htext, hsign, hdigits⟩ := h
  have hpoint : '.' ∉ digits := not_mem_of_isDigits (by decide) hdigits
  have hletter : 'e' ∉ digits := not_mem_of_isDigits (by decide) hdigits
  rw [HasPointOrPower, htext]
  rcases hsign with rfl | rfl <;> simp [hpoint, hletter]

/-! ## Integers -/

section
variable (n : ℤ)

theorem read?_toString_int :
    Decimal.read? (toString n).toList = some (decide (n < 0), ⟨n.natAbs, 0⟩) := by
  have hdigits := isDigits_toDigits n.natAbs
  have hfront : (Nat.toDigits 10 n.natAbs).head? ≠ some '-' := by
    simpa using head?_append_ne_of_isDigits hdigits []
  have hread := Decimal.readUnsigned?_digits hdigits
  rw [Nat.ofDigitChars_ten_toDigits] at hread
  rw [toList_toString_int]
  simpa using Decimal.read?_append hfront hread (decide (n < 0))

theorem withSign_value_natAbs : withSign (decide (n < 0)) (Decimal.value ⟨n.natAbs, 0⟩) = n := by
  rw [Decimal.value, zpow_zero, mul_one, Binary64.withSign_natAbs]

/-- **An integer is written as its canonical numeral**, whatever its size. -/
theorem isCanonical_toString_int : IsCanonical (toString n) n where
  digits := ⟨_, toList_toString_int n, isDigits_toDigits _, toDigits_of_head?⟩
  denotes := ⟨_, _, read?_toString_int n, (withSign_value_natAbs n).symm⟩

theorem isNumeral_toString_int : IsNumeral (toString n) := by
  refine ⟨_, _, toList_toString_int n, ?_, isDigits_toDigits _⟩
  split
  · exact .inr rfl
  · exact .inl rfl

end

/-! ## Floating-point numbers -/

section
variable (negative : Bool) (m : Magnitude)

theorem hasPointOrPower_text : HasPointOrPower (Binary64.finite negative m).text := by
  rw [HasPointOrPower, Binary64.text, String.toList_ofList]
  exact (Decimal.point_or_letter_mem_write Binary64.layout m.shortest).imp
    (List.mem_append_right _) (List.mem_append_right _)

/-- **The full text of a finite number is read back**: it denotes a number that the finite number
is nearest to. -/
theorem read?_text :
    ∃ d, Decimal.read? (Binary64.finite negative m).text.toList = some (negative, d) ∧
      d.nearest? = some m := by
  obtain ⟨d, hread, hvalue⟩ := Decimal.read?_write Binary64.layout m.shortest negative
  refine ⟨d, ?_, ?_⟩
  · rw [Binary64.text, String.toList_ofList, hread]
  · rw [Decimal.nearest?_eq_of_value_eq hvalue, m.nearest?_shortest]

theorem toInt?_eq_some_iff_value {n : ℤ} :
    (Binary64.finite negative m).toInt? = some n ↔ value negative m = n := by
  rw [Binary64.toInt?_finite_eq_some_iff, value, div_eq_iff Binary64.unitsPerOne_cast_pos.ne']
  exact_mod_cast Iff.rfl

/-- Whole numbers below the bound are displayed as integers, and no others. -/
theorem display_finite_cases :
    (∃ n : ℤ, value negative m = n ∧ |n| < 10 ^ 16 ∧
      (Number.real (.finite negative m)).display = toString n) ∨
    (¬∃ n : ℤ, value negative m = n ∧ |n| < 10 ^ 16) ∧
      (Number.real (.finite negative m)).display = (Binary64.finite negative m).text := by
  have hbound : ∀ n : ℤ, n.natAbs < Number.displayBound ↔ |n| < 10 ^ 16 := by
    intro n
    rw [Int.abs_eq_natAbs, Number.displayBound]
    exact_mod_cast Iff.rfl
  cases hwhole : (Binary64.finite negative m).toInt? with
  | none =>
    refine .inr ⟨?_, by simp only [Number.display, hwhole]⟩
    rintro ⟨n, hn, -⟩
    rw [← toInt?_eq_some_iff_value, hwhole] at hn
    cases hn
  | some n =>
    have hn := (toInt?_eq_some_iff_value negative m).mp hwhole
    by_cases hlt : |n| < 10 ^ 16
    · exact .inl ⟨n, hn, hlt, by simp only [Number.display, hwhole, hbound, hlt, if_true]⟩
    · refine .inr ⟨?_, by simp only [Number.display, hwhole, hbound, hlt, if_false]⟩
      rintro ⟨a, ha, habs⟩
      obtain rfl : n = a := Int.cast_injective (hn.symm.trans ha)
      exact hlt habs

end

/-- **The text of a finite floating-point number** is faithful. It is an integer numeral when the
number is whole and below `10 ^ 16`, and then the canonical one of the number itself. Otherwise the
number that the text denotes is in the range of the finite numbers and is rounded to this one. -/
structure DisplaysFinite (negative : Bool) (m : Magnitude) (text : String) : Prop where
  numeral_iff : IsNumeral text ↔ ∃ n : ℤ, value negative m = n ∧ |n| < 10 ^ 16
  exact : IsNumeral text → ∃ n : ℤ, value negative m = n ∧ IsCanonical text n
  zero : value negative m = 0 → text = "0"
  rounded : ¬IsNumeral text →
    HasPointOrPower text ∧ ∃ q, Denotes text q ∧ |q| < finiteLimit ∧ RoundsTo q negative m

theorem displaysFinite (negative : Bool) (m : Magnitude) :
    DisplaysFinite negative m (Number.real (.finite negative m)).display := by
  rcases display_finite_cases negative m with ⟨n, hn, hlt, htext⟩ | ⟨hno, htext⟩ <;> rw [htext]
  · have hnumeral := isNumeral_toString_int n
    refine ⟨iff_of_true hnumeral ⟨n, hn, hlt⟩, fun _ => ⟨n, hn, isCanonical_toString_int n⟩, ?_,
      fun h => absurd hnumeral h⟩
    intro hzero
    obtain rfl : n = 0 := by exact_mod_cast hn.symm.trans hzero
    rfl
  · have hpoint := hasPointOrPower_text negative m
    have hnumeral : ¬IsNumeral (Binary64.finite negative m).text :=
      fun h => h.not_hasPointOrPower hpoint
    refine ⟨iff_of_false hnumeral hno, fun h => absurd h hnumeral, ?_, ?_⟩
    · intro hzero
      exact absurd ⟨0, by rw [hzero, Int.cast_zero], by norm_num⟩ hno
    · intro _
      obtain ⟨d, hread, hnearest⟩ := read?_text negative m
      exact ⟨hpoint, _, ⟨negative, d, hread, rfl⟩, Decimal.abs_lt_of_nearest? hnearest negative,
        Decimal.roundsTo_of_nearest? hnearest negative⟩

/-! ## Reading a text back -/

/-- What a number is worth. -/
inductive Worth
  /-- A rational number. -/
  | rational (q : ℚ)
  /-- An infinity. -/
  | infinite (negative : Bool)

namespace Number

/-- What a number is worth, if it is a number: the two zeros are worth the same, and so are an
integer and a floating-point number of one value. -/
def worth? : Number → Option Worth
  | integer n => some (.rational n)
  | real .nan => none
  | real (.infinite negative) => some (.infinite negative)
  | real (.finite negative m) => some (.rational (value negative m))

/-- Read the text of a result: a numeral is exact, and a text with a point or a power of ten
is rounded. -/
def readBack? (text : String) : Option Worth :=
  match Decimal.read? text.toList with
  | some (negative, d) =>
    if HasPointOrPower text then d.nearest?.map fun m => .rational (value negative m)
    else some (.rational (withSign negative d.value))
  | none =>
    if text = "inf" then some (.infinite false)
    else if text = "-inf" then some (.infinite true)
    else none

theorem readBack?_toString_int (n : ℤ) : readBack? (toString n) = some (.rational n) := by
  have hnone := (isNumeral_toString_int n).not_hasPointOrPower
  simp only [readBack?, read?_toString_int, if_neg hnone, withSign_value_natAbs]

theorem readBack?_text (negative : Bool) (m : Magnitude) :
    readBack? (Binary64.finite negative m).text = some (.rational (value negative m)) := by
  obtain ⟨d, hread, hnearest⟩ := read?_text negative m
  simp only [readBack?, hread, if_pos (hasPointOrPower_text negative m), hnearest, Option.map_some]

/-- **Every text of a number is read back** as what the number is worth. -/
theorem readBack?_display (v : Number) : readBack? v.display = v.worth? := by
  cases v with
  | integer n => exact readBack?_toString_int n
  | real x =>
    cases x with
    | nan => rfl
    | infinite negative => cases negative <;> rfl
    | finite negative m =>
      rcases display_finite_cases negative m with ⟨n, hn, -, htext⟩ | ⟨-, htext⟩ <;> rw [htext]
      · rw [readBack?_toString_int, worth?, hn]
      · exact readBack?_text negative m

/-- **Printed results are faithful.** An integer is printed as its canonical numeral, and a finite
floating-point number faithfully, so two numbers that print the same text are worth the same. -/
theorem display_faithful :
    (∀ n : ℤ, IsCanonical (integer n).display n) ∧
    (∀ negative m, DisplaysFinite negative m (real (.finite negative m)).display) ∧
    ∀ v w : Number, v.display = w.display → v.worth? = w.worth? := by
  refine ⟨isCanonical_toString_int, displaysFinite, ?_⟩
  intro v w h
  rw [← readBack?_display, h, readBack?_display]

end Number
end Abacus
