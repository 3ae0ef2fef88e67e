import Abacus.Decimal.Layout
import Abacus.Proofs.Numeral
import Mathlib.Algebra.Field.Rat
import Mathlib.Algebra.Order.Field.Rat
import Mathlib.Tactic.FieldSimp
import Mathlib.Tactic.Ring

/-!
# Reading decimal numbers

`Decimal.read?` reads a decimal number: a sign if there is one, digits, a fraction if there is a
point, and a power of ten if there is an `e`. It is the meaning of the notation, and does not know
how a number is written. `Decimal.value` is what a decimal number is worth, and `read?_write` says
that one that is written in any layout is read with its sign and its value.
-/
namespace Abacus

/-! ## Pieces of a text -/

/-- Whether a text consists of digits, of one at least. -/
def isDigits (cs : List Char) : Bool := !cs.isEmpty && cs.all Char.isDigit

theorem isDigits_iff {cs : List Char} :
    isDigits cs = true ↔ cs ≠ [] ∧ ∀ c ∈ cs, c.isDigit = true := by
  simp [isDigits]

theorem isDigits_toDigits (n : ℕ) : isDigits (Nat.toDigits 10 n) = true :=
  isDigits_iff.mpr ⟨Nat.toDigits_ne_nil, fun _ =>
    Nat.isDigit_of_mem_toDigits (by decide) (by decide)⟩

theorem forall_isDigit_replicate (n : ℕ) : ∀ c ∈ List.replicate n '0', c.isDigit = true := by
  intro c hc
  rw [List.eq_of_mem_replicate hc]
  rfl

theorem not_mem_of_isDigits {mark : Char} (hmark : mark.isDigit = false) {cs : List Char}
    (h : isDigits cs = true) : mark ∉ cs := by
  intro hmem
  rw [(isDigits_iff.mp h).2 mark hmem] at hmark
  cases hmark

section
variable {digits : List Char} (h : isDigits digits = true)
include h

/-- Digits are not taken for a sign. -/
theorem head?_append_ne_of_isDigits (behind : List Char) :
    (digits ++ behind).head? ≠ some '-' := by
  rw [List.head?_append_of_ne_nil _ (isDigits_iff.mp h).1]
  exact fun hhead => not_mem_of_isDigits (by decide) h (List.mem_of_mem_head? hhead)

theorem isDigits_replicate_append (n : ℕ) :
    isDigits (List.replicate n '0' ++ digits) = true := by
  obtain ⟨hne, hall⟩ := isDigits_iff.mp h
  exact isDigits_iff.mpr ⟨List.append_ne_nil_of_right_ne_nil _ hne,
    List.forall_mem_append.mpr ⟨forall_isDigit_replicate n, hall⟩⟩

theorem isDigits_append_replicate (n : ℕ) :
    isDigits (digits ++ List.replicate n '0') = true := by
  obtain ⟨hne, hall⟩ := isDigits_iff.mp h
  exact isDigits_iff.mpr ⟨List.append_ne_nil_of_left_ne_nil hne _,
    List.forall_mem_append.mpr ⟨hall, forall_isDigit_replicate n⟩⟩

theorem isDigits_take {n : ℕ} (hn : 0 < n) : isDigits (digits.take n) = true := by
  obtain ⟨hne, hall⟩ := isDigits_iff.mp h
  refine isDigits_iff.mpr ⟨?_, fun c hc => hall c (List.mem_of_mem_take hc)⟩
  rw [ne_eq, List.take_eq_nil_iff, not_or]
  exact ⟨hn.ne', hne⟩

theorem isDigits_drop {n : ℕ} (hn : n < digits.length) : isDigits (digits.drop n) = true := by
  refine isDigits_iff.mpr ⟨?_, fun c hc => (isDigits_iff.mp h).2 c (List.mem_of_mem_drop hc)⟩
  rw [ne_eq, List.drop_eq_nil_iff]
  exact Nat.not_le.mpr hn

end

/-- Digits with zeros behind them. -/
theorem ofDigitChars_append_zeros (digits : List Char) (n : ℕ) :
    Nat.ofDigitChars 10 (digits ++ List.replicate n '0') 0 =
      Nat.ofDigitChars 10 digits 0 * 10 ^ n := by
  rw [Nat.ofDigitChars_append, Nat.ofDigitChars_replicate_zero, Nat.mul_comm]

/-- The part of a text in front of a mark, and the part behind it if the mark occurs. -/
def cutAt (mark : Char) : List Char → List Char × Option (List Char)
  | [] => ([], none)
  | c :: cs =>
    if c = mark then ([], some cs)
    else (c :: (cutAt mark cs).1, (cutAt mark cs).2)

theorem cutAt_append_cons {mark : Char} {front : List Char} (h : mark ∉ front)
    (behind : List Char) : cutAt mark (front ++ mark :: behind) = (front, some behind) := by
  induction front with
  | nil => simp [cutAt]
  | cons c front ih =>
    obtain ⟨hc, hfront⟩ := not_or.mp (mt List.mem_cons.mpr h)
    rw [List.cons_append, cutAt, if_neg (Ne.symm hc), ih hfront]

theorem cutAt_of_not_mem {mark : Char} {cs : List Char} (h : mark ∉ cs) :
    cutAt mark cs = (cs, none) := by
  induction cs with
  | nil => rfl
  | cons c cs ih =>
    obtain ⟨hc, hcs⟩ := not_or.mp (mt List.mem_cons.mpr h)
    rw [cutAt, if_neg (Ne.symm hc), ih hcs]

namespace Decimal

/-! ## Reading -/

/-- What a decimal number is worth. -/
def value (d : Decimal) : ℚ := d.coefficient * 10 ^ d.exponent

/-- Read digits, and a fraction if there is a point. -/
def readPlain? (cs : List Char) : Option Decimal :=
  match cutAt '.' cs with
  | (whole, none) => if isDigits whole then some ⟨Nat.ofDigitChars 10 whole 0, 0⟩ else none
  | (whole, some fraction) =>
    if isDigits whole && isDigits fraction then
      some ⟨Nat.ofDigitChars 10 (whole ++ fraction) 0, -fraction.length⟩
    else none

/-- Read an integer, with or without a sign. -/
def readPower? : List Char → Option ℤ
  | '-' :: digits => if isDigits digits then some (-(Nat.ofDigitChars 10 digits 0 : ℕ)) else none
  | '+' :: digits => if isDigits digits then some (Nat.ofDigitChars 10 digits 0 : ℕ) else none
  | digits => if isDigits digits then some (Nat.ofDigitChars 10 digits 0 : ℕ) else none

/-- Read a decimal number without a sign: a plain one, and a power of ten if there is an `e`. -/
def readUnsigned? (cs : List Char) : Option Decimal :=
  match cutAt 'e' cs with
  | (plain, none) => readPlain? plain
  | (plain, some power) =>
    match readPlain? plain, readPower? power with
    | some d, some p => some ⟨d.coefficient, d.exponent + p⟩
    | _, _ => none

/-- Read a decimal number: whether it has a minus sign, and the number behind. -/
def read? : List Char → Option (Bool × Decimal)
  | '-' :: cs => (readUnsigned? cs).map (true, ·)
  | cs => (readUnsigned? cs).map (false, ·)

/-- A sign is read when the text behind it has none. -/
theorem read?_append {cs : List Char} {d : Decimal} (hfront : cs.head? ≠ some '-')
    (h : readUnsigned? cs = some d) (negative : Bool) :
    read? ((if negative then ['-'] else []) ++ cs) = some (negative, d) := by
  cases negative with
  | true => simp only [if_true, List.singleton_append, read?, h, Option.map_some]
  | false =>
    have hsign : ∀ rest, cs ≠ '-' :: rest := by
      rintro rest rfl
      exact hfront rfl
    simp only [Bool.false_eq_true, if_false, List.nil_append]
    rw [read?.eq_2 _ hsign, h, Option.map_some]

/-! ## Reading what is written -/

section
variable {digits : List Char} (h : isDigits digits = true)
include h

theorem readPlain?_digits : readPlain? digits = some ⟨Nat.ofDigitChars 10 digits 0, 0⟩ := by
  rw [readPlain?, cutAt_of_not_mem (not_mem_of_isDigits (by decide) h)]
  exact if_pos h

theorem readUnsigned?_digits :
    readUnsigned? digits = some ⟨Nat.ofDigitChars 10 digits 0, 0⟩ := by
  rw [readUnsigned?, cutAt_of_not_mem (not_mem_of_isDigits (by decide) h)]
  exact readPlain?_digits h

theorem readPlain?_point {fraction : List Char} (hfraction : isDigits fraction = true) :
    readPlain? (digits ++ '.' :: fraction) =
      some ⟨Nat.ofDigitChars 10 (digits ++ fraction) 0, -fraction.length⟩ := by
  rw [readPlain?, cutAt_append_cons (not_mem_of_isDigits (by decide) h)]
  simp only [h, hfraction, Bool.and_self, if_true]

/-- **The positional form** is digits, a point, and digits; the point says what they are worth. -/
theorem exists_positional_eq (exponent : ℤ) :
    ∃ whole fraction, isDigits whole = true ∧ isDigits fraction = true ∧
      positional digits exponent = whole ++ '.' :: fraction ∧
      value ⟨Nat.ofDigitChars 10 (whole ++ fraction) 0, -fraction.length⟩ =
        value ⟨Nat.ofDigitChars 10 digits 0, exponent⟩ := by
  have hlength := List.length_pos_of_ne_nil (isDigits_iff.mp h).1
  simp only [positional]
  split
  · -- The zeros that fill up to the point, and the one behind it, scale the coefficient.
    obtain ⟨n, rfl⟩ : ∃ n : ℕ, exponent = n := ⟨exponent.toNat, by omega⟩
    refine ⟨digits ++ List.replicate n '0', ['0'], isDigits_append_replicate h n, by decide,
      rfl, ?_⟩
    have hzeros : digits ++ List.replicate n '0' ++ ['0'] =
        digits ++ List.replicate (n + 1) '0' := by
      rw [List.append_assoc, List.replicate_succ']
    rw [hzeros, ofDigitChars_append_zeros]
    simp only [value, List.length_singleton]
    push_cast
    rw [zpow_neg_one, zpow_natCast]
    field_simp
    ring
  · next hplaces =>
    split
    · next hlt =>
      refine ⟨_, _, isDigits_take h (by omega), isDigits_drop h (by omega), rfl, ?_⟩
      rw [List.take_append_drop, List.length_drop]
      congr 2
      omega
    · next hle =>
      refine ⟨['0'], _, by decide, isDigits_replicate_append h _, rfl, ?_⟩
      rw [List.length_append, List.length_replicate, List.singleton_append, ← List.cons_append,
        ← List.replicate_succ, ofDigitChars_replicate_append]
      congr 2
      omega

theorem readUnsigned?_positional (exponent : ℤ) :
    ∃ d, readUnsigned? (positional digits exponent) = some d ∧
      d.value = value ⟨Nat.ofDigitChars 10 digits 0, exponent⟩ := by
  obtain ⟨whole, fraction, hwhole, hfraction, htext, hvalue⟩ := exists_positional_eq h exponent
  have hletter : 'e' ∉ whole ++ '.' :: fraction := by
    rw [List.mem_append, List.mem_cons, not_or, not_or]
    exact ⟨not_mem_of_isDigits (by decide) hwhole, by decide,
      not_mem_of_isDigits (by decide) hfraction⟩
  refine ⟨_, ?_, hvalue⟩
  rw [htext, readUnsigned?, cutAt_of_not_mem hletter]
  exact readPlain?_point hwhole hfraction

/-- The leading digit, and the others behind a point. -/
theorem readPlain?_scientific :
    readPlain? (digits.take 1 ++
        if (digits.drop 1).isEmpty then [] else '.' :: digits.drop 1) =
      some ⟨Nat.ofDigitChars 10 digits 0, 1 - digits.length⟩ := by
  have hone : isDigits (digits.take 1) = true := isDigits_take h Nat.one_pos
  split
  · next hempty =>
    have hlength : digits.length ≤ 1 := List.drop_eq_nil_iff.mp (List.isEmpty_iff.mp hempty)
    have hpos := List.length_pos_of_ne_nil (isDigits_iff.mp h).1
    rw [List.append_nil, List.take_of_length_le hlength, readPlain?_digits h]
    congr 2
    omega
  · next hfraction =>
    have hlength : 1 < digits.length := by
      rw [List.isEmpty_iff, List.drop_eq_nil_iff] at hfraction
      omega
    rw [readPlain?_point hone (isDigits_drop h hlength), List.take_append_drop, List.length_drop]
    congr 2
    omega

end

/-- A power of ten is read with its sign, whatever its width. -/
theorem readPower?_signedPower (width : ℕ) (power : ℤ) :
    readPower? (signedPower width power) = some power := by
  have hdigits := isDigits_replicate_append (isDigits_toDigits power.natAbs)
    (width - (Nat.toDigits 10 power.natAbs).length)
  have hvalue : Nat.ofDigitChars 10 (List.replicate
      (width - (Nat.toDigits 10 power.natAbs).length) '0' ++ Nat.toDigits 10 power.natAbs) 0 =
      power.natAbs := by
    rw [ofDigitChars_replicate_append, Nat.ofDigitChars_ten_toDigits]
  rw [signedPower]
  split
  · next hneg =>
    rw [List.cons_append, readPower?, if_pos hdigits, hvalue, Int.ofNat_natAbs_of_nonpos hneg.le,
      Int.neg_neg]
  · next hneg =>
    rw [List.cons_append, readPower?, if_pos hdigits, hvalue,
      Int.natAbs_of_nonneg (Int.not_lt.mp hneg)]

theorem readUnsigned?_scientific {digits : List Char} (h : isDigits digits = true) (width : ℕ)
    (power : ℤ) : readUnsigned? (scientific width digits power) =
      some ⟨Nat.ofDigitChars 10 digits 0, 1 - digits.length + power⟩ := by
  have hdigits : 'e' ∉ digits := not_mem_of_isDigits (by decide) h
  have hletter : 'e' ∉ digits.take 1 ++
      (if (digits.drop 1).isEmpty then [] else '.' :: digits.drop 1) := by
    rw [List.mem_append, not_or]
    refine ⟨fun hmem => hdigits (List.mem_of_mem_take hmem), ?_⟩
    split
    · exact List.not_mem_nil
    · rw [List.mem_cons, not_or]
      exact ⟨by decide, fun hmem => hdigits (List.mem_of_mem_drop hmem)⟩
  rw [readUnsigned?, scientific, cutAt_append_cons hletter]
  simp only [readPlain?_scientific h, readPower?_signedPower]

section
variable (layout : DecimalLayout) (d : Decimal)

theorem isDigits_digits : isDigits d.digits = true := isDigits_toDigits d.coefficient

theorem ofDigitChars_digits : Nat.ofDigitChars 10 d.digits 0 = d.coefficient :=
  Nat.ofDigitChars_ten_toDigits

/-- What is written without a sign is read with its value. -/
theorem readUnsigned?_write :
    ∃ d', readUnsigned? (d.write layout) = some d' ∧ d'.value = d.value := by
  rw [write]
  split
  · obtain ⟨d', hread, hvalue⟩ := readUnsigned?_positional d.isDigits_digits d.exponent
    rw [ofDigitChars_digits] at hvalue
    exact ⟨d', hread, hvalue⟩
  · refine ⟨_, readUnsigned?_scientific d.isDigits_digits _ _, ?_⟩
    rw [ofDigitChars_digits, leadExponent]
    congr 2
    omega

/-- A decimal number is written with a digit in front. -/
theorem head?_write_ne : (d.write layout).head? ≠ some '-' := by
  rw [write]
  split
  · obtain ⟨whole, fraction, hwhole, -, htext, -⟩ :=
      exists_positional_eq d.isDigits_digits d.exponent
    rw [htext]
    exact head?_append_ne_of_isDigits hwhole _
  · rw [scientific, List.append_assoc]
    exact head?_append_ne_of_isDigits (isDigits_take d.isDigits_digits Nat.one_pos) _

/-- **The written form of a decimal number is no integer**: it has a point or a power of ten. -/
theorem point_or_letter_mem_write : '.' ∈ d.write layout ∨ 'e' ∈ d.write layout := by
  rw [write]
  split
  · obtain ⟨whole, fraction, -, -, htext, -⟩ := exists_positional_eq d.isDigits_digits d.exponent
    exact .inl (by rw [htext]; simp)
  · exact .inr (by rw [scientific]; simp)

/-- **What is written is read with its sign and its value**, in any layout. -/
theorem read?_write (negative : Bool) :
    ∃ d', read? ((if negative then ['-'] else []) ++ d.write layout) = some (negative, d') ∧
      d'.value = d.value := by
  obtain ⟨d', hread, hvalue⟩ := readUnsigned?_write layout d
  exact ⟨d', read?_append (head?_write_ne layout d) hread negative, hvalue⟩

end

example : write ⟨-4, 16, 2⟩ ⟨125, -9⟩ = "1.25e-07".toList ∧
    read? "-1.25e-07".toList = some (true, ⟨125, -9⟩) := by decide

end Decimal
end Abacus
