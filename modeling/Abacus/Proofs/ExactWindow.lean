import Abacus.Proofs.LeftFold
import Abacus.Proofs.Nearest
import Mathlib.Tactic.NormNum
import Mathlib.Tactic.Ring

/-!
# Where floating-point arithmetic is exact

Whole floating-point numbers of at most 53 bits add, multiply and divide exactly as long as the
result is such a number again; `Binary64.toInt?` is the whole number, for both zeros. So a line
whose exact left fold stays in this window from its first division on is displayed as if there were
no floating-point numbers at all (`display_of_exactWindow`).
-/
namespace Abacus

namespace Binary64

/-! ## Whole numbers -/

theorem unitsPerOne_ne_zero : (unitsPerOne : ℤ) ≠ 0 := Nat.cast_ne_zero.mpr unitsPerOne_pos.ne'

@[simp] theorem signedUnits_true (m : Magnitude) : signedUnits true m = -(m.units : ℤ) := rfl

@[simp] theorem signedUnits_false (m : Magnitude) : signedUnits false m = m.units := rfl

/-- A number is the whole number that its units are a multiple of one by. -/
theorem toInt?_finite_eq_some_iff {negative : Bool} {m : Magnitude} {a : ℤ} :
    (finite negative m).toInt? = some a ↔ signedUnits negative m = a * unitsPerOne := by
  rw [toInt?]
  split
  · next hmod =>
    obtain ⟨k, hk⟩ := Nat.dvd_of_mod_eq_zero hmod
    have hunits : (m.units : ℤ) = k * unitsPerOne := by rw [hk, Nat.cast_mul, Int.mul_comm]
    have hdiv : (m.units : ℤ) / unitsPerOne = k := by
      rw [hunits, Int.mul_ediv_cancel _ unitsPerOne_ne_zero]
    rw [hdiv, Option.some.injEq]
    cases negative with
    | false =>
      rw [signedUnits_false, hunits, Int.mul_eq_mul_right_iff unitsPerOne_ne_zero]
      rfl
    | true =>
      rw [signedUnits_true, hunits, ← Int.neg_mul, Int.mul_eq_mul_right_iff unitsPerOne_ne_zero]
      rfl
  · next hmod =>
    have hnot : ∀ b : ℤ, (m.units : ℤ) ≠ b * unitsPerOne := by
      intro b hb
      have hdvd : (unitsPerOne : ℤ) ∣ m.units := ⟨b, by rw [hb, Int.mul_comm]⟩
      exact hmod (Nat.mod_eq_zero_of_dvd (Int.natCast_dvd_natCast.mp hdvd))
    cases negative with
    | false => exact iff_of_false (Option.some_ne_none a).symm (hnot a)
    | true =>
      have hneg := hnot (-a)
      rw [Int.neg_mul] at hneg
      refine iff_of_false (Option.some_ne_none a).symm ?_
      rw [signedUnits_true]
      omega

theorem exists_finite_of_toInt? {x : Binary64} {a : ℤ} (h : x.toInt? = some a) :
    ∃ negative m, x = .finite negative m ∧ signedUnits negative m = a * unitsPerOne := by
  cases x with
  | nan => simp [toInt?] at h
  | infinite negative => simp [toInt?] at h
  | finite negative m => exact ⟨negative, m, rfl, toInt?_finite_eq_some_iff.mp h⟩

/-- The units of a whole number, and its sign where it is not zero. -/
theorem units_of_signedUnits {negative : Bool} {m : Magnitude} {a : ℤ}
    (h : signedUnits negative m = a * unitsPerOne) :
    m.units = a.natAbs * unitsPerOne ∧ (a ≠ 0 → (negative = true ↔ a < 0)) := by
  have hpos : (0 : ℤ) < unitsPerOne := Int.natCast_pos.mpr unitsPerOne_pos
  have habs : (signedUnits negative m).natAbs = m.units := by cases negative <;> simp
  constructor
  · rw [← habs, h, Int.natAbs_mul, Int.natAbs_natCast]
  · intro ha
    cases negative with
    | false =>
      have hnonneg : 0 ≤ a * (unitsPerOne : ℤ) := h ▸ Int.natCast_nonneg m.units
      have := nonneg_of_mul_nonneg_left hnonneg hpos
      simp only [Bool.false_eq_true, false_iff]
      omega
    | true =>
      have hnonpos : a * (unitsPerOne : ℤ) ≤ 0 := by
        rw [← h, signedUnits_true]
        omega
      have := nonpos_of_mul_nonpos_left hnonpos hpos
      simp only [true_iff]
      omega

theorem toInt?_whole {negative : Bool} {a : ℤ} (h : a.natAbs ≤ powTwo 53)
    (hsign : a ≠ 0 → (negative = true ↔ a < 0)) :
    (finite negative (.whole a.natAbs h)).toInt? = some a := by
  rw [toInt?_finite_eq_some_iff]
  by_cases ha : a = 0
  · subst ha
    have hzero : ((Magnitude.whole (Int.natAbs 0) h).units : ℤ) = 0 := by
      rw [Magnitude.units_whole, Int.natAbs_zero, Nat.zero_mul, Nat.cast_zero]
    rw [Int.zero_mul]
    cases negative with
    | false => exact hzero
    | true => rw [signedUnits_true, hzero, Int.neg_zero]
  · cases negative with
    | false =>
      have hle : 0 ≤ a := by simpa using hsign ha
      rw [signedUnits_false, Magnitude.units_whole, Nat.cast_mul, Int.natAbs_of_nonneg hle]
    | true =>
      have hlt : a < 0 := by simpa using hsign ha
      rw [signedUnits_true, Magnitude.units_whole, Nat.cast_mul, ← Int.neg_mul,
        Int.ofNat_natAbs_of_nonpos hlt.le, Int.neg_neg]

/-- **A quotient that is a whole number of at most 53 bits** is not rounded. -/
theorem toInt?_nearest {negative : Bool} {num den : ℕ} {a : ℤ} (hden : 0 < den)
    (hnum : num = a.natAbs * unitsPerOne * den) (hsign : a ≠ 0 → (negative = true ↔ a < 0))
    (h : a.natAbs ≤ powTwo 53) : (nearest negative num den).toInt? = some a := by
  rw [hnum, nearest_of_some (Magnitude.nearest_whole h hden)]
  exact toInt?_whole h hsign

/-! ## Exact operations -/

/-- Two signs differ when the product is negative. -/
theorem bne_eq_true_iff_mul_neg {s t : Bool} {a b : ℤ} (hs : s = true ↔ a < 0)
    (ht : t = true ↔ b < 0) (hab : a * b ≠ 0) : (s != t) = true ↔ a * b < 0 := by
  obtain ⟨ha, hb⟩ := Int.mul_ne_zero_iff.mp hab
  rw [mul_neg_iff]
  cases s <;> cases t <;> simp at hs ht ⊢ <;> omega

theorem bne_eq_true_iff_neg_of_mul {s t : Bool} {a b : ℤ} (hs : s = true ↔ a * b < 0)
    (ht : t = true ↔ b < 0) (hab : a * b ≠ 0) : (s != t) = true ↔ a < 0 := by
  have hfirst := bne_eq_true_iff_mul_neg (s := decide (a < 0)) decide_eq_true_iff ht hab
  rw [Bool.eq_iff_iff.mpr (hs.trans hfirst.symm)]
  cases t <;> simp

section Operations
variable {x y : Binary64} {a b c : ℤ}

theorem toInt?_zero (negative : Bool) : (zero negative).toInt? = some 0 := by
  rw [zero, toInt?_finite_eq_some_iff, Int.zero_mul]
  cases negative <;> rfl

theorem toInt?_neg (hx : x.toInt? = some a) : x.neg.toInt? = some (-a) := by
  obtain ⟨s, m, rfl, hm⟩ := exists_finite_of_toInt? hx
  rw [neg, toInt?_finite_eq_some_iff, Int.neg_mul, ← hm]
  cases s <;> simp

theorem toInt?_add (hx : x.toInt? = some a) (hy : y.toInt? = some b)
    (h : (a + b).natAbs ≤ powTwo 53) : (x.add y).toInt? = some (a + b) := by
  obtain ⟨s, m, rfl, hm⟩ := exists_finite_of_toInt? hx
  obtain ⟨t, n, rfl, hn⟩ := exists_finite_of_toInt? hy
  have hpos : (0 : ℤ) < unitsPerOne := Int.natCast_pos.mpr unitsPerOne_pos
  have hsum : signedUnits s m + signedUnits t n = (a + b) * unitsPerOne := by
    rw [hm, hn, Int.add_mul]
  rw [add_finite, hsum]
  split
  · next hzero =>
    have hab : a + b = 0 := (Int.mul_eq_zero.mp hzero).resolve_right unitsPerOne_ne_zero
    rw [hab]
    exact toInt?_zero _
  · refine toInt?_nearest Nat.one_pos ?_ ?_ h
    · rw [Int.natAbs_mul, Int.natAbs_natCast, Nat.mul_one]
    · intro _
      rw [decide_eq_true_iff]
      rw [mul_neg_iff]
      simp only [hpos, hpos.not_gt, and_true, and_false, false_or]

theorem toInt?_sub (hx : x.toInt? = some a) (hy : y.toInt? = some b)
    (h : (a - b).natAbs ≤ powTwo 53) : (x.sub y).toInt? = some (a - b) :=
  toInt?_add hx (toInt?_neg hy) h

theorem toInt?_mul (hx : x.toInt? = some a) (hy : y.toInt? = some b)
    (h : (a * b).natAbs ≤ powTwo 53) : (x.mul y).toInt? = some (a * b) := by
  obtain ⟨s, m, rfl, hm⟩ := exists_finite_of_toInt? hx
  obtain ⟨t, n, rfl, hn⟩ := exists_finite_of_toInt? hy
  obtain ⟨hunits, hs⟩ := units_of_signedUnits hm
  obtain ⟨hunits', ht⟩ := units_of_signedUnits hn
  rw [mul_finite]
  refine toInt?_nearest unitsPerOne_pos ?_ ?_ h
  · rw [hunits, hunits', Int.natAbs_mul]
    ring
  · intro hab
    obtain ⟨ha, hb⟩ := Int.mul_ne_zero_iff.mp hab
    exact bne_eq_true_iff_mul_neg (hs ha) (ht hb) hab

theorem toInt?_div (hx : x.toInt? = some (c * b)) (hy : y.toInt? = some b) (hb : b ≠ 0)
    (h : c.natAbs ≤ powTwo 53) : (x.div y).toInt? = some c := by
  obtain ⟨s, m, rfl, hm⟩ := exists_finite_of_toInt? hx
  obtain ⟨t, n, rfl, hn⟩ := exists_finite_of_toInt? hy
  obtain ⟨hunits, hs⟩ := units_of_signedUnits hm
  obtain ⟨hunits', ht⟩ := units_of_signedUnits hn
  have hdivisor : 0 < n.units := hunits' ▸ Nat.mul_pos (Int.natAbs_pos.mpr hb) unitsPerOne_pos
  rw [div_finite _ _ _ hdivisor.ne']
  refine toInt?_nearest hdivisor ?_ ?_ h
  · rw [hunits, hunits', Int.natAbs_mul]
    ring
  · intro hc
    have hcb : c * b ≠ 0 := Int.mul_ne_zero hc hb
    exact bne_eq_true_iff_neg_of_mul (hs hcb) (ht hb) hcb

/-- An integer of at most 53 bits is converted to itself. -/
theorem exists_ofInt?_toInt? (h : a.natAbs ≤ powTwo 53) :
    ∃ z, ofInt? a = some z ∧ z.toInt? = some a :=
  ⟨_, ofInt?_eq_some h, toInt?_whole h fun _ => decide_eq_true_iff⟩

/-- A quotient of integers of any size that is an integer of at most 53 bits is not rounded. -/
theorem exists_ofQuotient?_toInt? (hb : b ≠ 0) (h : c.natAbs ≤ powTwo 53) :
    ∃ z, ofQuotient? (c * b) b = some z ∧ z.toInt? = some c := by
  have hnum : (c * b).natAbs * unitsPerOne = c.natAbs * unitsPerOne * b.natAbs := by
    rw [Int.natAbs_mul]
    ring
  rw [ofQuotient?, hnum, Magnitude.nearest_whole h (Int.natAbs_pos.mpr hb)]
  refine ⟨_, rfl, toInt?_whole h fun hc => ?_⟩
  exact bne_eq_true_iff_neg_of_mul decide_eq_true_iff decide_eq_true_iff (Int.mul_ne_zero hc hb)

/-- **One pair** with a literal of at most 53 bits is exact on whole numbers, if its exact result is
such a number. -/
theorem operate?_toInt? {op : Operator} (hx : x.toInt? = some a) (hy : y.toInt? = some b)
    (hdivisor : op = .divide → b ≠ 0) (hq : op.exact a b = c) (h : c.natAbs ≤ powTwo 53) :
    ∃ z, x.operate? op y = some z ∧ z.toInt? = some c := by
  cases op with
  | plus =>
    rw [Operator.exact] at hq
    obtain rfl : a + b = c := by exact_mod_cast hq
    exact ⟨_, rfl, toInt?_add hx hy h⟩
  | minus =>
    rw [Operator.exact] at hq
    obtain rfl : a - b = c := by exact_mod_cast hq
    exact ⟨_, rfl, toInt?_sub hx hy h⟩
  | multiply =>
    rw [Operator.exact] at hq
    obtain rfl : a * b = c := by exact_mod_cast hq
    exact ⟨_, rfl, toInt?_mul hx hy h⟩
  | divide =>
    have hb := hdivisor rfl
    obtain rfl : a = c * b := by
      rw [Operator.exact, div_eq_iff (Int.cast_ne_zero.mpr hb)] at hq
      exact_mod_cast hq
    obtain ⟨t, n, rfl, hn⟩ := exists_finite_of_toInt? hy
    have hunits : n.units ≠ 0 := by
      rw [(units_of_signedUnits hn).1]
      exact (Nat.mul_pos (Int.natAbs_pos.mpr hb) unitsPerOne_pos).ne'
    refine ⟨x.div (.finite t n), ?_, toInt?_div hx hy hb h⟩
    simp [operate?, isZero, hunits]

end Operations
end Binary64

/-! ## A left fold in the window -/

/-- A rational number is an integer of at most 53 bits, or `2 ^ 53` itself up to sign. -/
def InWindow (q : ℚ) : Prop := ∃ c : ℤ, q = c ∧ |c| ≤ 2 ^ 53

/-- From the first division on, the exact left fold and the integers that are read stay in the
window; in front of it they may be of any size, as may the operands of that division. -/
def ExactWindow (first : ℤ) (pairs : List (Operator × ℤ)) : Prop :=
  ∀ m divisor, pairs[m]? = some (.divide, divisor) → (∀ pair ∈ pairs.take m, pair.1 ≠ .divide) →
    (∀ k, m < k → k ≤ pairs.length → InWindow (exactFold first (pairs.take k))) ∧
      ∀ k pair, m < k → pairs[k]? = some pair → pair.2 ≤ 2 ^ 53

theorem natAbs_le_powTwo {c : ℤ} (h : |c| ≤ 2 ^ 53) : c.natAbs ≤ powTwo 53 := by
  rw [Int.abs_eq_natAbs] at h
  exact_mod_cast h

/-- **Whole numbers in the window** fold exactly. -/
theorem reducePairs_real {pairs : List (Operator × ℤ)} {x : Binary64} {a : ℤ}
    (hx : x.toInt? = some a) (hliterals : ∀ pair ∈ pairs, |pair.2| ≤ 2 ^ 53)
    (hdivisors : ∀ pair ∈ pairs, pair.1 = .divide → pair.2 ≠ 0)
    (hwindow : ∀ k ≤ pairs.length, InWindow (exactFold a (pairs.take k))) :
    ∃ y c, reducePairs (.real x) pairs = .ok (.real y) ∧ y.toInt? = some c ∧
      exactFold a pairs = c := by
  induction pairs generalizing x a with
  | nil => exact ⟨x, a, rfl, hx, rfl⟩
  | cons pair pairs ih =>
    obtain ⟨op, n⟩ := pair
    have hn := natAbs_le_powTwo (hliterals (op, n) List.mem_cons_self)
    obtain ⟨b, hb, hbound⟩ := hwindow 1 (by simp)
    replace hb : op.exact a n = b := hb
    obtain ⟨y, hy, hyn⟩ := Binary64.exists_ofInt?_toInt? hn
    obtain ⟨z, hz, hzb⟩ := Binary64.operate?_toInt? hx hyn (hdivisors (op, n) List.mem_cons_self)
      hb (natAbs_le_powTwo hbound)
    have hresult : (Number.real x).operate op (.integer n) = .ok (.real z) :=
      Number.operate_real_integer_iff.mpr ⟨y, z, hy, hz, rfl⟩
    rw [reducePairs_cons, hresult, exactFold_cons, hb]
    refine ih hzb (fun p hp => hliterals p (List.mem_cons_of_mem _ hp))
      (fun p hp => hdivisors p (List.mem_cons_of_mem _ hp)) ?_
    intro k hk
    have hnext := hwindow (k + 1) (by simpa using hk)
    rwa [List.take_succ_cons, exactFold_cons, hb] at hnext

/-- The first division of integers of any size is exact when its result is in the window. -/
theorem operate_divide_of_inWindow {a n : ℤ} (hn : n ≠ 0)
    (hwindow : InWindow (Operator.divide.exact a n)) :
    ∃ x c, (Number.integer a).operate .divide (.integer n) = .ok (.real x) ∧ x.toInt? = some c ∧
      Operator.divide.exact a n = c := by
  obtain ⟨c, hc, hbound⟩ := hwindow
  obtain rfl : a = c * n := by
    rw [Operator.exact, div_eq_iff (Int.cast_ne_zero.mpr hn)] at hc
    exact_mod_cast hc
  obtain ⟨x, hx, hxc⟩ := Binary64.exists_ofQuotient?_toInt? hn (natAbs_le_powTwo hbound)
  refine ⟨x, c, ?_, hxc, hc⟩
  rw [Number.operate_integer_integer, Number.applyIntegers, if_neg hn, hx]

/-- Pairs without a division, or the pairs in front of the first one, it, and those behind it. -/
theorem no_divide_or_first_divide (pairs : List (Operator × ℤ)) :
    (∀ pair ∈ pairs, pair.1 ≠ .divide) ∨
      ∃ before divisor after, pairs = before ++ (.divide, divisor) :: after ∧
        ∀ pair ∈ before, pair.1 ≠ .divide := by
  induction pairs with
  | nil => exact .inl (by simp)
  | cons pair pairs ih =>
    obtain ⟨op, n⟩ := pair
    by_cases hop : op = .divide
    · exact .inr ⟨[], n, pairs, by rw [hop]; rfl, by simp⟩
    · rcases ih with hno | ⟨before, divisor, after, rfl, hbefore⟩
      · exact .inl (by simpa [hop] using hno)
      · exact .inr ⟨(op, n) :: before, divisor, after, rfl, by simpa [hop] using hbefore⟩

/-- A whole floating-point number in the window is displayed as the integer that it is. -/
theorem display_real {x : Binary64} {c : ℤ} (hx : x.toInt? = some c) (h : |c| ≤ 2 ^ 53) :
    (Number.real x).display = toString c := by
  have hlt : c.natAbs < Number.displayBound :=
    (natAbs_le_powTwo h).trans_lt (by decide)
  simp only [Number.display, hx, hlt, if_true]

theorem reducePairs_of_exactWindow {first : ℤ} {before after : List (Operator × ℤ)} {divisor : ℤ}
    (hbefore : ∀ pair ∈ before, pair.1 ≠ .divide)
    (hnonneg : ∀ pair ∈ before ++ (.divide, divisor) :: after, 0 ≤ pair.2)
    (hdivisors : ∀ pair ∈ before ++ (.divide, divisor) :: after, pair.1 = .divide → pair.2 ≠ 0)
    (hwindow : ExactWindow first (before ++ (.divide, divisor) :: after)) :
    ∃ x c, reducePairs (.integer first) (before ++ (.divide, divisor) :: after) = .ok (.real x) ∧
      x.toInt? = some c ∧ exactFold first (before ++ (.divide, divisor) :: after) = c := by
  obtain ⟨hfolds, hliterals⟩ := hwindow before.length divisor (by simp) (by simpa using hbefore)
  obtain ⟨a, ha, hfirst⟩ := reducePairs_of_no_divide hbefore first
  have hrest : ∀ k ≤ after.length,
      InWindow (exactFold (Operator.divide.exact a divisor) (after.take k)) := by
    intro k hk
    have hfold := hfolds (before.length + (k + 1)) (by omega)
      (by simp only [List.length_append, List.length_cons]; omega)
    rwa [List.take_length_add_append, List.take_succ_cons, exactFold_append, ← hfirst,
      exactFold_cons] at hfold
  obtain ⟨x, b, hx, hxb, hb⟩ :=
    operate_divide_of_inWindow (hdivisors (.divide, divisor) (by simp) rfl)
      (hrest 0 (Nat.zero_le _))
  rw [hb] at hrest
  obtain ⟨y, c, hy, hyc, hc⟩ := reducePairs_real hxb
    (fun pair hpair => by
      obtain ⟨i, hi⟩ := List.getElem?_of_mem hpair
      rw [abs_of_nonneg (hnonneg pair (by simp [hpair]))]
      exact hliterals (before.length + (i + 1)) pair (by omega)
        (by rw [List.getElem?_append_right (by omega)]; simpa using hi))
    (fun pair hpair => hdivisors pair (by simp [hpair])) hrest
  refine ⟨y, c, ?_, hyc, ?_⟩
  · rw [reducePairs_append, ha]
    simp only
    rw [reducePairs_cons, hx]
    exact hy
  · rw [exactFold_append, ← hfirst, exactFold_cons, hb, hc]

/-- **A line in the window is displayed exactly.** From the first division on the calculation is in
floating-point numbers, but its result is written as the integer that the exact left fold is. -/
theorem display_of_exactWindow {line : List Char} {first : ℤ} {pairs : List (Operator × ℤ)}
    (hpairs : WholePairs line first pairs)
    (hdivisors : ∀ pair ∈ pairs, pair.1 = .divide → pair.2 ≠ 0)
    (hwindow : ExactWindow first pairs) :
    ∃ (v : Number) (n : ℤ), outcome line = .ok v ∧ exactFold first pairs = n ∧
      v.display = toString n := by
  rw [outcome_of_wholePairs hpairs]
  rcases no_divide_or_first_divide pairs with hno | ⟨before, divisor, after, rfl, hbefore⟩
  · obtain ⟨n, hn, hfold⟩ := reducePairs_of_no_divide hno first
    exact ⟨.integer n, n, by rw [hn]; rfl, hfold.symm, rfl⟩
  · obtain ⟨x, n, hx, hxn, hn⟩ :=
      reducePairs_of_exactWindow hbefore hpairs.nonneg.2 hdivisors hwindow
    obtain ⟨hfolds, -⟩ := hwindow before.length divisor (by simp) (by simpa using hbefore)
    obtain ⟨c, hc, hbound⟩ := hfolds _ (by simp) le_rfl
    rw [List.take_length, hn, Int.cast_inj] at hc
    exact ⟨.real x, n, by rw [hx]; rfl, hn, display_real hxn (hc ▸ hbound)⟩

/-- A quotient below zero times zero is negative zero, and is displayed without its sign. -/
theorem display_negative_zero :
    WholePairs ['0', '-', '5', '/', '5', '*', '0'] 0 [(.minus, 5), (.divide, 5), (.multiply, 0)] ∧
      (∀ pair ∈ [(Operator.minus, (5 : ℤ)), (.divide, 5), (.multiply, 0)],
        pair.1 = .divide → pair.2 ≠ 0) ∧
      ExactWindow 0 [(.minus, 5), (.divide, 5), (.multiply, 0)] ∧
      outcome ['0', '-', '5', '/', '5', '*', '0'] = .ok (.real (.zero true)) ∧
      (Number.real (.zero true)).display = "0" := by
  have hpairs : WholePairs ['0', '-', '5', '/', '5', '*', '0'] 0
      [(.minus, 5), (.divide, 5), (.multiply, 0)] :=
    ⟨[.literal 0 0, .operatorAt .minus 1, .literal 5 2, .operatorAt .divide 3, .literal 5 4,
      .operatorAt .multiply 5, .literal 0 6], by decide, by decide, by decide⟩
  have hdivisors : ∀ pair ∈ [(Operator.minus, (5 : ℤ)), (.divide, 5), (.multiply, 0)],
      pair.1 = .divide → pair.2 ≠ 0 := by decide
  have hwindow : ExactWindow 0 [(.minus, 5), (.divide, 5), (.multiply, 0)] := by
    rintro (_ | _ | _ | m) divisor hdivide -
    · simp at hdivide
    · refine ⟨?_, ?_⟩
      · intro k hk hlength
        simp only [List.length_cons, List.length_nil] at hlength
        obtain rfl | rfl : k = 2 ∨ k = 3 := by omega
        · exact ⟨-1, by norm_num [exactFold, Operator.exact], by norm_num⟩
        · exact ⟨0, by norm_num [exactFold, Operator.exact], by norm_num⟩
      · rintro (_ | _ | _ | k) pair hk hpair
        · omega
        · omega
        · obtain rfl := Option.some.inj hpair
          norm_num
        · simp at hpair
    · simp at hdivide
    · simp at hdivide
  have hvalue : outcome ['0', '-', '5', '/', '5', '*', '0'] = .ok (.real (.zero true)) := by
    decide +kernel
  obtain ⟨v, n, hv, hfold, hdisplay⟩ := display_of_exactWindow hpairs hdivisors hwindow
  obtain rfl : .real (.zero true) = v := Except.ok.inj (hvalue.symm.trans hv)
  obtain rfl : n = 0 := by
    have hzero : ((0 : ℤ) : ℚ) = n := by rw [← hfold]; norm_num [exactFold, Operator.exact]
    exact_mod_cast hzero.symm
  exact ⟨hpairs, hdivisors, hwindow, hvalue, hdisplay⟩

end Abacus
