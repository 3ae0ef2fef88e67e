import Abacus.Proofs.CorrectRounding
import Abacus.Proofs.LeftFold

/-!
# When arithmetic is refused

`RefusedWhen` says of an operation in which cases it has no result, and that it has one in all
others. The cases depend on the kinds of the operands. Two integers are tested for a zero divisor
first and for the size of the quotient then; with one floating-point number the integer is tested
for its own size first, whatever the operator is; two floating-point numbers can only fail for a
zero divisor. `apply_refused_iff` puts them together.
-/
namespace Abacus

open Binary64 (RoundsTo finiteLimit)

namespace Number

/-- A number that nothing is divided by: the integer zero or one of the two floating-point zeros. -/
def IsZero (v : Number) : Prop := v = .integer 0 ∨ ∃ sign, v = .real (.zero sign)

/-- The number itself, or another one in place of an integer. -/
def replaceInteger (y : Binary64) : Number → Number
  | integer _ => real y
  | real x => real x

/-- An operation is refused because something is too large, or because of a zero divisor, each in
its own case, and it has a result in all others. -/
structure RefusedWhen (lhs : Number) (op : Operator) (rhs : Number) (cause : RangeCause)
    (tooLarge zero : Prop) : Prop where
  outOfRange_iff :
    apply lhs (.operator op) rhs = .error (.outOfRange lhs op rhs cause) ↔ tooLarge
  divisionByZero_iff : apply lhs (.operator op) rhs = .error (.divisionByZero lhs rhs) ↔ zero
  ok_iff : (∃ v, apply lhs (.operator op) rhs = .ok v) ↔ ¬tooLarge ∧ ¬zero

section RefusedWhen
variable {lhs rhs v : Number} {op : Operator} {cause : RangeCause} {tooLarge zero : Prop}

theorem RefusedWhen.of_ok (h : operate lhs op rhs = .ok v) (hlarge : ¬tooLarge) (hzero : ¬zero) :
    RefusedWhen lhs op rhs cause tooLarge zero := by
  rw [← apply_operator] at h
  constructor <;> simp [h, hlarge, hzero]

theorem RefusedWhen.of_outOfRange (h : operate lhs op rhs = .error (.outOfRange lhs op rhs cause))
    (hlarge : tooLarge) (hzero : ¬zero) : RefusedWhen lhs op rhs cause tooLarge zero := by
  rw [← apply_operator] at h
  constructor <;> simp [h, hlarge, hzero]

theorem RefusedWhen.of_divisionByZero (h : operate lhs op rhs = .error (.divisionByZero lhs rhs))
    (hlarge : ¬tooLarge) (hzero : zero) : RefusedWhen lhs op rhs cause tooLarge zero := by
  rw [← apply_operator] at h
  constructor <;> simp [h, hlarge, hzero]

theorem RefusedWhen.ne_unsupported (h : RefusedWhen lhs op rhs cause tooLarge zero)
    (kind : TokenKind) : apply lhs (.operator op) rhs ≠ .error (.unsupported kind) := by
  intro heq
  have hlarge : ¬tooLarge := by simp [← h.outOfRange_iff, heq]
  have hzero : ¬zero := by simp [← h.divisionByZero_iff, heq]
  obtain ⟨v, hv⟩ := h.ok_iff.mpr ⟨hlarge, hzero⟩
  simp [heq] at hv

end RefusedWhen

/-! ## Two integers -/

/-- The laws of an operation on two integers. -/
structure IntegersLaw (a : ℤ) (op : Operator) (b : ℤ) : Prop where
  refused : RefusedWhen (integer a) op (integer b) .quotientTooLarge
    (op = .divide ∧ b ≠ 0 ∧ finiteLimit * |b| ≤ |a|) (op = .divide ∧ b = 0)
  /-- The operators but division are exact. -/
  exact : op ≠ .divide →
    ∃ c : ℤ, apply (integer a) (.operator op) (integer b) = .ok (.integer c) ∧
      (c : ℚ) = op.exact a b

theorem integersLaw (a : ℤ) (op : Operator) (b : ℤ) : IntegersLaw a op b := by
  constructor
  · by_cases hop : op = .divide
    · subst hop
      by_cases hb : b = 0
      · refine .of_divisionByZero ?_ (by simp [hb]) (by simp [hb])
        rw [operate_integer_integer, applyIntegers, if_pos hb]
      · have hlimit := Binary64.ofQuotient?_eq_none_iff a hb
        cases hx : Binary64.ofQuotient? a b with
        | none =>
          refine .of_outOfRange ?_ ⟨rfl, hb, hlimit.mp hx⟩ (by simp [hb])
          rw [operate_integer_integer, applyIntegers, if_neg hb, hx]
        | some x =>
          have hbelow : ¬finiteLimit * |b| ≤ |a| := by simpa [hx] using hlimit
          refine .of_ok (v := .real x) ?_ (by simp [hbelow]) (by simp [hb])
          rw [operate_integer_integer, applyIntegers, if_neg hb, hx]
    · obtain ⟨c, hc, -⟩ := applyIntegers_of_ne_divide hop a b
      exact .of_ok hc (by simp [hop]) (by simp [hop])
  · intro hop
    exact applyIntegers_of_ne_divide hop a b

/-! ## Floating-point numbers -/

theorem isZero_real_iff {x : Binary64} : (real x).IsZero ↔ x.isZero = true := by
  cases x with
  | nan => simp [IsZero, Binary64.isZero, Binary64.zero]
  | infinite negative => simp [IsZero, Binary64.isZero, Binary64.zero]
  | finite negative m =>
    simp [IsZero, Binary64.isZero, Binary64.zero, Magnitude.ext_iff]

/-- An integer is converted to zero only if it is zero. -/
theorem isZero_of_ofInt? {n : ℤ} {y : Binary64} (h : Binary64.ofInt? n = some y) :
    y.isZero = true ↔ (integer n).IsZero := by
  obtain ⟨m, hm, rfl⟩ := Option.map_eq_some_iff.mp h
  have hnat : Binary64.ofInt? (n.natAbs : ℤ) =
      some (.finite (decide ((n.natAbs : ℤ) < 0)) m) := by
    rw [Binary64.ofInt?, Int.natAbs_natCast, hm]
    rfl
  obtain ⟨m', heq, hzero, hone⟩ := Binary64.exists_ofInt?_natCast hnat
  obtain ⟨-, rfl⟩ := Binary64.finite.inj heq
  have hpos := unitsPerOne_pos
  simp only [IsZero, Binary64.isZero, beq_iff_eq, integer.injEq, reduceCtorEq, exists_false,
    or_false]
  constructor
  · intro hm0
    by_contra hn
    have := hone (Int.natAbs_pos.mpr hn)
    omega
  · rintro rfl
    exact hzero rfl

theorem operate?_eq_none_iff {x y : Binary64} {op : Operator} :
    x.operate? op y = none ↔ op = .divide ∧ y.isZero = true := by
  cases op <;> simp [Binary64.operate?]

section Reals
variable {lhs rhs : Number} {op : Operator} {x y : Binary64}

/-- Where both numbers can be converted only a division by zero has no result. -/
theorem applyReals_of_toReal? (hx : lhs.toReal? = some x) (hy : rhs.toReal? = some y) :
    applyReals lhs op rhs =
      match x.operate? op y with
      | some z => .ok (real z)
      | none => .error (.divisionByZero lhs rhs) := by
  cases hz : x.operate? op y <;> simp [applyReals, hx, hy, hz]

theorem applyReals_of_toReal?_none (h : lhs.toReal? = none ∨ rhs.toReal? = none) :
    applyReals lhs op rhs = .error (.outOfRange lhs op rhs .operandTooLarge) := by
  rw [applyReals]
  rcases h with h | h
  · rw [h]
  · rw [h]
    cases lhs.toReal? <;> rfl

theorem applyReals_eq_ok_iff (hx : lhs.toReal? = some x) (hy : rhs.toReal? = some y) {v : Number} :
    applyReals lhs op rhs = .ok v ↔ ∃ z, x.operate? op y = some z ∧ v = real z := by
  rw [applyReals_of_toReal? hx hy]
  cases x.operate? op y <;> simp [eq_comm]

theorem refusedWhen_of_toReal? (hreals : operate lhs op rhs = applyReals lhs op rhs)
    (hx : lhs.toReal? = some x) (hy : rhs.toReal? = some y) {tooLarge zero : Prop}
    (hlarge : ¬tooLarge) (hzero : zero ↔ op = .divide ∧ y.isZero = true) :
    RefusedWhen lhs op rhs .operandTooLarge tooLarge zero := by
  rw [applyReals_of_toReal? hx hy] at hreals
  rw [← @operate?_eq_none_iff x] at hzero
  cases hz : x.operate? op y with
  | none =>
    simp only [hz] at hreals
    exact .of_divisionByZero hreals hlarge (hzero.mpr hz)
  | some z =>
    simp only [hz] at hreals
    exact .of_ok hreals hlarge (by simp [hzero, hz])

end Reals

/-- The laws of an operation on an integer and a floating-point number. -/
structure MixedLaw (n : ℤ) (lhs : Number) (op : Operator) (rhs : Number) : Prop where
  refused : RefusedWhen lhs op rhs .operandTooLarge (finiteLimit ≤ |n|)
    (|n| < finiteLimit ∧ op = .divide ∧ rhs.IsZero)
  /-- A result is the one with the floating-point number nearest to the integer in its place. -/
  converted : |n| < finiteLimit → ∃ m, RoundsTo n (decide (n < 0)) m ∧ ∀ v,
    apply lhs (.operator op) rhs = .ok v ↔
      apply (lhs.replaceInteger (.finite (decide (n < 0)) m)) (.operator op)
        (rhs.replaceInteger (.finite (decide (n < 0)) m)) = .ok v

/-- An integer that is too large is refused before anything else is looked at, and any other one is
converted. -/
theorem mixedLaw_of_toReal? {n : ℤ} {lhs rhs : Number} {op : Operator}
    (hreals : operate lhs op rhs = applyReals lhs op rhs)
    (hnone : Binary64.ofInt? n = none → lhs.toReal? = none ∨ rhs.toReal? = none)
    (hsome : ∀ y, Binary64.ofInt? n = some y → ∃ x z, lhs.toReal? = some x ∧ rhs.toReal? = some z ∧
      lhs.replaceInteger y = real x ∧ rhs.replaceInteger y = real z ∧
      (z.isZero = true ↔ rhs.IsZero)) : MixedLaw n lhs op rhs := by
  have hlimit := Binary64.ofInt?_eq_none_iff n
  cases hn : Binary64.ofInt? n with
  | none =>
    have hlarge := hlimit.mp hn
    constructor
    · refine .of_outOfRange ?_ hlarge (by simp [hlarge])
      rw [hreals, applyReals_of_toReal?_none (hnone hn)]
    · intro hbelow
      exact absurd hlarge hbelow.not_ge
  | some y =>
    have hbelow : |n| < finiteLimit := by simpa [hn] using hlimit
    obtain ⟨x, z, hx, hz, hlhs, hrhs, hzero⟩ := hsome y hn
    obtain ⟨m, rfl, hrounds⟩ := Binary64.exists_roundsTo_of_ofInt? hn
    constructor
    · refine refusedWhen_of_toReal? hreals hx hz hbelow.not_ge ?_
      simp [hbelow, hzero]
    · intro _
      refine ⟨m, hrounds, ?_⟩
      intro v
      rw [hlhs, hrhs, apply_operator, apply_operator, hreals, operate_real_left,
        applyReals_eq_ok_iff hx hz, applyReals_eq_ok_iff rfl rfl]

theorem mixedLaw_integer_real (n : ℤ) (op : Operator) (x : Binary64) :
    MixedLaw n (integer n) op (real x) := by
  apply mixedLaw_of_toReal? rfl
  · exact .inl
  · intro y hy
    exact ⟨y, x, hy, rfl, rfl, rfl, isZero_real_iff.symm⟩

theorem mixedLaw_real_integer (x : Binary64) (op : Operator) (n : ℤ) :
    MixedLaw n (real x) op (integer n) := by
  apply mixedLaw_of_toReal? rfl
  · exact .inr
  · intro y hy
    exact ⟨x, y, rfl, hy, rfl, rfl, isZero_of_ofInt? hy⟩

theorem refusedWhen_reals (x : Binary64) (op : Operator) (y : Binary64) :
    RefusedWhen (real x) op (real y) .operandTooLarge False
      (op = .divide ∧ (real y).IsZero) := by
  apply refusedWhen_of_toReal? rfl rfl rfl not_false
  rw [isZero_real_iff]

theorem apply_eq_unsupported_iff (lhs : Number) (kind : TokenKind) (rhs : Number)
    (other : TokenKind) : apply lhs kind rhs = .error (.unsupported other) ↔
      other = kind ∧ (kind = .endOfInput ∨ kind = .integer) := by
  cases kind with
  | endOfInput => simp [apply, eq_comm]
  | integer => simp [apply, eq_comm]
  | operator op =>
    refine iff_of_false ?_ (by simp)
    cases lhs with
    | integer a =>
      cases rhs with
      | integer b => exact (integersLaw a op b).refused.ne_unsupported other
      | real x => exact (mixedLaw_integer_real a op x).refused.ne_unsupported other
    | real x =>
      cases rhs with
      | integer b => exact (mixedLaw_real_integer x op b).refused.ne_unsupported other
      | real y => exact (refusedWhen_reals x op y).ne_unsupported other

/-- **When arithmetic is refused.** A kind of token that is no operator is refused whatever the
numbers are, and no operator is for that reason. Two integers have a result but for a zero divisor
and a quotient at the limit of the finite numbers or beyond. An integer and a floating-point number
have one but for an integer at that limit or beyond, whatever the operator, and then for a zero
divisor. Two floating-point numbers have one but for a zero divisor. -/
theorem apply_refused_iff :
    (∀ lhs kind rhs other, apply lhs kind rhs = .error (.unsupported other) ↔
      other = kind ∧ (kind = .endOfInput ∨ kind = .integer)) ∧
    (∀ a op b, IntegersLaw a op b) ∧
    (∀ n op x, MixedLaw n (integer n) op (real x) ∧ MixedLaw n (real x) op (integer n)) ∧
    ∀ x op y, RefusedWhen (real x) op (real y) .operandTooLarge False
      (op = .divide ∧ (real y).IsZero) := by
  refine ⟨apply_eq_unsupported_iff, integersLaw, ?_, refusedWhen_reals⟩
  intro n op x
  exact ⟨mixedLaw_integer_real n op x, mixedLaw_real_integer x op n⟩

/-- An integer beyond the limit is refused for its size even where the divisor is zero, and two
integers for the zero divisor first. -/
example :
    apply (integer (powTen 400)) (.operator .divide) (real (.zero true)) =
        .error (.outOfRange (integer (powTen 400)) .divide (real (.zero true)) .operandTooLarge) ∧
      apply (integer (powTen 400)) (.operator .divide) (integer 0) =
        .error (.divisionByZero (integer (powTen 400)) (integer 0)) := by
  decide +kernel

end Number
end Abacus
