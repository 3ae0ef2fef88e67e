import Abacus.Proofs.LeftFold
import Abacus.Proofs.Nearest
import Abacus.Proofs.Tiling

/-!
# The kinds of a running result

A running result is an integer until the first division and a floating-point number from then on,
and that is finite, infinite or not a number. `NumberKind.Allows` is the table of what one pair can
make of each kind; `operate_allows` says that arithmetic keeps to it, and `KindLaw` what follows
for all reductions of a line. In the table an integer stands for its exact value, which is why no
pair is refused before the first division.
-/
namespace Abacus

/-- The kinds of numbers that a running result can be. -/
inductive NumberKind
  /-- An integer. -/
  | whole
  /-- A finite floating-point number. -/
  | finite
  /-- An infinity. -/
  | infinite (negative : Bool)
  /-- Not a number. -/
  | undefined
  deriving DecidableEq

/-- The kind of a number. -/
def Number.kind : Number → NumberKind
  | integer _ => .whole
  | real (.finite _ _) => .finite
  | real (.infinite negative) => .infinite negative
  | real .nan => .undefined

/-- What a pair of an operator and a natural number can make of a kind, where it has a result. -/
def NumberKind.Allows : NumberKind → Operator → ℤ → NumberKind → Prop
  | whole, .divide, _, k => k = finite
  | whole, _, _, k => k = whole
  | finite, .divide, _, k => k = finite
  | finite, _, _, k => k = finite ∨ ∃ negative, k = infinite negative
  | infinite negative, .multiply, n, k => k = if n = 0 then undefined else infinite negative
  | infinite negative, _, _, k => k = infinite negative
  | undefined, _, _, k => k = undefined

/-! ## One pair -/

theorem kind_nearest (negative : Bool) (num den : ℕ) :
    (Number.real (.nearest negative num den)).kind = .finite ∨
      ∃ sign, (Number.real (.nearest negative num den)).kind = .infinite sign := by
  cases h : Magnitude.nearest num den with
  | some m => rw [Binary64.nearest_of_some h]; exact .inl rfl
  | none => rw [Binary64.nearest_of_none h]; exact .inr ⟨negative, rfl⟩

/-- A sum of finite numbers may be infinite, but is always a number. -/
theorem kind_add_finite (a b : Bool) (m n : Magnitude) :
    (Number.real (.add (.finite a m) (.finite b n))).kind = .finite ∨
      ∃ sign, (Number.real (.add (.finite a m) (.finite b n))).kind = .infinite sign := by
  rw [Binary64.add_finite]
  split
  · exact .inl rfl
  · exact kind_nearest _ _ _

section Reals
variable {op : Operator} {m : Magnitude} {n : ℕ} {z : Binary64}

theorem operate?_nan {y : Binary64} (h : Binary64.nan.operate? op y = some z) : z = .nan := by
  cases op with
  | divide =>
    rw [Binary64.operate?] at h
    split at h
    · simp at h
    · exact (Option.some.inj h).symm
  | _ => exact (Option.some.inj h).symm

/-- A natural number leaves an infinity as it is, save that zero times it is not a number. -/
theorem operate?_infinite {negative : Bool} (hzero : m.units = 0 ↔ n = 0)
    (h : (Binary64.infinite negative).operate? op (.finite false m) = some z) :
    NumberKind.Allows (.infinite negative) op n (Number.real z).kind := by
  cases op with
  | plus => rw [← Option.some.inj h]; rfl
  | minus => rw [← Option.some.inj h]; rfl
  | multiply =>
    rw [← Option.some.inj h]
    by_cases hn : n = 0
    · simp [Binary64.mul, hzero, hn, NumberKind.Allows, Number.kind]
    · simp [Binary64.mul, hzero, hn, NumberKind.Allows, Number.kind]
  | divide =>
    rw [Binary64.operate?] at h
    split at h
    · simp at h
    · rw [← Option.some.inj h]
      simp [Binary64.div, NumberKind.Allows, Number.kind]

/-- **A finite number stays finite under division** by a natural number, whose conversion is one or
more; the other operators may leave the finite numbers, but not for what is no number. -/
theorem operate?_finite {negative : Bool} {k : Magnitude} (hone : n ≠ 0 → unitsPerOne ≤ m.units)
    (hzero : m.units = 0 ↔ n = 0)
    (h : (Binary64.finite negative k).operate? op (.finite false m) = some z) :
    NumberKind.Allows .finite op n (Number.real z).kind := by
  cases op with
  | plus =>
    rw [← Option.some.inj h]
    exact kind_add_finite _ _ _ _
  | minus =>
    rw [← Option.some.inj h]
    exact kind_add_finite _ _ _ _
  | multiply =>
    rw [← Option.some.inj h, Binary64.mul_finite]
    exact kind_nearest _ _ _
  | divide =>
    by_cases hn : n = 0
    · simp [Binary64.operate?, Binary64.isZero, hzero.mpr hn] at h
    · have hunits : m.units ≠ 0 := fun h0 => hn (hzero.mp h0)
      obtain ⟨q, hq, -⟩ := Magnitude.exists_nearest_le k (Nat.pos_of_ne_zero hunits)
        (Nat.mul_le_mul_left k.units (hone hn))
      have hz : (Binary64.finite negative k).div (.finite false m) = z := by
        simpa [Binary64.operate?, Binary64.isZero, hunits] using h
      rw [← hz, Binary64.div_finite _ _ _ hunits, Binary64.nearest_of_some hq]
      rfl

end Reals

/-- **Arithmetic keeps to the table.** -/
theorem operate_allows {acc v : Number} {op : Operator} {n : ℕ}
    (h : acc.operate op (.integer n) = .ok v) : acc.kind.Allows op n v.kind := by
  cases acc with
  | integer a =>
    by_cases hop : op = .divide
    · subst hop
      rw [Number.operate_integer_integer, Number.applyIntegers] at h
      split at h
      · simp at h
      · cases hq : Binary64.ofQuotient? a n with
        | none => simp [hq] at h
        | some x =>
          obtain ⟨m, -, rfl⟩ := Option.map_eq_some_iff.mp hq
          simp only [hq, Except.ok.injEq] at h
          rw [← h]
          rfl
    · obtain ⟨c, hc, -⟩ := applyIntegers_of_ne_divide hop a n
      rw [Number.operate_integer_integer, hc] at h
      rw [← Except.ok.inj h]
      cases op with
      | divide => exact absurd rfl hop
      | _ => rfl
  | real x =>
    obtain ⟨y, z, hy, hz, rfl⟩ := Number.operate_real_integer_iff.mp h
    obtain ⟨m, rfl, hzero, hone⟩ := Binary64.exists_ofInt?_natCast hy
    have hzero' : m.units = 0 ↔ n = 0 := by
      refine ⟨fun h0 => ?_, hzero⟩
      by_contra hn
      have hle := hone (Nat.pos_of_ne_zero hn)
      exact absurd h0 (unitsPerOne_pos.trans_le hle).ne'
    cases x with
    | nan => rw [operate?_nan hz]; rfl
    | infinite negative => exact operate?_infinite hzero' hz
    | finite negative k =>
      exact operate?_finite (fun hn => hone (Nat.pos_of_ne_zero hn)) hzero' hz

/-! ## The table along a run -/

namespace NumberKind

section Table
variable {k k' : NumberKind} {op : Operator} {n : ℤ} {negative : Bool}

/-- Only division makes something other than an integer of an integer, and nothing makes an integer
of anything else. -/
theorem Allows.eq_whole_iff (h : k.Allows op n k') : k' = whole ↔ k = whole ∧ op ≠ .divide := by
  cases k <;> cases op <;> grind [Allows]

/-- An infinity comes from itself, or from a finite number under an operator but division. -/
theorem Allows.of_infinite (h : k.Allows op n (infinite negative)) :
    k = infinite negative ∨ k = finite ∧ op ≠ .divide := by
  cases k <;> cases op <;> grind [Allows]

/-- What is not a number comes from itself, or from an infinity times zero. -/
theorem Allows.of_undefined (h : k.Allows op n undefined) :
    k = undefined ∨ (∃ negative, k = infinite negative) ∧ op = .multiply ∧ n = 0 := by
  cases k <;> cases op <;> grind [Allows]

end Table

/-- The kinds of running results keep to the table from pair to pair. -/
def Follows (kind : ℕ → NumberKind) (pairs : List (Operator × ℤ)) : Prop :=
  ∀ k op n, pairs[k]? = some (op, n) → (kind k).Allows op n (kind (k + 1))

namespace Follows
variable {kind : ℕ → NumberKind} {pairs : List (Operator × ℤ)} {k : ℕ}

/-- **Behind a division** no running result is an integer. -/
theorem ne_whole (h : Follows kind pairs) {i : ℕ} {n : ℤ} (hdivide : pairs[i]? = some (.divide, n))
    (hik : i < k) (hk : k ≤ pairs.length) : kind k ≠ whole := by
  induction k with
  | zero => omega
  | succ k ih =>
    have hpair : pairs[k]? = some (pairs[k].1, pairs[k].2) := List.getElem?_eq_getElem (by omega)
    intro hwhole
    obtain ⟨hbefore, hop⟩ := (h k _ _ hpair).eq_whole_iff.mp hwhole
    rcases Nat.lt_succ_iff_lt_or_eq.mp hik with hlt | rfl
    · exact ih hlt (by omega) hbefore
    · rw [hpair] at hdivide
      exact hop (congrArg Prod.fst (Option.some.inj hdivide))

/-- **An infinity** goes back to an overflow of a finite running result. -/
theorem exists_overflow (h : Follows kind pairs) (hstart : kind 0 = whole) {negative : Bool}
    (hk : k ≤ pairs.length) (hinfinite : kind k = infinite negative) :
    ∃ i op n, i < k ∧ pairs[i]? = some (op, n) ∧ op ≠ .divide ∧ kind i = finite ∧
      kind (i + 1) = infinite negative := by
  induction k with
  | zero =>
    rw [hstart] at hinfinite
    exact absurd hinfinite (by simp)
  | succ k ih =>
    have hpair : pairs[k]? = some (pairs[k].1, pairs[k].2) := List.getElem?_eq_getElem (by omega)
    have hallows := h k _ _ hpair
    rw [hinfinite] at hallows
    rcases hallows.of_infinite with hbefore | ⟨hfinite, hop⟩
    · obtain ⟨i, op, n, hi, hrest⟩ := ih (by omega) hbefore
      exact ⟨i, op, n, by omega, hrest⟩
    · exact ⟨k, _, _, Nat.lt_succ_self k, hpair, hop, hfinite, hinfinite⟩

/-- **What is not a number** goes back to an infinity times zero. -/
theorem exists_zero_factor (h : Follows kind pairs) (hstart : kind 0 = whole)
    (hk : k ≤ pairs.length) (hundefined : kind k = undefined) :
    ∃ j negative, j < k ∧ pairs[j]? = some (.multiply, 0) ∧ kind j = infinite negative ∧
      kind (j + 1) = undefined := by
  induction k with
  | zero =>
    rw [hstart] at hundefined
    exact absurd hundefined (by simp)
  | succ k ih =>
    have hpair : pairs[k]? = some (pairs[k].1, pairs[k].2) := List.getElem?_eq_getElem (by omega)
    have hallows := h k _ _ hpair
    rw [hundefined] at hallows
    rcases hallows.of_undefined with hbefore | ⟨⟨negative, hinfinite⟩, hop, hzero⟩
    · obtain ⟨j, negative, hj, hrest⟩ := ih (by omega) hbefore
      exact ⟨j, negative, by omega, hrest⟩
    · rw [hop, hzero] at hpair
      exact ⟨k, negative, Nat.lt_succ_self k, hpair, hinfinite, hundefined⟩

end Follows
end NumberKind

/-! ## Operators of a line -/

/-- The operator tokens of a line stand where it has their characters. -/
theorem Tiling.toChar_mem_iff {line : List Char} {tokens : List Token}
    (h : Tiling line (tokens ++ [.endAt line.length])) (op : Operator) :
    op.toChar ∈ line ↔ ∃ pos, .operatorAt op pos ∈ tokens := by
  obtain ⟨-, front, happend, hspelled, hshared⟩ := h
  obtain ⟨rfl, -⟩ := List.append_inj' happend rfl
  constructor
  · intro hmem
    obtain ⟨i, hi⟩ := List.getElem?_of_mem hmem
    obtain ⟨t, ht, start, stop, hspells, hstart, hstop⟩ :=
      ((hshared i _ hi).1 (Operator.isBlank_toChar op)).exists
    rcases hspells.getElem? hstart hstop with ⟨op', pos, rfl, hop⟩ | ⟨-, hdigit⟩
    · obtain rfl : op' = op := by
        have hchars := congrArg (Option.bind · Operator.ofChar?) (hop.symm.trans hi)
        simpa using hchars
      exact ⟨pos, ht⟩
    · exact absurd hdigit (Spells.not_digitAt_of_operator hi)
  · rintro ⟨pos, ht⟩
    obtain ⟨start, stop, hspells⟩ := hspelled _ ht
    rcases hspells.getElem? (Nat.le_refl start) hspells.lt with
      ⟨op', pos', heq, hop⟩ | ⟨⟨value, pos', heq⟩, -⟩
    · obtain ⟨rfl⟩ : op = op' := by simpa [Token.operatorAt] using congrArg Token.kind heq
      exact List.mem_of_getElem? hop
    · exact absurd (congrArg Token.kind heq) (by simp [Token.operatorAt, Token.literal])

/-- The operators of the pairs of a line are the characters of operators in it. -/
theorem WholePairs.toChar_mem_iff {line : List Char} {first : ℤ} {pairs : List (Operator × ℤ)}
    (h : WholePairs line first pairs) (op : Operator) :
    op.toChar ∈ line ↔ ∃ pair ∈ pairs, pair.1 = op := by
  obtain ⟨tokens, htokens, hlabels, -⟩ := h
  rw [((Scanner.tokenize_eq_ok_iff_tiling line _).mp htokens).toChar_mem_iff op]
  have hmem : (.operator op, none) ∈ lineLabels first pairs ↔ ∃ pair ∈ pairs, pair.1 = op := by
    simp [lineLabels, pairLabels, eq_comm]
  rw [← hmem, ← hlabels, List.mem_map]
  constructor
  · rintro ⟨pos, ht⟩
    exact ⟨_, ht, rfl⟩
  · rintro ⟨t, ht, hlabel⟩
    obtain ⟨last, -, happend⟩ := Scanner.tokenize_eq_ok_iff.mp htokens
    obtain ⟨rfl, -⟩ := List.append_inj' happend rfl
    rcases Scanner.mem_drain_tokens ht with ⟨value, pos, rfl⟩ | ⟨op', pos, rfl⟩
    · simp at hlabel
    · obtain rfl : op' = op := by simpa using hlabel
      exact ⟨pos, ht⟩

/-! ## All reductions of a line -/

/-- The running result of a line with a first integer, behind a number of reductions. -/
def runningAfter (line : List Char) (first k : ℕ) : Number :=
  resultAfter (.integer first) (evaluate line).steps k

/-- The laws of the reductions that the evaluation of a line makes, for its first integer and the
pairs that are reduced. -/
structure KindLaw (line : List Char) (first : ℕ) (pairs : List (Operator × ℤ)) : Prop where
  /-- The reductions start from the integer at the start of the line. -/
  first_eq : ∀ n, Scanner.integerOf ((Scanner.ofLine line).item 0) = some n → n = first
  /-- The pairs are those of the reductions, and every right operand is an integer without sign. -/
  operands : ((evaluate line).steps.map fun step => (step.op, step.rhs)) =
      (pairs.map fun pair => (pair.1, .integer pair.2)) ∧ ∀ pair ∈ pairs, 0 ≤ pair.2
  /-- Each reduction leads from one running result to the next. -/
  chained : ∀ k step, (evaluate line).steps[k]? = some step →
    step.lhs = runningAfter line first k ∧ step.result = runningAfter line first (k + 1)
  /-- The value of a line is the last running result. -/
  value : ∀ v, outcome line = .ok v → v = runningAfter line first pairs.length
  /-- As long as there is no division the running result is an integer, the exact left fold. -/
  exact : ∀ k ≤ pairs.length, (∀ pair ∈ pairs.take k, pair.1 ≠ .divide) →
    ∃ a : ℤ, runningAfter line first k = .integer a ∧ (a : ℚ) = exactFold first (pairs.take k)
  /-- And then only a division can fail. -/
  refused : ∀ e, outcome line = .error (.arithmetic e) → (∀ pair ∈ pairs, pair.1 ≠ .divide) →
    ∃ n : ℕ, (runningAfter line first pairs.length).operate .divide (.integer n) = .error e
  /-- The kinds of the running results keep to the table. -/
  table : NumberKind.Follows (fun k => (runningAfter line first k).kind) pairs
  /-- From the first division on all running results are floating-point numbers. -/
  real : ∀ i n, pairs[i]? = some (.divide, n) → ∀ k, i < k → k ≤ pairs.length →
    ∃ x, runningAfter line first k = .real x
  /-- What is not a number has overflowed first and then been multiplied by zero. -/
  undefined : ∀ k ≤ pairs.length, runningAfter line first k = .real .nan →
    ∃ i j op n negative, i < j ∧ j < k ∧
      pairs[i]? = some (op, n) ∧ op ≠ .divide ∧
      (runningAfter line first i).kind = .finite ∧
      (runningAfter line first (i + 1)).kind = .infinite negative ∧
      pairs[j]? = some (.multiply, 0) ∧
      (runningAfter line first j).kind = .infinite negative ∧
      runningAfter line first (j + 1) = .real .nan

theorem kind_eq_whole_iff {v : Number} : v.kind = .whole ↔ ∃ a, v = .integer a := by
  rcases v with a | (_ | negative | ⟨negative, m⟩) <;> simp [Number.kind]

theorem kind_ne_whole_iff {v : Number} : v.kind ≠ .whole ↔ ∃ x, v = .real x := by
  rcases v with a | (_ | negative | ⟨negative, m⟩) <;> simp [Number.kind]

theorem kind_eq_undefined_iff {v : Number} : v.kind = .undefined ↔ v = .real .nan := by
  rcases v with a | (_ | negative | ⟨negative, m⟩) <;> simp [Number.kind]

theorem kindLaw_of_trail {line : List Char} {first : ℕ} {pairs : List (Operator × ℤ)}
    (hfirst : ∀ n, Scanner.integerOf ((Scanner.ofLine line).item 0) = some n → n = first)
    (h : Trail (.integer first) pairs (evaluate line).steps (evaluate line).outcome) :
    KindLaw line first pairs := by
  have htable : NumberKind.Follows (fun k => (runningAfter line first k).kind) pairs := by
    intro k op n hpair
    obtain ⟨m, rfl, hm⟩ := h.operate_eq hpair
    exact operate_allows hm
  have hstart : (runningAfter line first 0).kind = .whole := by
    rw [runningAfter, resultAfter_zero]
    rfl
  constructor
  · exact hfirst
  · exact h.operands
  · exact fun k step hstep => h.chained hstep
  · intro v hv
    rw [outcome] at hv
    rw [hv] at h
    exact h.value_eq
  · intro k hk hno
    obtain ⟨a, ha, hfold⟩ := h.exists_integer hk hno
    exact ⟨a, ha, by simpa using hfold⟩
  · intro e he hno
    rw [outcome] at he
    rw [he] at h
    exact h.operate_divide_eq_error hno
  · exact htable
  · intro i n hdivide k hik hk
    exact kind_ne_whole_iff.mp (htable.ne_whole hdivide hik hk)
  · intro k hk hnan
    obtain ⟨j, negative, hj, hzero, hinfinite, hundefined⟩ :=
      htable.exists_zero_factor hstart hk (kind_eq_undefined_iff.mpr hnan)
    obtain ⟨i, op, n, hi, hpair, hop, hfinite, hoverflow⟩ :=
      htable.exists_overflow hstart (by omega) hinfinite
    exact ⟨i, j, op, n, negative, hi, hj, hpair, hop, hfinite, hoverflow, hzero, hinfinite,
      kind_eq_undefined_iff.mp hundefined⟩

/-- A number that has been divided into is a floating-point number to the end. -/
theorem kind_reducePairs {acc v : Number} {pairs : List (Operator × ℤ)}
    (hnonneg : ∀ pair ∈ pairs, 0 ≤ pair.2) (h : reducePairs acc pairs = .ok v) :
    v.kind = .whole ↔ acc.kind = .whole ∧ ∀ pair ∈ pairs, pair.1 ≠ .divide := by
  induction pairs generalizing acc with
  | nil =>
    obtain rfl : acc = v := Except.ok.inj h
    simp
  | cons pair pairs ih =>
    obtain ⟨op, n⟩ := pair
    obtain ⟨m, rfl⟩ := Int.eq_ofNat_of_zero_le (hnonneg _ List.mem_cons_self)
    rw [reducePairs_cons] at h
    cases hr : acc.operate op (.integer m) with
    | error e => rw [hr] at h; exact absurd h (by simp)
    | ok result =>
      rw [hr] at h
      have hrest := ih (fun p hp => hnonneg p (List.mem_cons_of_mem _ hp)) h
      rw [hrest, (operate_allows hr).eq_whole_iff]
      simp [and_assoc]

/-- **The kinds of a running result.** The reductions of every line keep the laws of kinds. A line
of whole pairs without a division has the exact left fold as its value, and the value of a line is
an integer just when no division is written in it. -/
theorem evaluate_kinds (line : List Char) :
    (∃ first pairs, KindLaw line first pairs) ∧
    (∀ first pairs, WholePairs line first pairs → '/' ∉ line →
      ∃ a : ℤ, outcome line = .ok (.integer a) ∧ (a : ℚ) = exactFold first pairs) ∧
    ∀ v, outcome line = .ok v → ((∃ a, v = .integer a) ↔ '/' ∉ line) := by
  refine ⟨?_, ?_, ?_⟩
  · obtain ⟨first, pairs, hfirst, htrail⟩ := trail_evaluate line
    exact ⟨first, pairs, kindLaw_of_trail hfirst htrail⟩
  · intro first pairs hpairs hno
    have hdivide : ∀ pair ∈ pairs, pair.1 ≠ .divide :=
      fun pair hpair hop => hno ((hpairs.toChar_mem_iff .divide).mpr ⟨pair, hpair, hop⟩)
    obtain ⟨a, ha, hfold⟩ := reducePairs_of_no_divide hdivide first
    exact ⟨a, by rw [outcome_of_wholePairs hpairs, ha]; rfl, hfold⟩
  · intro v hv
    obtain ⟨first, pairs, hpairs, hfold⟩ := exists_wholePairs_of_ok hv
    have hkind := kind_reducePairs hpairs.nonneg.2 hfold
    have hslash : '/' ∈ line ↔ ∃ pair ∈ pairs, pair.1 = .divide :=
      hpairs.toChar_mem_iff .divide
    rw [← kind_eq_whole_iff, hkind, hslash]
    constructor
    · rintro ⟨-, hno⟩ ⟨pair, hpair, hop⟩
      exact hno pair hpair hop
    · intro hno
      exact ⟨rfl, fun pair hpair hop => hno ⟨pair, hpair, hop⟩⟩

/-- A product with a zero in front of a factor. -/
theorem evaluate_kinds_product :
    WholePairs ['2', '*', '0', '3'] 2 [(.multiply, 3)] ∧ '/' ∉ ['2', '*', '0', '3'] ∧
      outcome ['2', '*', '0', '3'] = .ok (.integer 6) ∧
      (∃ a : ℤ, outcome ['2', '*', '0', '3'] = .ok (.integer a) ∧
        (a : ℚ) = exactFold 2 [(.multiply, 3)]) ∧
      ((∃ a, Number.integer 6 = .integer a) ↔ '/' ∉ ['2', '*', '0', '3']) := by
  have hpairs : WholePairs ['2', '*', '0', '3'] 2 [(.multiply, 3)] :=
    ⟨[.literal 2 0, .operatorAt .multiply 1, .literal 3 2], by decide, by decide, by decide⟩
  have hvalue : outcome ['2', '*', '0', '3'] = .ok (.integer 6) := outcome_of_wholePairs hpairs
  obtain ⟨-, hexact, hwhole⟩ := evaluate_kinds ['2', '*', '0', '3']
  exact ⟨hpairs, by decide, hvalue, hexact 2 _ hpairs (by decide), hwhole _ hvalue⟩

end Abacus
