import Abacus.Proofs.LineGrammar
import Mathlib.Data.Rat.Cast.Defs

/-!
# Left folds and the reductions of an evaluation

`exactFold` is the left fold of a line in rational numbers, which never rounds. As long as no pair
divides, the left fold of numbers is the same (`reducePairs_of_no_divide`).

`Trail` relates a running result to the reductions that an evaluation makes from it on and to their
end, whatever the tokens behind them look like; `trail_evaluate` says that every evaluation leaves
one. For a line of whole pairs `outcome_of_wholePairs` gives the outcome outright.
-/
namespace Abacus
open Scanner (Item)

/-! ## Exact arithmetic -/

/-- An operator on rational numbers. -/
def Operator.exact : Operator → ℚ → ℚ → ℚ
  | plus, a, b => a + b
  | minus, a, b => a - b
  | multiply, a, b => a * b
  | divide, a, b => a / b

/-- The left fold of pairs into a rational number, without rounding. -/
def exactFold (q : ℚ) (pairs : List (Operator × ℤ)) : ℚ :=
  pairs.foldl (fun q pair => pair.1.exact q pair.2) q

@[simp] theorem exactFold_cons (q : ℚ) (op : Operator) (n : ℤ) (pairs : List (Operator × ℤ)) :
    exactFold q ((op, n) :: pairs) = exactFold (op.exact q n) pairs := rfl

theorem exactFold_append (q : ℚ) (xs ys : List (Operator × ℤ)) :
    exactFold q (xs ++ ys) = exactFold (exactFold q xs) ys :=
  List.foldl_append

/-- The operators but division are exact on integers. -/
theorem applyIntegers_of_ne_divide {op : Operator} (h : op ≠ .divide) (a b : ℤ) :
    ∃ c : ℤ, Number.applyIntegers a op b = .ok (.integer c) ∧ (c : ℚ) = op.exact a b := by
  cases op with
  | plus => exact ⟨a + b, rfl, Int.cast_add a b⟩
  | minus => exact ⟨a - b, rfl, Int.cast_sub a b⟩
  | multiply => exact ⟨a * b, rfl, Int.cast_mul a b⟩
  | divide => exact absurd rfl h

@[simp] theorem reducePairs_nil (acc : Number) : reducePairs acc [] = .ok acc := rfl

theorem reducePairs_append (acc : Number) (xs ys : List (Operator × ℤ)) :
    reducePairs acc (xs ++ ys) =
      match reducePairs acc xs with
      | .error e => .error e
      | .ok result => reducePairs result ys := by
  rw [reducePairs, List.foldlM_append]
  change (reducePairs acc xs >>= fun result => reducePairs result ys) = _
  cases reducePairs acc xs <;> rfl

/-- **Pairs that do not divide** fold to an integer, exactly. -/
theorem reducePairs_of_no_divide {pairs : List (Operator × ℤ)}
    (h : ∀ pair ∈ pairs, pair.1 ≠ .divide) (a : ℤ) :
    ∃ c : ℤ, reducePairs (.integer a) pairs = .ok (.integer c) ∧ (c : ℚ) = exactFold a pairs := by
  induction pairs generalizing a with
  | nil => exact ⟨a, rfl, rfl⟩
  | cons pair pairs ih =>
    obtain ⟨op, n⟩ := pair
    obtain ⟨b, hb, hexact⟩ := applyIntegers_of_ne_divide (h _ List.mem_cons_self) a n
    obtain ⟨c, hc, hfold⟩ := ih (fun p hp => h p (List.mem_cons_of_mem _ hp)) b
    refine ⟨c, ?_, ?_⟩
    · rw [reducePairs_cons, Number.operate_integer_integer, hb]
      exact hc
    · rw [hfold, exactFold_cons, hexact]

/-! ## Trails -/

/-- The pairs that are reduced into a running result one after the other, the reductions, and how an
evaluation ends behind them. -/
inductive Trail : Number → List (Operator × ℤ) → List Reduction → Except Failure Number → Prop
  /-- The line ends, and the running result is its value. -/
  | done (acc : Number) : Trail acc [] [] (.ok acc)
  /-- Something other than a pair follows. -/
  | stopped {acc : Number} {f : Failure} (h : ∀ e, f ≠ .arithmetic e) : Trail acc [] [] (.error f)
  /-- The next pair has no result. -/
  | refused {acc : Number} {op : Operator} {n : ℕ} {e : ArithmeticError}
      (h : acc.operate op (.integer n) = .error e) : Trail acc [] [] (.error (.arithmetic e))
  /-- The next pair is reduced. -/
  | step {acc result : Number} {op : Operator} {n : ℕ} {pairs : List (Operator × ℤ)}
      {steps : List Reduction} {outcome : Except Failure Number}
      (h : acc.operate op (.integer n) = .ok result) (rest : Trail result pairs steps outcome) :
      Trail acc ((op, n) :: pairs) (⟨acc, op, .integer n, result⟩ :: steps) outcome

theorem expectInteger_eq_error {t : Token} {f : Failure} (h : t.expectInteger = .error f) :
    f = .grammar .integer t := by
  rcases t with ⟨kind, value, pos⟩
  cases kind <;> cases value <;> simp [Token.expectInteger] at h <;> exact h.symm

/-- The integers that a scanner reads have no sign. -/
theorem Scanner.exists_natCast_of_integerOf {s : Scanner} {n : ℤ}
    (h : integerOf s.next.1 = some n) : ∃ value : ℕ, n = value := by
  obtain ⟨t, ht, hkind, hvalue⟩ := integerOf_eq_some_iff.mp h
  rcases token_of_next ht with ⟨pos, rfl⟩ | ⟨value, pos, rfl⟩ | ⟨op, pos, rfl⟩
  · exact absurd hkind (by simp [Token.endAt])
  · exact ⟨value, (Option.some.inj hvalue).symm⟩
  · exact absurd hkind (by simp [Token.operatorAt])

namespace Progress

theorem move_start_eq_stop {item : Item} {outcome : Except Failure Number}
    (h : start.move item = .stop outcome) :
    ∃ f, outcome = .error f ∧ ∀ e, f ≠ .arithmetic e := by
  cases item with
  | error e => exact ⟨.scan e, (Move.stop.inj h).symm, by simp⟩
  | ok t =>
    cases hi : t.expectInteger with
    | error f =>
      obtain rfl := expectInteger_eq_error hi
      rw [move, moveToken, hi] at h
      exact ⟨_, (Move.stop.inj h).symm, by simp⟩
    | ok n =>
      rw [move_start_integer hi] at h
      exact absurd h (by simp)

theorem move_afterValue_eq_stop {acc : Number} {reduced : Bool} {item : Item}
    {outcome : Except Failure Number} (h : (afterValue acc reduced).move item = .stop outcome) :
    outcome = .ok acc ∨ ∃ f, outcome = .error f ∧ ∀ e, f ≠ .arithmetic e := by
  cases item with
  | error e => exact .inr ⟨.scan e, (Move.stop.inj h).symm, by simp⟩
  | ok t =>
    cases hk : t.kind with
    | integer =>
      rw [move_afterValue_integer hk] at h
      exact .inr ⟨_, (Move.stop.inj h).symm, by simp⟩
    | operator op =>
      rw [move_afterValue_operator hk] at h
      exact absurd h (by simp)
    | endOfInput =>
      rw [move_afterValue_end hk] at h
      cases reduced with
      | true => exact .inl (Move.stop.inj h).symm
      | false => exact .inr ⟨_, (Move.stop.inj h).symm, by simp⟩

theorem move_afterOperator_eq_stop {acc : Number} {op : Operator} {item : Item}
    {outcome : Except Failure Number} (h : (afterOperator acc op).move item = .stop outcome) :
    (∃ f, outcome = .error f ∧ ∀ e, f ≠ .arithmetic e) ∨
      ∃ n e, Scanner.integerOf item = some n ∧ acc.operate op (.integer n) = .error e ∧
        outcome = .error (.arithmetic e) := by
  cases item with
  | error e => exact .inl ⟨.scan e, (Move.stop.inj h).symm, by simp⟩
  | ok t =>
    cases hi : t.expectInteger with
    | error f =>
      obtain rfl := expectInteger_eq_error hi
      rw [move, moveToken, hi] at h
      exact .inl ⟨_, (Move.stop.inj h).symm, by simp⟩
    | ok n =>
      obtain ⟨hkind, hvalue⟩ := expectInteger_eq_ok_iff.mp hi
      cases hr : acc.operate op (.integer n) with
      | error e =>
        rw [move_afterOperator_error hi hr] at h
        exact .inr ⟨n, e, integerOf_eq_some_iff.mpr ⟨t, rfl, hkind, hvalue⟩, hr,
          (Move.stop.inj h).symm⟩
      | ok result =>
        rw [move_afterOperator_ok hi hr] at h
        exact absurd h (by simp)

/-- **An evaluation that has a running result leaves a trail.** -/
theorem trail_finish (s : Scanner) :
    (∀ acc reduced, ∃ pairs,
      Trail acc pairs ((afterValue acc reduced).finish s).steps
        ((afterValue acc reduced).finish s).outcome) ∧
    ∀ acc op, ∃ pairs,
      Trail acc pairs ((afterOperator acc op).finish s).steps
        ((afterOperator acc op).finish s).outcome := by
  -- Along the items of the scanner, for the two places between them at once.
  induction s using Scanner.induction with
  | step s ih =>
    constructor
    · intro acc reduced
      rw [finish_eq]
      cases hmove : (afterValue acc reduced).move s.next.1 with
      | stop outcome =>
        rcases move_afterValue_eq_stop hmove with rfl | ⟨f, rfl, hf⟩
        · exact ⟨[], .done acc⟩
        · exact ⟨[], .stopped hf⟩
      | goOn steps q =>
        obtain ⟨op, -, rfl, rfl⟩ := move_afterValue_eq_goOn_iff.mp hmove
        exact (ih (isLast_of_goOn hmove)).2 acc op
    · intro acc op
      rw [finish_eq]
      cases hmove : (afterOperator acc op).move s.next.1 with
      | stop outcome =>
        rcases move_afterOperator_eq_stop hmove with ⟨f, rfl, hf⟩ | ⟨n, e, hn, he, rfl⟩
        · exact ⟨[], .stopped hf⟩
        · obtain ⟨value, rfl⟩ := Scanner.exists_natCast_of_integerOf hn
          exact ⟨[], .refused he⟩
      | goOn steps q =>
        obtain ⟨n, result, hn, hr, rfl, rfl⟩ := move_afterOperator_eq_goOn_iff.mp hmove
        obtain ⟨value, rfl⟩ := Scanner.exists_natCast_of_integerOf hn
        obtain ⟨pairs, hrest⟩ := (ih (isLast_of_goOn hmove)).1 result true
        exact ⟨_, .step hr hrest⟩

end Progress

/-- **The reductions of a line are a trail** from its first integer on; without one there are
none. -/
theorem trail_evaluate (line : List Char) :
    ∃ (first : ℕ) (pairs : List (Operator × ℤ)),
      (∀ n, Scanner.integerOf ((Scanner.ofLine line).item 0) = some n → n = first) ∧
        Trail (.integer first) pairs (evaluate line).steps (evaluate line).outcome := by
  have hfinish : evaluate line = Progress.start.finish (.ofLine line) := rfl
  rw [hfinish, Progress.finish_eq, Scanner.item_zero]
  cases hmove : Progress.start.move (Scanner.ofLine line).next.1 with
  | stop outcome =>
    obtain ⟨f, rfl, hf⟩ := Progress.move_start_eq_stop hmove
    refine ⟨0, [], ?_, .stopped hf⟩
    intro n hn
    rw [Progress.move_start_eq_goOn_iff.mpr ⟨n, hn, rfl, rfl⟩] at hmove
    exact absurd hmove (by simp)
  | goOn steps q =>
    obtain ⟨n, hn, rfl, rfl⟩ := Progress.move_start_eq_goOn_iff.mp hmove
    obtain ⟨value, rfl⟩ := Scanner.exists_natCast_of_integerOf hn
    obtain ⟨pairs, hrest⟩ :=
      (Progress.trail_finish (Scanner.ofLine line).next.2).1 (.integer value) false
    exact ⟨value, pairs, fun m hm => Option.some.inj (hm.symm.trans hn), hrest⟩

/-! ## Along a trail -/

/-- The running result behind a number of reductions. -/
def resultAfter : Number → List Reduction → ℕ → Number
  | acc, _, 0 => acc
  | acc, [], _ + 1 => acc
  | _, step :: steps, k + 1 => resultAfter step.result steps k

@[simp] theorem resultAfter_zero (acc : Number) (steps : List Reduction) :
    resultAfter acc steps 0 = acc := by
  cases steps <;> rfl

@[simp] theorem resultAfter_succ (acc : Number) (step : Reduction) (steps : List Reduction)
    (k : ℕ) : resultAfter acc (step :: steps) (k + 1) = resultAfter step.result steps k := rfl

namespace Trail
variable {acc : Number} {pairs : List (Operator × ℤ)} {steps : List Reduction}
  {outcome : Except Failure Number}

/-- The reductions are those of the pairs, and the right operands have no sign. -/
theorem operands (h : Trail acc pairs steps outcome) :
    (steps.map fun step => (step.op, step.rhs)) =
        (pairs.map fun pair => (pair.1, .integer pair.2)) ∧
      ∀ pair ∈ pairs, 0 ≤ pair.2 := by
  induction h with
  | step h rest ih =>
    obtain ⟨hmap, hnonneg⟩ := ih
    exact ⟨by simp [hmap], by simpa using hnonneg⟩
  | _ => exact ⟨rfl, by simp⟩

/-- Each reduction takes up the result of the one before. -/
theorem chained (h : Trail acc pairs steps outcome) {k : ℕ} {step : Reduction}
    (hstep : steps[k]? = some step) :
    step.lhs = resultAfter acc steps k ∧ step.result = resultAfter acc steps (k + 1) := by
  induction h generalizing k with
  | step h rest ih =>
    cases k with
    | zero =>
      obtain rfl := Option.some.inj hstep
      exact ⟨rfl, by simp⟩
    | succ k => exact ih (by simpa using hstep)
  | _ => simp at hstep

/-- Each pair has a result, which is the running result behind it. -/
theorem operate_eq (h : Trail acc pairs steps outcome) {k : ℕ} {op : Operator} {n : ℤ}
    (hpair : pairs[k]? = some (op, n)) :
    ∃ m : ℕ, n = m ∧
      (resultAfter acc steps k).operate op (.integer m) = .ok (resultAfter acc steps (k + 1)) := by
  induction h generalizing k with
  | @step acc result op' m pairs steps outcome h rest ih =>
    cases k with
    | zero =>
      obtain ⟨rfl, rfl⟩ := Prod.mk.inj (Option.some.inj hpair)
      exact ⟨m, rfl, by simpa using h⟩
    | succ k => exact ih (by simpa using hpair)
  | _ => simp at hpair

/-- The running result is the left fold of the pairs so far. -/
theorem reducePairs_take (h : Trail acc pairs steps outcome) {k : ℕ} (hk : k ≤ pairs.length) :
    reducePairs acc (pairs.take k) = .ok (resultAfter acc steps k) := by
  induction h generalizing k with
  | step h rest ih =>
    cases k with
    | zero => simp
    | succ k =>
      rw [List.take_succ_cons, reducePairs_cons, h, resultAfter_succ]
      exact ih (by simpa using hk)
  | _ =>
    obtain rfl : k = 0 := by simpa using hk
    simp

/-- The value of a line is the last running result. -/
theorem value_eq {v : Number} (h : Trail acc pairs steps (.ok v)) :
    v = resultAfter acc steps pairs.length := by
  generalize hv : Except.ok v = outcome at h
  induction h with
  | done acc => simpa using hv
  | stopped h => simp at hv
  | refused h => simp at hv
  | step h rest ih => simpa using ih hv

/-- An error in the arithmetic is that of the pair behind the last running result. -/
theorem operate_eq_error {e : ArithmeticError}
    (h : Trail acc pairs steps (.error (.arithmetic e))) :
    ∃ (op : Operator) (n : ℕ),
      (resultAfter acc steps pairs.length).operate op (.integer n) = .error e := by
  generalize hv : Except.error (Failure.arithmetic e) = outcome at h
  induction h with
  | done acc => simp at hv
  | stopped h => exact absurd (Except.error.inj hv).symm (h e)
  | @refused acc op n e' h =>
    obtain rfl : e = e' := by simpa using hv
    exact ⟨op, n, by simpa using h⟩
  | step h rest ih => simpa using ih hv

/-- As long as no pair divides the running result is an integer, the exact left fold. -/
theorem exists_integer {a : ℤ} (h : Trail (.integer a) pairs steps outcome) {k : ℕ}
    (hk : k ≤ pairs.length) (hno : ∀ pair ∈ pairs.take k, pair.1 ≠ .divide) :
    ∃ c : ℤ, resultAfter (.integer a) steps k = .integer c ∧
      (c : ℚ) = exactFold a (pairs.take k) := by
  obtain ⟨c, hc, hfold⟩ := reducePairs_of_no_divide hno a
  rw [h.reducePairs_take hk] at hc
  exact ⟨c, Except.ok.inj hc, hfold⟩

/-- The first error in the arithmetic of integers is that of a division. -/
theorem operate_divide_eq_error {a : ℤ} {e : ArithmeticError}
    (h : Trail (.integer a) pairs steps (.error (.arithmetic e)))
    (hno : ∀ pair ∈ pairs, pair.1 ≠ .divide) :
    ∃ n : ℕ,
      (resultAfter (.integer a) steps pairs.length).operate .divide (.integer n) = .error e := by
  obtain ⟨op, n, hop⟩ := h.operate_eq_error
  obtain ⟨b, hb, -⟩ := h.exists_integer le_rfl (by simpa using hno)
  by_cases hdivide : op = .divide
  · exact ⟨n, hdivide ▸ hop⟩
  · obtain ⟨c, hc, -⟩ := applyIntegers_of_ne_divide hdivide b n
    rw [hb, Number.operate_integer_integer, hc] at hop
    exact absurd hop (by simp)

end Trail

/-! ## Lines of whole pairs -/

/-- What a left fold is as the outcome of a line. -/
def foldOutcome : Except ArithmeticError Number → Except Failure Number
  | .ok v => .ok v
  | .error e => .error (.arithmetic e)

namespace Progress

/-- Over the tokens of whole pairs up to the end of the line, an evaluation is the left fold. -/
theorem outcome_course_of_labels {acc : Number} {reduced : Bool} {tokens : List Token}
    {last : Token} {pairs : List (Operator × ℤ)} (hlast : last.kind = .endOfInput)
    (hlabels : tokens.map Token.label = pairLabels pairs) (h : reduced = true ∨ pairs ≠ []) :
    ((afterValue acc reduced).course (tokens.map .ok ++ [.ok last])).outcome =
      some (foldOutcome (reducePairs acc pairs)) := by
  induction pairs generalizing acc reduced tokens with
  | nil =>
    obtain rfl : tokens = [] := List.map_eq_nil_iff.mp hlabels
    obtain rfl : reduced = true := by simpa using h
    exact (outcome_course_singleton (by simp [Token.isEnd, hlast]) _).mpr
      (by rw [move_afterValue_end hlast]; rfl)
  | cons pair pairs ih =>
    obtain ⟨op, n⟩ := pair
    -- The pair is written by the first two tokens.
    rcases tokens with - | ⟨t, - | ⟨u, tokens⟩⟩
    · simp at hlabels
    · simp at hlabels
    simp only [List.map_cons, pairLabels_cons, List.cons.injEq, Token.label, Prod.mk.injEq]
      at hlabels
    obtain ⟨⟨hop, -⟩, ⟨hkind, hvalue⟩, hrest⟩ := hlabels
    have hinteger := expectInteger_eq_ok_iff.mpr ⟨hkind, hvalue⟩
    simp only [List.map_cons, List.cons_append]
    rw [course_of_goOn (move_afterValue_operator hop), reducePairs_cons]
    cases hr : acc.operate op (.integer n) with
    | error e =>
      rw [course_of_stop (move_afterOperator_error hinteger hr)]
      rfl
    | ok result =>
      rw [course_of_goOn (move_afterOperator_ok hinteger hr)]
      exact ih hrest (.inl rfl)

end Progress

/-- A line is an integer and one or more pairs of an operator and an integer, and nothing else. -/
def WholePairs (line : List Char) (first : ℤ) (pairs : List (Operator × ℤ)) : Prop :=
  ∃ tokens, tokenize line = .ok (tokens ++ [.endAt line.length]) ∧
    tokens.map Token.label = lineLabels first pairs ∧ pairs ≠ []

/-- **A line of an integer and whole pairs** has the left fold as its outcome. -/
theorem outcome_of_wholePairs {line : List Char} {first : ℤ} {pairs : List (Operator × ℤ)}
    (h : WholePairs line first pairs) :
    outcome line = foldOutcome (reducePairs (.integer first) pairs) := by
  obtain ⟨tokens, htokens, hlabels, hne⟩ := h
  obtain ⟨last, hend, happend⟩ := Scanner.tokenize_eq_ok_iff.mp htokens
  obtain ⟨rfl, hlast⟩ := List.append_inj' happend rfl
  obtain rfl : .endAt line.length = last := List.singleton_inj.mp hlast
  have hcourse := (Progress.finish_course .start (.ofLine line)).1
  rw [Scanner.items_ofLine, hend] at hcourse
  rcases hdrain : (Scanner.ofLine line).drain.tokens with - | ⟨t, rest⟩
  · rw [hdrain] at hlabels
    simp [lineLabels] at hlabels
  · rw [hdrain] at hlabels hcourse
    simp only [List.map_cons, lineLabels, List.cons.injEq, Token.label, Prod.mk.injEq] at hlabels
    obtain ⟨⟨hkind, hvalue⟩, hrest⟩ := hlabels
    have hinteger := expectInteger_eq_ok_iff.mpr ⟨hkind, hvalue⟩
    rw [List.map_cons, List.cons_append,
      Progress.course_of_goOn (Progress.move_start_integer hinteger),
      Progress.outcome_course_of_labels rfl hrest (.inr hne)] at hcourse
    exact (Option.some.inj hcourse).symm

/-- A line with a value is of this form. -/
theorem exists_wholePairs_of_ok {line : List Char} {v : Number} (h : outcome line = .ok v) :
    ∃ first pairs, WholePairs line first pairs ∧ reducePairs (.integer first) pairs = .ok v := by
  have hcourse := (Progress.finish_course .start (.ofLine line)).1
  rw [Scanner.items_ofLine, show (Progress.start.finish (.ofLine line)).outcome = .ok v from h]
    at hcourse
  obtain ⟨⟨last, hend⟩, first, pairs, hlabels, hne, hfold⟩ :=
    (outcome_course_start_eq_ok_iff (Scanner.isLast_lineEnd line) _
      (fun t ht => Scanner.mem_drain_tokens ht) v).mp hcourse
  obtain rfl := Scanner.lineEnd_eq_ok hend
  exact ⟨first, pairs, ⟨_, Scanner.tokenize_eq_ok_iff.mpr ⟨_, hend, rfl⟩, hlabels, hne⟩, hfold⟩

/-- The integers of such a line have no sign. -/
theorem WholePairs.nonneg {line : List Char} {first : ℤ} {pairs : List (Operator × ℤ)}
    (h : WholePairs line first pairs) : 0 ≤ first ∧ ∀ pair ∈ pairs, 0 ≤ pair.2 := by
  obtain ⟨tokens, htokens, hlabels, -⟩ := h
  obtain ⟨last, -, happend⟩ := Scanner.tokenize_eq_ok_iff.mp htokens
  obtain ⟨rfl, -⟩ := List.append_inj' happend rfl
  have hvalues : ∀ n, (.integer, some n) ∈ lineLabels first pairs → 0 ≤ n := by
    intro n hn
    rw [← hlabels] at hn
    obtain ⟨t, ht, hlabel⟩ := List.mem_map.mp hn
    rcases Scanner.mem_drain_tokens ht with ⟨value, pos, rfl⟩ | ⟨op, pos, rfl⟩
    · simp only [label_literal, Prod.mk.injEq, Option.some.injEq, true_and] at hlabel
      omega
    · simp at hlabel
  refine ⟨hvalues first List.mem_cons_self, ?_⟩
  intro pair hpair
  refine hvalues pair.2 (List.mem_cons_of_mem _ (List.mem_flatMap.mpr ⟨pair, hpair, ?_⟩))
  simp

end Abacus
