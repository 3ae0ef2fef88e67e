import Abacus.Proofs.Progress

/-!
# Which failure a line has

The items of a line are counted from zero: integers belong at even places, operators at odd ones.
`FaultAt` says which failure stands at a place, given the left fold `runningResult` of the pairs
before it, and `EndsAt` where a line may end. `outcome_eq_error_iff` says that a line without a
value has the failure of its first place that has one, whatever follows.
-/
namespace Abacus
open Scanner (Item)

section Stream
variable (stream : ℕ → Item)

/-- The running result behind a number of pairs, if the items spell them and each has a result. -/
def runningResult : ℕ → Option Number
  | 0 => (Scanner.integerOf (stream 0)).map .integer
  | j + 1 =>
    match runningResult j, Scanner.operatorOf (stream (2 * j + 1)),
      Scanner.integerOf (stream (2 * j + 2)) with
    | some acc, some op, some n => (acc.apply (.operator op) (.integer n)).toOption
    | _, _, _ => none

/-- The failure at a place of a line. -/
inductive FaultAt : ℕ → Failure → Prop
  /-- A character belongs to no token. -/
  | scan {k : ℕ} {e : ScanError} (h : stream k = .error e) : FaultAt k (.scan e)
  /-- A token other than an integer, the end of the line included, stands at an even place. -/
  | notInteger {k : ℕ} {t : Token} (hk : k % 2 = 0) (h : stream k = .ok t)
      (ht : t.kind ≠ .integer) : FaultAt k (.grammar .integer t)
  /-- An integer stands at an odd place, or the line ends behind its first integer. -/
  | notOperator {k : ℕ} {t : Token} (hk : k % 2 = 1) (h : stream k = .ok t)
      (ht : t.kind = .integer ∨ (k = 1 ∧ t.kind = .endOfInput)) : FaultAt k (.grammar .operator t)
  /-- The pair that an integer completes has no result. -/
  | arithmetic {k j : ℕ} {acc : Number} {op : Operator} {n : ℤ} {e : ArithmeticError}
      (hk : k = 2 * j + 2) (hacc : runningResult stream j = some acc)
      (hop : Scanner.operatorOf (stream (2 * j + 1)) = some op)
      (hn : Scanner.integerOf (stream k) = some n)
      (h : acc.apply (.operator op) (.integer n) = .error e) : FaultAt k (.arithmetic e)

/-- The line ends at an odd place behind a whole pair. -/
def EndsAt (k : ℕ) : Prop :=
  k % 2 = 1 ∧ 3 ≤ k ∧ ∃ t, stream k = .ok t ∧ t.kind = .endOfInput

/-- The failure at a place is the first thing that settles the outcome of a line. -/
def FirstFault (k : ℕ) (f : Failure) : Prop :=
  FaultAt stream k f ∧ ∀ j < k, (∀ g, ¬FaultAt stream j g) ∧ ¬EndsAt stream j

/-- What an evaluation that has not stopped knows before a place. -/
inductive Stands : ℕ → Progress → Prop
  | start : Stands 0 .start
  | value {j : ℕ} {acc : Number} (hacc : runningResult stream j = some acc) :
      Stands (2 * j + 1) (.afterValue acc (decide (0 < j)))
  | operator {j : ℕ} {acc : Number} {op : Operator} (hacc : runningResult stream j = some acc)
      (hop : Scanner.operatorOf (stream (2 * j + 1)) = some op) :
      Stands (2 * j + 2) (.afterOperator acc op)

end Stream

variable {stream : ℕ → Item}

/-! ## Tokens -/

/-- Every literal among the items has a value. -/
def LiteralsHaveValues (stream : ℕ → Item) : Prop :=
  ∀ k t, stream k = .ok t → t.kind = .integer → ∃ n, t.value = some n

theorem literalsHaveValues_item (s : Scanner) : LiteralsHaveValues s.item := by
  intro k t h hk
  rcases Scanner.token_of_next h with ⟨pos, rfl⟩ | ⟨value, pos, rfl⟩ | ⟨op, pos, rfl⟩
  · exact absurd hk (by simp [Token.endAt])
  · exact ⟨value, rfl⟩
  · exact absurd hk (by simp [Token.operatorAt])

/-! ## One place -/

/-- A failure at the place where an evaluation stands stops it. -/
theorem Stands.move_of_faultAt {k : ℕ} {p : Progress} {f : Failure} (hp : Stands stream k p)
    (h : FaultAt stream k f) : p.move (stream k) = .stop (.error f) := by
  -- The parity of the place leaves the states that an evaluation can have there.
  cases h with
  | scan h => rw [h]; rfl
  | @notInteger t hk h ht =>
    rw [h]
    cases hp with
    | start => exact Progress.move_start_ne ht
    | value hacc => omega
    | operator hacc hop => exact Progress.move_afterOperator_ne ht
  | @notOperator t hk h ht =>
    rw [h]
    cases hp with
    | start => omega
    | @value j acc hacc =>
      rcases ht with ht | ⟨hone, ht⟩
      · exact Progress.move_afterValue_integer ht
      · obtain rfl : j = 0 := by omega
        exact Progress.move_afterValue_end ht
    | operator hacc hop => omega
  | @arithmetic j acc op n e hk hacc hop hn h =>
    obtain ⟨t, ht, hkind, hvalue⟩ := integerOf_eq_some_iff.mp hn
    rw [ht]
    cases hp with
    | start => omega
    | value hacc' => omega
    | @operator i acc' op' hacc' hop' =>
      obtain rfl : i = j := by omega
      obtain rfl : acc' = acc := Option.some.inj (hacc'.symm.trans hacc)
      obtain rfl : op' = op := Option.some.inj (hop'.symm.trans hop)
      exact Progress.move_afterOperator_error (expectInteger_eq_ok_iff.mpr ⟨hkind, hvalue⟩) h

/-- Behind an integer an evaluation stops where an operator should be, or where the pair that the
integer completes has no result. -/
theorem Stands.faultAt_of_integer {k : ℕ} {p : Progress} {f : Failure} {t : Token} {n : ℤ}
    (hp : Stands stream k p) (hitem : stream k = .ok t) (hkind : t.kind = .integer)
    (hvalue : t.value = some n) (h : p.move (.ok t) = .stop (.error f)) : FaultAt stream k f := by
  have hi := expectInteger_eq_ok_iff.mpr ⟨hkind, hvalue⟩
  cases hp with
  | start =>
    rw [Progress.move_start_integer hi] at h
    exact absurd h (by simp)
  | @value j acc hacc =>
    rw [Progress.move_afterValue_integer hkind] at h
    obtain rfl : .grammar .operator t = f := by simpa using h
    exact .notOperator (by omega) hitem (.inl hkind)
  | @operator j acc op hacc hop =>
    cases hr : acc.operate op (.integer n) with
    | error e =>
      rw [Progress.move_afterOperator_error hi hr] at h
      obtain rfl : .arithmetic e = f := by simpa using h
      exact .arithmetic rfl hacc hop (integerOf_eq_some_iff.mpr ⟨t, hitem, hkind, hvalue⟩) hr
    | ok result =>
      rw [Progress.move_afterOperator_ok hi hr] at h
      exact absurd h (by simp)

/-- Behind any other token an evaluation stops where an integer should be, or at the end of the line
behind the first integer. -/
theorem Stands.faultAt_of_ne {k : ℕ} {p : Progress} {f : Failure} {t : Token}
    (hp : Stands stream k p) (hitem : stream k = .ok t) (hkind : t.kind ≠ .integer)
    (h : p.move (.ok t) = .stop (.error f)) : FaultAt stream k f := by
  cases hp with
  | start =>
    rw [Progress.move_start_ne hkind] at h
    obtain rfl : .grammar .integer t = f := by simpa using h
    exact .notInteger rfl hitem hkind
  | @value j acc hacc =>
    cases hk : t.kind with
    | integer => exact absurd hk hkind
    | operator op =>
      rw [Progress.move_afterValue_operator hk] at h
      exact absurd h (by simp)
    | endOfInput =>
      rw [Progress.move_afterValue_end hk] at h
      by_cases hj : 0 < j
      · simp [hj] at h
      · obtain rfl : .grammar .operator t = f := by simpa [hj] using h
        exact .notOperator (by omega) hitem (.inr ⟨by omega, hk⟩)
  | operator hacc hop =>
    rw [Progress.move_afterOperator_ne hkind] at h
    obtain rfl : .grammar .integer t = f := by simpa using h
    exact .notInteger (by omega) hitem hkind

/-- A failure that stops an evaluation stands at its place. -/
theorem Stands.faultAt_of_move {k : ℕ} {p : Progress} {f : Failure}
    (hvalues : LiteralsHaveValues stream) (hp : Stands stream k p)
    (h : p.move (stream k) = .stop (.error f)) : FaultAt stream k f := by
  cases hitem : stream k with
  | error e =>
    rw [hitem] at h
    obtain rfl : .scan e = f := Except.error.inj (Move.stop.inj h)
    exact .scan hitem
  | ok t =>
    rw [hitem] at h
    by_cases hkind : t.kind = .integer
    · obtain ⟨n, hvalue⟩ := hvalues k t hitem hkind
      exact hp.faultAt_of_integer hitem hkind hvalue h
    · exact hp.faultAt_of_ne hitem hkind h

/-- An evaluation stops with a value just where the line ends. -/
theorem Stands.endsAt_iff {k : ℕ} {p : Progress} (hp : Stands stream k p) :
    EndsAt stream k ↔ ∃ v, p.move (stream k) = .stop (.ok v) := by
  simp only [Progress.move_eq_stop_ok_iff]
  constructor
  · rintro ⟨hodd, hk, t, hitem, hkind⟩
    cases hp with
    | start => omega
    | @value j acc hacc =>
      have hj : decide (0 < j) = true := by simp; omega
      exact ⟨acc, by rw [hj], t, hitem, by simp [Token.isEnd, hkind]⟩
    | operator hacc hop => omega
  · rintro ⟨v, rfl, t, hitem, hend⟩
    -- `hp` can only be taken apart when the flag in its state is a variable.
    generalize hreduced : true = reduced at hp
    cases hp with
    | @value j acc hacc =>
      have hj : 0 < j := by simpa using hreduced
      exact ⟨by omega, by omega, t, hitem, by simpa [Token.isEnd] using hend⟩

/-- An evaluation that goes on stands at the next place. -/
theorem Stands.succ {k : ℕ} {p q : Progress} {steps : List Reduction} (hp : Stands stream k p)
    (h : p.move (stream k) = .goOn steps q) : Stands stream (k + 1) q := by
  cases hp with
  | start =>
    obtain ⟨n, hn, -, rfl⟩ := Progress.move_start_eq_goOn_iff.mp h
    exact Stands.value (j := 0) (by simp [runningResult, hn])
  | @value j acc hacc =>
    obtain ⟨op, hop, -, rfl⟩ := Progress.move_afterValue_eq_goOn_iff.mp h
    exact Stands.operator hacc hop
  | @operator j acc op hacc hop =>
    obtain ⟨n, result, hn, hr, -, rfl⟩ := Progress.move_afterOperator_eq_goOn_iff.mp h
    refine Stands.value (j := j + 1) ?_
    simp [runningResult, hacc, hop, hn, hr, Except.toOption]

/-! ## All places -/

theorem stands_of_along {k : ℕ} {p : Progress} (h : Progress.start.along stream k = some p) :
    Stands stream k p := by
  induction k generalizing p with
  | zero =>
    obtain rfl : Progress.start = p := Option.some.inj h
    exact .start
  | succ k ih =>
    obtain ⟨q, steps, hq, hmove⟩ := Progress.exists_goOn_of_along_succ h
    exact (ih hq).succ hmove

/-- Before a place that an evaluation reaches nothing settles the outcome. -/
theorem unsettled_of_along {k : ℕ} {p : Progress} (h : Progress.start.along stream k = some p) :
    ∀ j < k, (∀ g, ¬FaultAt stream j g) ∧ ¬EndsAt stream j := by
  induction k generalizing p with
  | zero => intro j hj; omega
  | succ k ih =>
    obtain ⟨q, steps, hq, hmove⟩ := Progress.exists_goOn_of_along_succ h
    have hstands := stands_of_along hq
    intro j hj
    by_cases hjk : j < k
    · exact ih hq j hjk
    · obtain rfl : j = k := by omega
      constructor
      · intro g hg
        have hstop := hstands.move_of_faultAt hg
        rw [hmove] at hstop
        exact absurd hstop (by simp)
      · intro hend
        obtain ⟨v, hstop⟩ := hstands.endsAt_iff.mp hend
        rw [hmove] at hstop
        exact absurd hstop (by simp)

/-- An evaluation reaches every place before which nothing settles the outcome. -/
theorem exists_along_of_unsettled (hvalues : LiteralsHaveValues stream) {k : ℕ}
    (h : ∀ j < k, (∀ g, ¬FaultAt stream j g) ∧ ¬EndsAt stream j) :
    ∃ p, Progress.start.along stream k = some p := by
  induction k with
  | zero => exact ⟨.start, rfl⟩
  | succ k ih =>
    obtain ⟨q, hq⟩ := ih fun j hj => h j (by omega)
    obtain ⟨hfault, hend⟩ := h k (Nat.lt_succ_self k)
    have hstands := stands_of_along hq
    rw [Progress.along, hq]
    cases hmove : q.move (stream k) with
    | goOn steps q' => exact ⟨q', by simp [hmove]⟩
    | stop outcome =>
      cases outcome with
      | error f => exact absurd (hstands.faultAt_of_move hvalues hmove) (hfault f)
      | ok v => exact absurd (hstands.endsAt_iff.mpr ⟨v, hmove⟩) hend

/-- **An evaluation stops with a failure just at the first place that has one.** -/
theorem exists_firstFault_iff (hvalues : LiteralsHaveValues stream) (f : Failure) :
    (∃ k p, Progress.start.along stream k = some p ∧ p.move (stream k) = .stop (.error f)) ↔
      ∃ k, FirstFault stream k f := by
  constructor
  · rintro ⟨k, p, hp, hstop⟩
    exact ⟨k, (stands_of_along hp).faultAt_of_move hvalues hstop, unsettled_of_along hp⟩
  · rintro ⟨k, hfault, hbefore⟩
    obtain ⟨p, hp⟩ := exists_along_of_unsettled hvalues hbefore
    exact ⟨k, p, hp, (stands_of_along hp).move_of_faultAt hfault⟩

theorem outcome_eq_error_iff_firstFault (line : List Char) (f : Failure) :
    outcome line = .error f ↔ ∃ k, FirstFault (Scanner.ofLine line).item k f := by
  rw [← exists_firstFault_iff (literalsHaveValues_item _)]
  exact Progress.outcome_finish_iff .start (.ofLine line) (.error f)

/-! ## Whatever follows -/

theorem runningResult_congr {stream' : ℕ → Item} {j : ℕ}
    (h : ∀ i ≤ 2 * j, stream' i = stream i) : runningResult stream' j = runningResult stream j := by
  induction j with
  | zero => rw [runningResult, runningResult, h 0 (by omega)]
  | succ j ih =>
    rw [runningResult, runningResult, ih fun i hi => h i (by omega), h (2 * j + 1) (by omega),
      h (2 * j + 2) (by omega)]

/-- The failure at a place hangs on the items up to it. -/
theorem faultAt_congr {stream' : ℕ → Item} {k : ℕ} {f : Failure}
    (h : ∀ i ≤ k, stream' i = stream i) (hf : FaultAt stream k f) : FaultAt stream' k f := by
  have hk := h k (Nat.le_refl k)
  cases hf with
  | scan he => exact .scan (hk.trans he)
  | notInteger heven ht hkind => exact .notInteger heven (hk.trans ht) hkind
  | notOperator hodd ht hkind => exact .notOperator hodd (hk.trans ht) hkind
  | @arithmetic j acc op n e hj hacc hop hn he =>
    refine .arithmetic hj ?_ ?_ (by rw [hk]; exact hn) he
    · rw [runningResult_congr fun i hi => h i (by omega)]
      exact hacc
    · rw [h (2 * j + 1) (by omega)]
      exact hop

theorem firstFault_congr {stream' : ℕ → Item} {k : ℕ} {f : Failure}
    (h : ∀ i ≤ k, stream' i = stream i) (hf : FirstFault stream k f) :
    FirstFault stream' k f := by
  refine ⟨faultAt_congr h hf.1, fun j hj => ⟨fun g hg => ?_, ?_⟩⟩
  · exact (hf.2 j hj).1 g (faultAt_congr (fun i hi => (h i (by omega)).symm) hg)
  · rintro ⟨hodd, hthree, t, ht, hkind⟩
    exact (hf.2 j hj).2 ⟨hodd, hthree, t, (h j (by omega)).symm.trans ht, hkind⟩

/-- **Which failure wins.** A line has a failure just when it is the first one among its items,
whatever items follow it. The integer that is asked for is never one that was found, nor is the
operator, and the end of the line is no operator only behind the first integer. -/
theorem outcome_eq_error_iff (line : List Char) :
    (∀ f, outcome line = .error f ↔ ∃ k, FirstFault (Scanner.ofLine line).item k f) ∧
    (∀ k f line', FirstFault (Scanner.ofLine line).item k f →
      (∀ i ≤ k, (Scanner.ofLine line').item i = (Scanner.ofLine line).item i) →
        outcome line' = .error f) ∧
    (∀ t, outcome line = .error (.grammar .integer t) → t.kind ≠ .integer) ∧
    (∀ t, outcome line = .error (.grammar .operator t) →
      (∀ op, t.kind ≠ .operator op) ∧
        (t.kind = .endOfInput → (Scanner.ofLine line).item 1 = .ok t)) := by
  refine ⟨outcome_eq_error_iff_firstFault line, ?_, ?_, ?_⟩
  · intro k f line' hf h
    exact (outcome_eq_error_iff_firstFault line' f).mpr ⟨k, firstFault_congr h hf⟩
  · intro t ht
    obtain ⟨k, hf, -⟩ := (outcome_eq_error_iff_firstFault line _).mp ht
    cases hf with
    | notInteger hk h hkind => exact hkind
  · intro t ht
    obtain ⟨k, hf, -⟩ := (outcome_eq_error_iff_firstFault line _).mp ht
    cases hf with
    | notOperator hk h hkind =>
      rcases hkind with hkind | ⟨rfl, hkind⟩
      · exact ⟨by simp [hkind], by simp [hkind]⟩
      · exact ⟨by simp [hkind], fun _ => h⟩

/-- A division by zero comes before a character behind it that belongs to no token, and before an
integer behind it that stands for an operator. -/
theorem outcome_division_before_rest :
    outcome ['1', '/', '0', ' ', 'x'] =
        .error (.arithmetic (.divisionByZero (.integer 1) (.integer 0))) ∧
      outcome ['1', '/', '0', ' ', '2'] =
        .error (.arithmetic (.divisionByZero (.integer 1) (.integer 0))) := by
  have hfirst : FirstFault (Scanner.ofLine ['1', '/', '0', ' ', 'x']).item 2
      (.arithmetic (.divisionByZero (.integer 1) (.integer 0))) := by
    refine ⟨.arithmetic (j := 0) rfl rfl rfl rfl rfl, ?_⟩
    exact unsettled_of_along (p := .afterOperator (.integer 1) .divide) rfl
  obtain ⟨hiff, hfollows, -⟩ := outcome_eq_error_iff ['1', '/', '0', ' ', 'x']
  exact ⟨(hiff _).mpr ⟨2, hfirst⟩, hfollows 2 _ _ hfirst (by decide)⟩

end Abacus
