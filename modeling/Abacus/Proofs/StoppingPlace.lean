import Abacus.Proofs.FirstFault

/-!
# The place where an evaluation stops

`Progress.Comes` says that an evaluation comes to a place of a stream, what it knows there, and
which reductions it has made on the way. Every evaluation stops at some place, and leaves its
scanner right behind it (`Progress.exists_stop`).

`reductionAt` is the reduction of a pair of a stream. An evaluation of the rest of a line has made,
at every place it comes to, the reductions of the pairs that stand whole before it
(`Progress.Comes.made_eq`). `exists_stop_evaluateFrom` puts this together: where the evaluation
stops, why, what it has reduced and where the scanner is.
-/
namespace Abacus
open Scanner (Item)

namespace Progress

/-- An evaluation comes to a place of a stream: what it knows there, and the reductions made before
it. -/
inductive Comes (p : Progress) (stream : ℕ → Item) : ℕ → Progress → List Reduction → Prop
  /-- It starts at the first place. -/
  | here : Comes p stream 0 p []
  /-- The item at a place lets it go on. -/
  | goOn {k : ℕ} {q q' : Progress} {made steps : List Reduction} (h : Comes p stream k q made)
      (hmove : q.move (stream k) = .goOn steps q') : Comes p stream (k + 1) q' (made ++ steps)

section Comes
variable {p q q' : Progress} {stream : ℕ → Item} {k : ℕ} {made steps : List Reduction}

theorem Comes.along_eq (h : Comes p stream k q made) : p.along stream k = some q := by
  induction h with
  | here => rfl
  | goOn h hmove ih => rw [along, ih]; simp only [hmove]

theorem Comes.not_isLast (h : Comes p stream k q made) :
    ∀ j < k, Scanner.isLast (stream j) = false := by
  induction h with
  | here => intro j hj; omega
  | @goOn k q q' made steps h hmove ih =>
    intro j hj
    rcases Nat.lt_succ_iff_lt_or_eq.mp hj with hlt | rfl
    · exact ih j hlt
    · exact isLast_of_goOn hmove

/-- An evaluation that goes on at the first place comes to the places behind it. -/
theorem Comes.behind (hfirst : p.move (stream 0) = .goOn steps q)
    (h : Comes q (fun j => stream (j + 1)) k q' made) :
    Comes p stream (k + 1) q' (steps ++ made) := by
  induction h with
  | here =>
    rw [List.append_nil]
    exact Comes.goOn .here hfirst
  | goOn h hmove ih =>
    rw [← List.append_assoc]
    exact Comes.goOn ih hmove

end Comes

/-- **Every evaluation stops at a place of its stream**: the item there settles the outcome, the
reductions are those made before it, and the scanner is right behind it. -/
theorem exists_stop (p : Progress) (s : Scanner) :
    ∃ k q, Comes p s.item k q (p.finish s).steps ∧
      q.move (s.item k) = .stop (p.finish s).outcome ∧ (p.finish s).scanner = s.skip (k + 1) := by
  induction s using Scanner.induction generalizing p with
  | step s ih =>
    cases hmove : p.move s.next.1 with
    | stop outcome =>
      rw [finish_eq, hmove]
      exact ⟨0, p, .here, hmove, rfl⟩
    | goOn steps q =>
      obtain ⟨k, q', hcomes, hstop, hscanner⟩ := ih (isLast_of_goOn hmove) q
      rw [finish_eq, hmove]
      exact ⟨k + 1, q', hcomes.behind hmove, hstop, hscanner⟩

end Progress

/-! ## The reductions before a place -/

/-- The pairs that stand whole before a place of a line: the first ends at the place 2, and each
later one two places further on. -/
def pairsBefore (k : ℕ) : ℕ := (k - 1) / 2

section Stream
variable (stream : ℕ → Item)

/-- The reduction of the pair behind a number of pairs, if the items spell the pairs up to this one
and each has a result. -/
def reductionAt (j : ℕ) : Option Reduction :=
  match runningResult stream j, Scanner.operatorOf (stream (2 * j + 1)),
    Scanner.integerOf (stream (2 * j + 2)), runningResult stream (j + 1) with
  | some acc, some op, some n, some result => some ⟨acc, op, .integer n, result⟩
  | _, _, _, _ => none

variable {stream} {j : ℕ} {acc : Number} {op : Operator} {n : ℤ}

theorem runningResult_succ (hacc : runningResult stream j = some acc)
    (hop : Scanner.operatorOf (stream (2 * j + 1)) = some op)
    (hn : Scanner.integerOf (stream (2 * j + 2)) = some n) :
    runningResult stream (j + 1) = (acc.apply (.operator op) (.integer n)).toOption := by
  simp only [runningResult, hacc, hop, hn]

theorem reductionAt_eq_some_iff {r : Reduction} :
    reductionAt stream j = some r ↔
      runningResult stream j = some r.lhs ∧
        Scanner.operatorOf (stream (2 * j + 1)) = some r.op ∧
        (∃ n, Scanner.integerOf (stream (2 * j + 2)) = some n ∧ r.rhs = .integer n) ∧
        runningResult stream (j + 1) = some r.result := by
  obtain ⟨lhs, op, rhs, result⟩ := r
  rw [reductionAt]
  cases runningResult stream j <;> cases Scanner.operatorOf (stream (2 * j + 1)) <;>
    cases Scanner.integerOf (stream (2 * j + 2)) <;> cases runningResult stream (j + 1) <;>
    simp [eq_comm]

/-- **At every place that an evaluation comes to** it has made the reductions of the pairs before
it: one for each, in order. -/
theorem Progress.Comes.made_eq {k : ℕ} {q : Progress} {made : List Reduction}
    (h : Progress.start.Comes stream k q made) :
    made.map some = (List.range (pairsBefore k)).map (reductionAt stream) := by
  induction h with
  | here => rfl
  | @goOn k q q' made steps h hmove ih =>
    -- Only the integer that completes a pair makes a reduction, and it stands at an even place.
    cases stands_of_along h.along_eq with
    | start =>
      obtain ⟨n, -, rfl, rfl⟩ := Progress.move_start_eq_goOn_iff.mp hmove
      rw [List.append_nil, ih]
      rfl
    | @value j acc hacc =>
      obtain ⟨op, -, rfl, rfl⟩ := Progress.move_afterValue_eq_goOn_iff.mp hmove
      have hpairs : pairsBefore (2 * j + 1 + 1) = pairsBefore (2 * j + 1) := by
        rw [pairsBefore, pairsBefore]
        omega
      rw [List.append_nil, ih, hpairs]
    | @operator j acc op hacc hop =>
      obtain ⟨n, result, hn, hr, rfl, rfl⟩ := Progress.move_afterOperator_eq_goOn_iff.mp hmove
      have hbefore : pairsBefore (2 * j + 2) = j := by rw [pairsBefore]; omega
      have hbehind : pairsBefore (2 * j + 2 + 1) = j + 1 := by rw [pairsBefore]; omega
      have hresult : runningResult stream (j + 1) = some result := by
        rw [runningResult_succ hacc hop hn, Number.apply_operator, hr]
        rfl
      have hreduction : reductionAt stream j = some ⟨acc, op, .integer n, result⟩ :=
        reductionAt_eq_some_iff.mpr ⟨hacc, hop, ⟨n, hn, rfl⟩, hresult⟩
      rw [hbefore] at ih
      rw [List.map_append, ih, hbehind, List.range_succ, List.map_append, List.map_singleton,
        List.map_singleton, hreduction]

end Stream

theorem length_of_map_some {stream : ℕ → Item} {steps : List Reduction} {k : ℕ}
    (h : steps.map some = (List.range (pairsBefore k)).map (reductionAt stream)) :
    steps.length = pairsBefore k := by
  simpa using congrArg List.length h

/-! ## The rest of a line -/

/-- An item settles the outcome of the rest of a line: the line ends behind a whole pair, or the
item is the first that has a failure. -/
def SettledAt (stream : ℕ → Item) (k : ℕ) : Except Failure Number → Prop
  | .ok v => EndsAt stream k ∧ runningResult stream (pairsBefore k) = some v
  | .error f => FirstFault stream k f

/-- **An evaluation of the rest of a line** stops at the item that settles its outcome, right behind
which it leaves the scanner; its reductions are those of the pairs before the item. -/
theorem exists_stop_evaluateFrom (s : Scanner) :
    ∃ k, SettledAt s.item k (evaluateFrom s).outcome ∧
      (∀ j < k, Scanner.isLast (s.item j) = false) ∧
      (evaluateFrom s).steps.map some = (List.range (pairsBefore k)).map (reductionAt s.item) ∧
      (evaluateFrom s).scanner = s.skip (k + 1) := by
  obtain ⟨k, q, hcomes, hstop, hscanner⟩ := Progress.start.exists_stop s
  change Progress.start.Comes s.item k q (evaluateFrom s).steps at hcomes
  change q.move (s.item k) = .stop (evaluateFrom s).outcome at hstop
  refine ⟨k, ?_, hcomes.not_isLast, hcomes.made_eq, hscanner⟩
  have hstands := stands_of_along hcomes.along_eq
  cases houtcome : (evaluateFrom s).outcome with
  | error f =>
    rw [houtcome] at hstop
    exact ⟨hstands.faultAt_of_move (literalsHaveValues_item s) hstop,
      unsettled_of_along hcomes.along_eq⟩
  | ok v =>
    rw [houtcome] at hstop
    obtain ⟨rfl, -⟩ := Progress.move_eq_stop_ok_iff.mp hstop
    refine ⟨hstands.endsAt_iff.mpr ⟨v, hstop⟩, ?_⟩
    -- `hstands` can only be taken apart when the flag in its state is a variable.
    generalize true = reduced at hstands
    cases hstands with
    | @value j acc hacc =>
      have hbefore : pairsBefore (2 * j + 1) = j := by rw [pairsBefore]; omega
      rw [hbefore]
      exact hacc

end Abacus
