import Abacus.Evaluation
import Abacus.Proofs.ItemStream

/-!
# Evaluating one item at a time

An evaluation asks its scanner for items until one of them settles the outcome. `Progress` is what
it knows between two items, and `Progress.move` is what the next item leads to. `finish_eq` says
that evaluating makes these moves and no others; `finish_course` fixes from it what an evaluation
reads, what it reduces, and where it leaves the scanner.

`Progress.along` counts the items instead: `outcome_finish_iff` says at which item of the stream an
evaluation stops.
-/
namespace Abacus
open Scanner (Item)

/-- The value of a literal. -/
def Scanner.integerOf : Item → Option ℤ
  | .ok t => if t.kind = .integer then t.value else none
  | .error _ => none

/-- The operator of an operator token. -/
def Scanner.operatorOf : Item → Option Operator
  | .ok ⟨.operator op, _, _⟩ => some op
  | _ => none

theorem integerOf_eq_some_iff {item : Item} {n : ℤ} :
    Scanner.integerOf item = some n ↔ ∃ t, item = .ok t ∧ t.kind = .integer ∧ t.value = some n := by
  cases item with
  | error e => simp [Scanner.integerOf]
  | ok t => simp [Scanner.integerOf]

theorem operatorOf_eq_some_iff {item : Item} {op : Operator} :
    Scanner.operatorOf item = some op ↔ ∃ t, item = .ok t ∧ t.kind = .operator op := by
  rcases item with e | ⟨kind, value, pos⟩
  · simp [Scanner.operatorOf]
  · cases kind <;> simp [Scanner.operatorOf]

theorem expectInteger_eq_ok_iff {t : Token} {n : ℤ} :
    t.expectInteger = .ok n ↔ t.kind = .integer ∧ t.value = some n := by
  rcases t with ⟨kind, value, pos⟩
  cases kind <;> cases value <;> simp [Token.expectInteger]

theorem expectInteger_of_ne {t : Token} (h : t.kind ≠ .integer) :
    t.expectInteger = .error (.grammar .integer t) := by
  rcases t with ⟨kind, value, pos⟩
  cases kind <;> simp [Token.expectInteger] at h ⊢

theorem expectOperator_eq_ok_iff {t : Token} {op : Operator} :
    t.expectOperator = .ok op ↔ t.kind = .operator op := by
  rcases t with ⟨kind, value, pos⟩
  cases kind <;> simp [Token.expectOperator]

theorem expectOperator_of_ne {t : Token} (h : ∀ op, t.kind ≠ .operator op) :
    t.expectOperator = .error (.grammar .operator t) := by
  rcases t with ⟨kind, value, pos⟩
  cases kind with
  | operator op => exact absurd rfl (h op)
  | _ => rfl

/-- How far an evaluation has come. -/
inductive Progress
  /-- Nothing has been read. -/
  | start
  /-- There is a running result, and whether a pair has been reduced into it. -/
  | afterValue (acc : Number) (reduced : Bool)
  /-- An operator stands behind the running result. -/
  | afterOperator (acc : Number) (op : Operator)

/-- What an item leads to: the evaluation goes on, with the reductions made, or it stops. -/
inductive Move
  | goOn (steps : List Reduction) (p : Progress)
  | stop (outcome : Except Failure Number)

namespace Progress

/-- The move for a token. -/
def moveToken : Progress → Token → Move
  | start, t =>
    match t.expectInteger with
    | .error e => .stop (.error e)
    | .ok n => .goOn [] (afterValue (.integer n) false)
  | afterValue acc reduced, t =>
    if reduced && t.isEnd then .stop (.ok acc)
    else
      match t.expectOperator with
      | .error e => .stop (.error e)
      | .ok op => .goOn [] (afterOperator acc op)
  | afterOperator acc op, t =>
    match t.expectInteger with
    | .error e => .stop (.error e)
    | .ok n =>
      match acc.operate op (.integer n) with
      | .error e => .stop (.error (.arithmetic e))
      | .ok result => .goOn [⟨acc, op, .integer n, result⟩] (afterValue result true)

/-- The move for an item. -/
def move (p : Progress) : Item → Move
  | .error e => .stop (.error (.scan e))
  | .ok t => p.moveToken t

/-! ## Moves by the kind of token -/

section Tokens
variable {acc result : Number} {reduced : Bool} {op : Operator} {t : Token} {n : ℤ}

theorem move_start_integer (h : t.expectInteger = .ok n) :
    start.move (.ok t) = .goOn [] (afterValue (.integer n) false) := by
  simp [move, moveToken, h]

theorem move_start_ne (h : t.kind ≠ .integer) :
    start.move (.ok t) = .stop (.error (.grammar .integer t)) := by
  simp [move, moveToken, expectInteger_of_ne h]

theorem move_afterValue_operator (h : t.kind = .operator op) :
    (afterValue acc reduced).move (.ok t) = .goOn [] (afterOperator acc op) := by
  have ho := expectOperator_eq_ok_iff.mpr h
  simp [move, moveToken, Token.isEnd, h, ho]

theorem move_afterValue_integer (h : t.kind = .integer) :
    (afterValue acc reduced).move (.ok t) = .stop (.error (.grammar .operator t)) := by
  have ho := expectOperator_of_ne (t := t) (by simp [h])
  simp [move, moveToken, Token.isEnd, h, ho]

/-- The end of the line is looked for behind a whole pair only. -/
theorem move_afterValue_end (h : t.kind = .endOfInput) :
    (afterValue acc reduced).move (.ok t) =
      .stop (if reduced then .ok acc else .error (.grammar .operator t)) := by
  have ho := expectOperator_of_ne (t := t) (by simp [h])
  cases reduced <;> simp [move, moveToken, Token.isEnd, h, ho]

theorem move_afterOperator_ne (h : t.kind ≠ .integer) :
    (afterOperator acc op).move (.ok t) = .stop (.error (.grammar .integer t)) := by
  simp [move, moveToken, expectInteger_of_ne h]

theorem move_afterOperator_ok (h : t.expectInteger = .ok n)
    (hr : acc.operate op (.integer n) = .ok result) :
    (afterOperator acc op).move (.ok t) =
      .goOn [⟨acc, op, .integer n, result⟩] (afterValue result true) := by
  simp [move, moveToken, h, hr]

theorem move_afterOperator_error {e : ArithmeticError} (h : t.expectInteger = .ok n)
    (hr : acc.operate op (.integer n) = .error e) :
    (afterOperator acc op).move (.ok t) = .stop (.error (.arithmetic e)) := by
  simp [move, moveToken, h, hr]

end Tokens

/-! ## Moves by what they lead to -/

theorem move_start_eq_goOn_iff {item : Item} {steps : List Reduction} {q : Progress} :
    start.move item = .goOn steps q ↔
      ∃ n, Scanner.integerOf item = some n ∧ [] = steps ∧ afterValue (.integer n) false = q := by
  cases item with
  | error e => simp [move, Scanner.integerOf]
  | ok t =>
    simp only [integerOf_eq_some_iff, Except.ok.injEq, exists_eq_left', ← expectInteger_eq_ok_iff]
    cases hi : t.expectInteger <;> simp [move, moveToken, hi]

theorem move_afterValue_eq_goOn_iff {acc : Number} {reduced : Bool} {item : Item}
    {steps : List Reduction} {q : Progress} :
    (afterValue acc reduced).move item = .goOn steps q ↔
      ∃ op, Scanner.operatorOf item = some op ∧ [] = steps ∧ afterOperator acc op = q := by
  cases item with
  | error e => simp [move, Scanner.operatorOf]
  | ok t =>
    simp only [operatorOf_eq_some_iff, Except.ok.injEq, exists_eq_left']
    cases hk : t.kind <;> cases reduced <;>
      simp [move, moveToken, Token.isEnd, Token.expectOperator, hk]

theorem move_afterOperator_eq_goOn_iff {acc : Number} {op : Operator} {item : Item}
    {steps : List Reduction} {q : Progress} :
    (afterOperator acc op).move item = .goOn steps q ↔
      ∃ n result, Scanner.integerOf item = some n ∧ acc.operate op (.integer n) = .ok result ∧
        [⟨acc, op, .integer n, result⟩] = steps ∧ afterValue result true = q := by
  cases item with
  | error e => simp [move, Scanner.integerOf]
  | ok t =>
    simp only [integerOf_eq_some_iff, Except.ok.injEq, exists_eq_left', ← expectInteger_eq_ok_iff]
    cases hi : t.expectInteger with
    | error f => simp [move, moveToken, hi]
    | ok n => cases hr : acc.operate op (.integer n) <;> simp [move, moveToken, hi, hr]

/-- Only the end of the line behind a whole pair gives a value. -/
theorem move_eq_stop_ok_iff {p : Progress} {item : Item} {v : Number} :
    p.move item = .stop (.ok v) ↔
      p = afterValue v true ∧ ∃ t, item = .ok t ∧ t.isEnd = true := by
  cases item with
  | error e => simp [move]
  | ok t =>
    cases p with
    | start => cases hi : t.expectInteger <;> simp [move, moveToken, hi]
    | afterValue acc reduced =>
      cases hend : t.isEnd <;> cases reduced <;> cases ho : t.expectOperator <;>
        simp [move, moveToken, hend, ho]
    | afterOperator acc op =>
      cases hi : t.expectInteger with
      | error f => simp [move, moveToken, hi]
      | ok n => cases hr : acc.operate op (.integer n) <;> simp [move, moveToken, hi, hr]

/-- A last item stops every evaluation. -/
theorem exists_stop_of_isLast {item : Item} (h : Scanner.isLast item = true) (p : Progress) :
    ∃ outcome, p.move item = .stop outcome := by
  cases item with
  | error e => exact ⟨_, rfl⟩
  | ok t =>
    have hk : t.kind = .endOfInput := by simpa [Token.isEnd] using h
    cases p with
    | start => exact ⟨_, move_start_ne (by simp [hk])⟩
    | afterValue acc reduced => exact ⟨_, move_afterValue_end hk⟩
    | afterOperator acc op => exact ⟨_, move_afterOperator_ne (by simp [hk])⟩

/-! ## The rest of an evaluation -/

/-- The evaluation of the rest of a line, in the terms of `evaluateFrom`. -/
def finish : Progress → Scanner → Evaluation
  | start, s => evaluateFrom s
  | afterValue acc reduced, s =>
    match s.nextToken with
    | (.error e, s') => .stop (.error e) s'
    | (.ok t, s') =>
      if reduced && t.isEnd then .stop (.ok acc) s' else reduceFrom acc t s'
  | afterOperator acc op, s => reduceFrom acc ⟨.operator op, none, 0⟩ s

/-- Only the operator of a token matters behind a running result. -/
theorem reduceFrom_congr {t u : Token} (h : t.expectOperator = u.expectOperator) {op : Operator}
    (ht : t.expectOperator = .ok op) (acc : Number) (s : Scanner) :
    reduceFrom acc t s = reduceFrom acc u s := by
  have hu : u.expectOperator = .ok op := h ▸ ht
  have honce : reduceOnce acc t s = reduceOnce acc u s := by simp only [reduceOnce, ht, hu]
  rw [reduceFrom_eq, reduceFrom_eq, honce]

theorem finish_start (s : Scanner) :
    start.finish s =
      match s.nextInteger with
      | (.error e, s') => .stop (.error e) s'
      | (.ok n, s') => (afterValue (.integer n) false).finish s' := by
  rw [finish, evaluateFrom]
  rcases s.nextInteger with ⟨e | n, s'⟩
  · rfl
  · rcases hnext : s'.nextToken with ⟨e | t, s''⟩ <;> simp [finish, hnext]

theorem finish_afterOperator (acc : Number) (op : Operator) (s : Scanner) :
    (afterOperator acc op).finish s =
      match s.nextInteger with
      | (.error e, s') => .stop (.error e) s'
      | (.ok n, s') =>
        match acc.operate op (.integer n) with
        | .error e => .stop (.error (.arithmetic e)) s'
        | .ok result =>
          ((afterValue result true).finish s').after ⟨acc, op, .integer n, result⟩ := by
  rw [finish, reduceFrom_eq]
  simp only [reduceOnce, Token.expectOperator]
  rcases s.nextInteger with ⟨e | n, s'⟩
  · rfl
  · cases hr : acc.operate op (.integer n) with
    | error e => simp only [hr]
    | ok result =>
      simp only [hr, finish, Bool.true_and]
      rcases s'.nextToken with ⟨e | t, s''⟩
      · rfl
      · by_cases ht : t.isEnd = true <;> simp [ht]

/-- **Evaluating makes the moves of `Progress` and no others.** -/
theorem finish_eq (p : Progress) (s : Scanner) :
    p.finish s =
      match p.move s.next.1 with
      | .stop outcome => .stop outcome s.next.2
      | .goOn steps q =>
        ⟨(q.finish s.next.2).outcome, steps ++ (q.finish s.next.2).steps,
          (q.finish s.next.2).scanner⟩ := by
  rcases hnext : s.next with ⟨e | t, s'⟩
  · cases p with
    | start => simp [finish_start, Scanner.nextInteger, hnext, move]
    | afterValue acc reduced => simp [finish, Scanner.nextToken, hnext, move]
    | afterOperator acc op => simp [finish_afterOperator, Scanner.nextInteger, hnext, move]
  · cases p with
    | start =>
      rw [finish_start]
      cases hi : t.expectInteger <;> simp [Scanner.nextInteger, hnext, move, moveToken, hi]
    | afterValue acc reduced =>
      cases hend : reduced && t.isEnd with
      | true => simp [finish, Scanner.nextToken, hnext, move, moveToken, hend]
      | false =>
        cases ho : t.expectOperator with
        | error f =>
          simp [finish, Scanner.nextToken, hnext, move, moveToken, hend, ho, reduceFrom_eq,
            reduceOnce]
        | ok op =>
          have hcongr := reduceFrom_congr (u := ⟨.operator op, none, 0⟩)
            (by rw [ho]; rfl) ho acc s'
          simp [finish, Scanner.nextToken, hnext, move, moveToken, hend, ho, hcongr]
    | afterOperator acc op =>
      rw [finish_afterOperator]
      cases hi : t.expectInteger with
      | error f => simp [Scanner.nextInteger, hnext, move, moveToken, hi]
      | ok n =>
        cases hr : acc.operate op (.integer n) <;>
          simp [Scanner.nextInteger, hnext, move, moveToken, hi, hr, Evaluation.after]

/-! ## The course of an evaluation -/

/-- What an evaluation does with a list of items: those it reads, the reductions it makes, and the
outcome, which is missing when the items run out first. -/
structure Course where
  items : List Item
  steps : List Reduction
  outcome : Option (Except Failure Number)

/-- The course of an evaluation over a list of items. -/
def course (p : Progress) : List Item → Course
  | [] => ⟨[], [], none⟩
  | item :: rest =>
    match p.move item with
    | .stop outcome => ⟨[item], [], some outcome⟩
    | .goOn steps q =>
      let c := q.course rest
      ⟨item :: c.items, steps ++ c.steps, c.outcome⟩

theorem course_of_stop {p : Progress} {item : Item} {outcome : Except Failure Number}
    (h : p.move item = .stop outcome) (rest : List Item) :
    p.course (item :: rest) = ⟨[item], [], some outcome⟩ := by
  simp [course, h]

theorem course_of_goOn {p q : Progress} {item : Item} {steps : List Reduction}
    (h : p.move item = .goOn steps q) (rest : List Item) :
    p.course (item :: rest) =
      ⟨item :: (q.course rest).items, steps ++ (q.course rest).steps,
        (q.course rest).outcome⟩ := by
  simp [course, h]

theorem isLast_of_goOn {p q : Progress} {item : Item} {steps : List Reduction}
    (h : p.move item = .goOn steps q) : Scanner.isLast item = false := by
  cases hlast : Scanner.isLast item with
  | false => rfl
  | true =>
    obtain ⟨outcome, hstop⟩ := exists_stop_of_isLast hlast p
    rw [hstop] at h
    exact absurd h (by simp)

/-- An evaluation reads items of the list in order, from its start. -/
theorem course_items_prefix (p : Progress) (items : List Item) :
    (p.course items).items <+: items := by
  induction items generalizing p with
  | nil => exact List.prefix_rfl
  | cons item rest ih =>
    cases hmove : p.move item with
    | stop outcome =>
      rw [course_of_stop hmove]
      exact ⟨rest, rfl⟩
    | goOn steps q =>
      rw [course_of_goOn hmove, List.prefix_cons_inj]
      exact ih q

/-- The items that an evaluation reads are enough for its course. -/
theorem course_items_course (p : Progress) (items : List Item) :
    p.course (p.course items).items = p.course items := by
  induction items generalizing p with
  | nil => rfl
  | cons item rest ih =>
    cases hmove : p.move item with
    | stop outcome => rw [course_of_stop hmove, course_of_stop hmove]
    | goOn steps q => rw [course_of_goOn hmove, course_of_goOn hmove, ih q]

theorem course_items_of_stop {p : Progress} {s : Scanner} {outcome : Except Failure Number}
    (h : p.move s.next.1 = .stop outcome) :
    p.course s.items = ⟨[s.next.1], [], some outcome⟩ := by
  obtain ⟨rest, hitems⟩ := s.exists_items_eq_cons
  rw [hitems, course_of_stop h]

theorem course_items_of_goOn {p q : Progress} {s : Scanner} {steps : List Reduction}
    (h : p.move s.next.1 = .goOn steps q) :
    p.course s.items =
      ⟨s.next.1 :: (q.course s.next.2.items).items, steps ++ (q.course s.next.2.items).steps,
        (q.course s.next.2.items).outcome⟩ := by
  rcases s.last_or_token with hlast | ⟨-, t, hitem, ht⟩
  · rw [isLast_of_goOn h] at hlast
    exact absurd hlast (by decide)
  · rw [Scanner.items_of_token hitem ht, course_of_goOn h]

/-- **The items of a scanner settle its evaluation**: the outcome, the reductions, and how far the
scanner is moved. -/
theorem finish_course (p : Progress) (s : Scanner) :
    (p.course s.items).outcome = some (p.finish s).outcome ∧
      (p.course s.items).steps = (p.finish s).steps ∧
      (p.finish s).scanner = s.skip (p.course s.items).items.length := by
  induction s using Scanner.induction generalizing p with
  | step s ih =>
    cases hmove : p.move s.next.1 with
    | stop outcome =>
      rw [course_items_of_stop hmove, finish_eq, hmove]
      exact ⟨rfl, rfl, rfl⟩
    | goOn steps q =>
      obtain ⟨houtcome, hsteps, hscanner⟩ := ih (isLast_of_goOn hmove) q
      rw [course_items_of_goOn hmove, finish_eq, hmove]
      exact ⟨houtcome, by rw [hsteps], hscanner⟩

/-! ## The place where an evaluation stops -/

/-- How far an evaluation has come before the item at an index, if it has not stopped yet. -/
def along (p : Progress) (stream : ℕ → Item) : ℕ → Option Progress
  | 0 => some p
  | k + 1 =>
    match p.along stream k with
    | none => none
    | some q =>
      match q.move (stream k) with
      | .stop _ => none
      | .goOn _ q' => some q'

theorem along_succ_of_goOn {p q : Progress} {stream : ℕ → Item} {steps : List Reduction}
    (h : p.move (stream 0) = .goOn steps q) (k : ℕ) :
    p.along stream (k + 1) = q.along (fun j => stream (j + 1)) k := by
  induction k with
  | zero => simp [along, h]
  | succ k ih => rw [along, ih, along]

/-- An evaluation has come to the place behind an item only if it went on at that item. -/
theorem exists_goOn_of_along_succ {p q : Progress} {stream : ℕ → Item} {k : ℕ}
    (h : p.along stream (k + 1) = some q) :
    ∃ r steps, p.along stream k = some r ∧ r.move (stream k) = .goOn steps q := by
  rw [along] at h
  cases hr : p.along stream k with
  | none => rw [hr] at h; exact absurd h (by simp)
  | some r =>
    rw [hr] at h
    cases hmove : r.move (stream k) with
    | stop outcome => simp [hmove] at h
    | goOn steps q' =>
      obtain rfl : q' = q := by simpa [hmove] using h
      exact ⟨r, steps, rfl, hmove⟩

theorem along_succ_of_stop {p : Progress} {stream : ℕ → Item} {outcome : Except Failure Number}
    (h : p.move (stream 0) = .stop outcome) (k : ℕ) : p.along stream (k + 1) = none := by
  induction k with
  | zero => simp [along, h]
  | succ k ih => rw [along, ih]

/-- **An evaluation has the outcome of the item at which it stops.** -/
theorem outcome_finish_iff (p : Progress) (s : Scanner) (outcome : Except Failure Number) :
    (p.finish s).outcome = outcome ↔
      ∃ k q, p.along s.item k = some q ∧ q.move (s.item k) = .stop outcome := by
  induction s using Scanner.induction generalizing p with
  | step s ih =>
    cases hmove : p.move s.next.1 with
    | stop o =>
      rw [finish_eq, hmove]
      constructor
      · rintro rfl
        exact ⟨0, p, rfl, hmove⟩
      · rintro ⟨k, q, hq, hstop⟩
        cases k with
        | zero =>
          cases hq
          rw [Scanner.item_zero, hmove] at hstop
          exact Move.stop.inj hstop
        | succ k => rw [along_succ_of_stop hmove] at hq; exact absurd hq (by simp)
    | goOn steps q₀ =>
      rw [finish_eq, hmove]
      simp only [ih (isLast_of_goOn hmove)]
      constructor
      · rintro ⟨k, q, hq, hstop⟩
        exact ⟨k + 1, q, (along_succ_of_goOn hmove k).trans hq, hstop⟩
      · rintro ⟨k, q, hq, hstop⟩
        cases k with
        | zero =>
          cases hq
          rw [Scanner.item_zero, hmove] at hstop
          exact absurd hstop (by simp)
        | succ k => exact ⟨k, q, (along_succ_of_goOn hmove k).symm.trans hq, hstop⟩

end Progress
end Abacus
