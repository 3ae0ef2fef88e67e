import Abacus.Proofs.Layout

/-!
# A result in place of its expression

Behind a line that has a value, an evaluation knows that value and nothing else of the line
(`outcome_append_of_value`). The numeral of an integer leads it to the same place, save that an
operator has to follow. So whatever starts with an operator goes on from the numeral as from the
line (`outcome_append_display`).
-/
namespace Abacus

/-- An operator behind a running result is read with the blanks in front of it. -/
theorem Progress.outcome_finish_operator {blanks : List Char}
    (hb : ∀ c ∈ blanks, Text.isBlank c = true) (acc : Number) (reduced : Bool) (op : Operator)
    (rest : List Char) (pos : ℕ) :
    ((afterValue acc reduced).finish ⟨blanks ++ op.toChar :: rest, pos⟩).outcome =
      ((afterOperator acc op).finish ⟨rest, pos + blanks.length + 1⟩).outcome := by
  have hnext := Scanner.next_of_reads (@Scanner.Reads.operator _ rest pos op hb)
  have hmove := @move_afterValue_operator acc reduced op (.operatorAt op (pos + blanks.length)) rfl
  rw [outcome_finish_of_goOn (by rw [hnext]; exact hmove), hnext]

/-- **Behind a line that has a value**, an evaluation goes on with that value. -/
theorem outcome_append_of_value {line more : List Char} {v : Number} (h : outcome line = .ok v)
    (hseparate : Separate line more) :
    ∃ blanks pos, (∀ c ∈ blanks, Text.isBlank c = true) ∧
      outcome (line ++ more) =
        ((Progress.afterValue v true).finish ⟨blanks ++ more, pos⟩).outcome := by
  obtain ⟨k, q, hq, hstop⟩ :=
    (Progress.outcome_finish_iff .start (.ofLine line) (.ok v)).mp h
  obtain ⟨rfl, t, hitem, ht⟩ := Progress.move_eq_stop_ok_iff.mp hstop
  have hending : Scanner.isEnding ((Scanner.ofLine line).item k) = true := by
    rw [hitem]
    exact ht
  exact ⟨_, _, Scanner.isBlank_of_isEnding hending, outcome_append_of_along hseparate hq⟩

/-- Behind a numeral, an evaluation goes on with its value, to which nothing has been reduced. -/
theorem outcome_toDigits_append {more : List Char} (h : more.takeWhile Char.isDigit = [])
    (n : ℕ) :
    outcome (Nat.toDigits 10 n ++ more) =
      ((Progress.afterValue (.integer n) false).finish
        ⟨more, (Nat.toDigits 10 n).length⟩).outcome := by
  have hnext := @Scanner.next_toDigits [] more (by simp) h n 0
  rw [List.nil_append, List.length_nil, Nat.zero_add] at hnext
  have hmove := Progress.move_start_integer (t := .literal n 0) rfl
  change (Progress.start.finish ⟨Nat.toDigits 10 n ++ more, 0⟩).outcome = _
  rw [Progress.outcome_finish_of_goOn (by rw [hnext]; exact hmove), hnext, Nat.zero_add]

theorem exists_eq_append_operator {more : List Char} {op : Operator}
    (h : (more.dropWhile Text.isBlank).head? = some op.toChar) :
    ∃ blanks rest, (∀ c ∈ blanks, Text.isBlank c = true) ∧ more = blanks ++ op.toChar :: rest := by
  obtain ⟨rest, hrest⟩ := List.head?_eq_some_iff.mp h
  refine ⟨more.takeWhile Text.isBlank, rest, fun c hc => List.mem_takeWhile_imp hc, ?_⟩
  rw [← hrest, List.takeWhile_append_dropWhile]

/-- **A result can stand for its expression.** Whatever follows a line with an integer for its
value, if it starts with an operator, leads to the same number or to the same message behind the
display of that value. -/
theorem outcome_append_display {line more : List Char} {v : ℤ}
    (hvalue : outcome line = .ok (.integer v)) (hv : 0 ≤ v)
    (hmore : ∃ op : Operator, (more.dropWhile Text.isBlank).head? = some op.toChar) :
    Agree (outcome (line ++ more)) (outcome ((Number.integer v).display.toList ++ more)) ∧
      (outcome (line ++ more)).mapError Failure.message =
        (outcome ((Number.integer v).display.toList ++ more)).mapError Failure.message := by
  suffices h : Agree (outcome (line ++ more))
      (outcome ((Number.integer v).display.toList ++ more)) from ⟨h, h.message_eq⟩
  obtain ⟨op, hop⟩ := hmore
  obtain ⟨blanks, rest, hb, rfl⟩ := exists_eq_append_operator hop
  have hdigits : (blanks ++ op.toChar :: rest).takeWhile Char.isDigit = [] :=
    takeWhile_isDigit_append hb fun _ => by simp
  obtain ⟨n, rfl⟩ := Int.eq_ofNat_of_zero_le hv
  obtain ⟨trail, pos, htrail, houtcome⟩ :=
    outcome_append_of_value hvalue (.of_takeWhile_eq_nil hdigits)
  have hblanks : ∀ c ∈ trail ++ blanks, Text.isBlank c = true :=
    List.forall_mem_append.mpr ⟨htrail, hb⟩
  rw [houtcome, ← List.append_assoc, Progress.outcome_finish_operator hblanks,
    Number.display_integer, toList_toString_natCast,
    outcome_toDigits_append hdigits, Progress.outcome_finish_operator hb]
  refine (Progress.agree_finish _ _ _ ?_).1
  rfl

/-- Behind a sum and behind its display the same character is not known, at another place. -/
theorem outcome_append_display_sum :
    outcome ['2', '+', '3'] = .ok (.integer 5) ∧
      outcome ['2', '+', '3', ' ', '*', 'x'] = .error (.scan ⟨'x', 5⟩) ∧
      outcome ['5', ' ', '*', 'x'] = .error (.scan ⟨'x', 3⟩) ∧
      Agree (outcome (['2', '+', '3'] ++ [' ', '*', 'x']))
        (outcome ((Number.integer 5).display.toList ++ [' ', '*', 'x'])) := by
  have hvalue : outcome ['2', '+', '3'] = .ok (.integer 5) := by decide +kernel
  refine ⟨hvalue, by decide +kernel, by decide +kernel, ?_⟩
  exact (outcome_append_display hvalue (by decide) ⟨.multiply, by decide⟩).1

end Abacus
