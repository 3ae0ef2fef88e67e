import Abacus.Proofs.Progress

/-!
# The grammar of lines and their value

A line is an integer followed by one or more pairs of an operator and an integer. `pairLabels`
spells such pairs as tokens without their places, and `reducePairs` is the left fold over them.
`outcome_eq_ok_iff` says that the lines with a value are the lines whose tokens are spelled so, and
that the value is the left fold: reading a token ahead and reducing at once, as an evaluation does,
is the same as scanning the whole line, matching its tokens and folding them.
-/
namespace Abacus
open Scanner (Item)

/-- What a token says, whatever its place. -/
def Token.label (t : Token) : TokenKind × Option ℤ := (t.kind, t.value)

/-- The labels of pairs of an operator and an integer. -/
def pairLabels (pairs : List (Operator × ℤ)) : List (TokenKind × Option ℤ) :=
  pairs.flatMap fun pair => [(.operator pair.1, none), (.integer, some pair.2)]

/-- The labels of a line: an integer and the pairs behind it. -/
def lineLabels (first : ℤ) (pairs : List (Operator × ℤ)) : List (TokenKind × Option ℤ) :=
  (.integer, some first) :: pairLabels pairs

/-- The left fold of pairs into a number: every step must have a result. -/
def reducePairs (acc : Number) (pairs : List (Operator × ℤ)) : Except ArithmeticError Number :=
  pairs.foldlM (fun acc pair => acc.apply (.operator pair.1) (.integer pair.2)) acc

@[simp] theorem pairLabels_nil : pairLabels [] = [] := rfl

@[simp] theorem pairLabels_cons (op : Operator) (n : ℤ) (pairs : List (Operator × ℤ)) :
    pairLabels ((op, n) :: pairs) =
      (.operator op, none) :: (.integer, some n) :: pairLabels pairs := rfl

theorem reducePairs_cons (acc : Number) (op : Operator) (n : ℤ) (pairs : List (Operator × ℤ)) :
    reducePairs acc ((op, n) :: pairs) =
      match acc.operate op (.integer n) with
      | .error e => .error e
      | .ok result => reducePairs result pairs := by
  rw [reducePairs, List.foldlM_cons, Number.apply_operator]
  cases acc.operate op (.integer n) <;> rfl

@[simp] theorem label_literal (value pos : ℕ) :
    (Token.literal value pos).label = (.integer, some (value : ℤ)) := rfl

@[simp] theorem label_operatorAt (op : Operator) (pos : ℕ) :
    (Token.operatorAt op pos).label = (.operator op, none) := rfl

namespace Progress

/-! ## Moves for the last item -/

theorem move_start_last {last : Item} (h : Scanner.isLast last = true) (v : Number) :
    start.move last ≠ .stop (.ok v) := by
  cases last with
  | error e => simp [move]
  | ok t =>
    have hk : t.kind = .endOfInput := by simpa [Token.isEnd] using h
    rw [move_start_ne (by simp [hk])]
    simp

theorem move_afterValue_last {last : Item} (h : Scanner.isLast last = true) (acc : Number)
    (reduced : Bool) (v : Number) :
    (afterValue acc reduced).move last = .stop (.ok v) ↔
      (∃ t, last = .ok t) ∧ reduced = true ∧ v = acc := by
  cases last with
  | error e => simp [move]
  | ok t =>
    have hk : t.kind = .endOfInput := by simpa [Token.isEnd] using h
    rw [move_afterValue_end hk]
    cases reduced <;> simp [eq_comm]

theorem move_afterOperator_last {last : Item} (h : Scanner.isLast last = true) (acc : Number)
    (op : Operator) (v : Number) : (afterOperator acc op).move last ≠ .stop (.ok v) := by
  cases last with
  | error e => simp [move]
  | ok t =>
    have hk : t.kind = .endOfInput := by simpa [Token.isEnd] using h
    rw [move_afterOperator_ne (by simp [hk])]
    simp

theorem outcome_course_singleton {p : Progress} {last : Item} (h : Scanner.isLast last = true)
    (outcome : Except Failure Number) :
    (p.course [last]).outcome = some outcome ↔ p.move last = .stop outcome := by
  obtain ⟨o, hstop⟩ := exists_stop_of_isLast h p
  simp [course_of_stop hstop, hstop]

end Progress

/-! ## Tokens that fold to a value -/

/-- The tokens spell pairs that fold into a number; where nothing has been reduced before, there is
a pair. -/
def PairsGive (acc : Number) (reduced : Bool) (tokens : List Token) (v : Number) : Prop :=
  ∃ pairs, tokens.map Token.label = pairLabels pairs ∧ (reduced = true ∨ pairs ≠ []) ∧
    reducePairs acc pairs = .ok v

/-- The tokens spell the integer behind an operator and pairs behind it. -/
def OperandGives (acc : Number) (op : Operator) (tokens : List Token) (v : Number) : Prop :=
  ∃ n pairs, tokens.map Token.label = (.integer, some n) :: pairLabels pairs ∧
    reducePairs acc ((op, n) :: pairs) = .ok v

theorem pairsGive_nil {acc v : Number} {reduced : Bool} :
    PairsGive acc reduced [] v ↔ reduced = true ∧ v = acc := by
  constructor
  · rintro ⟨pairs, hlabels, hreduced, hv⟩
    cases pairs with
    | nil => exact ⟨by simpa using hreduced, (Except.ok.inj hv).symm⟩
    | cons pair pairs => exact absurd hlabels (by simp [pairLabels])
  · rintro ⟨hreduced, rfl⟩
    exact ⟨[], rfl, .inl hreduced, rfl⟩

theorem pairsGive_operator {acc v : Number} {reduced : Bool} {op : Operator} {pos : ℕ}
    {tokens : List Token} :
    PairsGive acc reduced (.operatorAt op pos :: tokens) v ↔ OperandGives acc op tokens v := by
  constructor
  · rintro ⟨pairs, hlabels, -, hv⟩
    cases pairs with
    | nil => exact absurd hlabels (by simp)
    | cons pair pairs =>
      obtain ⟨op', n⟩ := pair
      simp only [List.map_cons, label_operatorAt, pairLabels_cons, List.cons.injEq, Prod.mk.injEq,
        TokenKind.operator.injEq, and_true] at hlabels
      obtain ⟨rfl, hlabels⟩ := hlabels
      exact ⟨n, pairs, hlabels, hv⟩
  · rintro ⟨n, pairs, hlabels, hv⟩
    exact ⟨(op, n) :: pairs, by simp [hlabels], .inr (by simp), hv⟩

theorem not_pairsGive_literal {acc v : Number} {reduced : Bool} {value pos : ℕ}
    {tokens : List Token} : ¬PairsGive acc reduced (.literal value pos :: tokens) v := by
  rintro ⟨pairs, hlabels, -⟩
  cases pairs <;> simp [pairLabels] at hlabels

theorem not_operandGives_nil {acc v : Number} {op : Operator} : ¬OperandGives acc op [] v := by
  rintro ⟨n, pairs, hlabels, -⟩
  exact absurd hlabels (by simp)

theorem operandGives_literal {acc v : Number} {op : Operator} {value pos : ℕ}
    {tokens : List Token} :
    OperandGives acc op (.literal value pos :: tokens) v ↔
      ∃ result, acc.operate op (.integer value) = .ok result ∧ PairsGive result true tokens v := by
  constructor
  · rintro ⟨n, pairs, hlabels, hv⟩
    simp only [List.map_cons, label_literal, List.cons.injEq, Prod.mk.injEq, Option.some.injEq,
      true_and] at hlabels
    obtain ⟨rfl, hlabels⟩ := hlabels
    rw [reducePairs_cons] at hv
    cases hr : acc.operate op (.integer value) with
    | error e => rw [hr] at hv; exact absurd hv (by simp)
    | ok result =>
      rw [hr] at hv
      exact ⟨result, rfl, pairs, hlabels, .inl rfl, hv⟩
  · rintro ⟨result, hr, pairs, hlabels, -, hv⟩
    exact ⟨value, pairs, by simp [hlabels], by rw [reducePairs_cons, hr]; exact hv⟩

theorem not_operandGives_operator {acc v : Number} {op op' : Operator} {pos : ℕ}
    {tokens : List Token} : ¬OperandGives acc op (.operatorAt op' pos :: tokens) v := by
  rintro ⟨n, pairs, hlabels, -⟩
  exact absurd hlabels (by simp)

/-- **An evaluation that goes on has a value just when the tokens left fold to it.** The two places
where it can stand, before an operator and before an integer, take turns. -/
theorem outcome_course_eq_ok_iff {last : Item} (hlast : Scanner.isLast last = true)
    (tokens : List Token)
    (hshape : ∀ t ∈ tokens,
      (∃ value pos, t = .literal value pos) ∨ ∃ op pos, t = .operatorAt op pos) :
    (∀ acc reduced v,
      ((Progress.afterValue acc reduced).course (tokens.map .ok ++ [last])).outcome =
        some (.ok v) ↔ (∃ t, last = .ok t) ∧ PairsGive acc reduced tokens v) ∧
    ∀ acc op v,
      ((Progress.afterOperator acc op).course (tokens.map .ok ++ [last])).outcome =
        some (.ok v) ↔ (∃ t, last = .ok t) ∧ OperandGives acc op tokens v := by
  -- By induction on the tokens, for both places at once: each token leads from one to the other.
  induction tokens with
  | nil =>
    simp only [List.map_nil, List.nil_append, Progress.outcome_course_singleton hlast,
      Progress.move_afterValue_last hlast, Progress.move_afterOperator_last hlast, pairsGive_nil,
      not_operandGives_nil, and_false, implies_true, and_self]
  | cons t tokens ih =>
    obtain ⟨ihValue, ihOperator⟩ := ih fun u hu => hshape u (List.mem_cons_of_mem t hu)
    simp only [List.map_cons, List.cons_append]
    rcases hshape t List.mem_cons_self with ⟨value, pos, rfl⟩ | ⟨op', pos, rfl⟩
    · constructor
      · intro acc reduced v
        rw [Progress.course_of_stop (Progress.move_afterValue_integer rfl)]
        simp [not_pairsGive_literal]
      · intro acc op v
        rw [operandGives_literal]
        cases hr : acc.operate op (.integer value) with
        | error e =>
          rw [Progress.course_of_stop (Progress.move_afterOperator_error rfl hr)]
          simp
        | ok result =>
          rw [Progress.course_of_goOn (Progress.move_afterOperator_ok rfl hr)]
          simp [ihValue]
    · constructor
      · intro acc reduced v
        rw [Progress.course_of_goOn (Progress.move_afterValue_operator rfl), pairsGive_operator]
        exact ihOperator acc op' v
      · intro acc op v
        rw [Progress.course_of_stop (Progress.move_afterOperator_ne (by simp [Token.operatorAt]))]
        simp [not_operandGives_operator]

theorem outcome_course_start_eq_ok_iff {last : Item} (hlast : Scanner.isLast last = true)
    (tokens : List Token)
    (hshape : ∀ t ∈ tokens,
      (∃ value pos, t = .literal value pos) ∨ ∃ op pos, t = .operatorAt op pos) (v : Number) :
    (Progress.start.course (tokens.map .ok ++ [last])).outcome = some (.ok v) ↔
      (∃ t, last = .ok t) ∧ ∃ first pairs, tokens.map Token.label = lineLabels first pairs ∧
        pairs ≠ [] ∧ reducePairs (.integer first) pairs = .ok v := by
  cases tokens with
  | nil =>
    rw [List.map_nil, List.nil_append, Progress.outcome_course_singleton hlast]
    simp [Progress.move_start_last hlast, lineLabels]
  | cons t tokens =>
    simp only [List.map_cons, List.cons_append]
    rcases hshape t List.mem_cons_self with ⟨value, pos, rfl⟩ | ⟨op, pos, rfl⟩
    · have hrest := (outcome_course_eq_ok_iff hlast tokens
        fun u hu => hshape u (List.mem_cons_of_mem _ hu)).1 (.integer value) false v
      rw [Progress.course_of_goOn (Progress.move_start_integer rfl)]
      simp only [hrest, PairsGive, Bool.false_eq_true, false_or, label_literal, lineLabels,
        List.cons.injEq, Prod.mk.injEq, Option.some.injEq, true_and]
      constructor
      · rintro ⟨ht, pairs, hlabels, hne, hv⟩
        exact ⟨ht, value, pairs, ⟨rfl, hlabels⟩, hne, hv⟩
      · rintro ⟨ht, first, pairs, ⟨rfl, hlabels⟩, hne, hv⟩
        exact ⟨ht, pairs, hlabels, hne, hv⟩
    · rw [Progress.course_of_stop (Progress.move_start_ne (by simp [Token.operatorAt]))]
      simp [lineLabels]

/-- **The lines with a value** are those whose characters are all known and whose tokens are an
integer and one or more pairs, every step of the left fold over them having a result; the value is
the result of the last step. -/
theorem outcome_eq_ok_iff (line : List Char) (v : Number) :
    outcome line = .ok v ↔
      ∃ tokens first pairs, tokenize line = .ok (tokens ++ [.endAt line.length]) ∧
        tokens.map Token.label = lineLabels first pairs ∧ pairs ≠ [] ∧
          reducePairs (.integer first) pairs = .ok v := by
  have hcourse := (Progress.finish_course .start (.ofLine line)).1
  rw [Scanner.items_ofLine] at hcourse
  have hvalue := outcome_course_start_eq_ok_iff (Scanner.isLast_lineEnd line)
    (Scanner.ofLine line).drain.tokens (fun t ht => Scanner.mem_drain_tokens ht) v
  rw [hcourse, Option.some.injEq] at hvalue
  refine hvalue.trans ?_
  simp only [Scanner.tokenize_eq_ok_iff]
  constructor
  · rintro ⟨⟨t, ht⟩, first, pairs, hlabels, hne, hv⟩
    obtain rfl := Scanner.lineEnd_eq_ok ht
    exact ⟨_, first, pairs, ⟨_, ht, rfl⟩, hlabels, hne, hv⟩
  · rintro ⟨tokens, first, pairs, ⟨t, ht, htokens⟩, hlabels, hne, hv⟩
    obtain ⟨rfl, -⟩ := List.append_inj' htokens rfl
    exact ⟨⟨t, ht⟩, first, pairs, hlabels, hne, hv⟩

/-- No operator binds tighter than another. -/
example : outcome ['2', '+', '3', '*', '4'] = .ok (.integer 20) := by cbv

end Abacus
