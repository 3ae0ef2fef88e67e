import Abacus.Number.Arithmetic
import Abacus.Scanner

/-!
# Evaluating a line

A line is an integer literal followed by one or more pairs of an operator and an integer
literal. It is evaluated strictly from left to right, without precedence: each pair is reduced
into the running result as soon as it is read, so that an error in the arithmetic comes before
any error further right.

`evaluateFrom` starts anywhere in a line and tells, besides the outcome, the reductions made and
where reading stopped; `evaluate` and `outcome` concern whole lines.
-/

namespace Abacus

/-- What the grammar asks for at a place in a line. -/
inductive Expectation
  | integer
  | operator
  deriving DecidableEq

/-- The end of the message about a token that does not meet an expectation. -/
def Expectation.message : Expectation → String
  | integer => "into: INTEGER"
  | operator => "into a valid operation"

/-- Why a line has no value. -/
inductive Failure
  /-- A character belongs to no token. -/
  | scan (error : ScanError)
  /-- A token stands where the grammar asks for another. -/
  | grammar (expected : Expectation) (found : Token)
  /-- An operation has no result. -/
  | arithmetic (error : ArithmeticError)
  deriving DecidableEq

/-- The wording of a failure. -/
def Failure.message : Failure → String
  | scan error => error.message
  | grammar expected found =>
    s!"cannot parse input: {found.text} of type: {found.kind.name} {expected.message}"
  | arithmetic error => error.message

/-- One step of an evaluation: an operation and its result. -/
structure Reduction where
  lhs : Number
  op : Operator
  rhs : Number
  result : Number
  deriving DecidableEq

/-- The wording of a step. -/
def Reduction.message (r : Reduction) : String :=
  s!"reduced {r.lhs.text} {r.op.text} {r.rhs.text} -> {r.result.text}"

/-- The value of an integer literal, and a failure for any other token. -/
def Token.expectInteger (t : Token) : Except Failure Int :=
  match t.kind, t.value with
  | .integer, some n => .ok n
  | _, _ => .error (.grammar .integer t)

/-- The operator of an operator token, and a failure for any other token. -/
def Token.expectOperator (t : Token) : Except Failure Operator :=
  match t.kind with
  | .operator op => .ok op
  | _ => .error (.grammar .operator t)

theorem Token.isEnd_of_expectInteger {t : Token} {n : Int} (h : t.expectInteger = .ok n) :
    t.isEnd = false := by
  unfold expectInteger at h
  split at h
  · next hk _ => simp [isEnd, hk]
  · cases h

/-- Read a token; a character that starts none is a failure. -/
def Scanner.nextToken (s : Scanner) : Except Failure Token × Scanner :=
  match s.next with
  | (.ok t, s') => (.ok t, s')
  | (.error e, s') => (.error (.scan e), s')

/-- Read an integer literal; any other token, the end of the line included, is a failure. -/
def Scanner.nextInteger (s : Scanner) : Except Failure Int × Scanner :=
  match s.next with
  | (.ok t, s') => (t.expectInteger, s')
  | (.error e, s') => (.error (.scan e), s')

theorem Scanner.rest_nextToken_le (s : Scanner) :
    s.nextToken.2.rest.length ≤ s.rest.length := by
  have h := rest_next_le s
  unfold nextToken
  split <;> simp_all

theorem Scanner.rest_nextInteger_lt {s : Scanner} {n : Int} (h : s.nextInteger.1 = .ok n) :
    s.nextInteger.2.rest.length < s.rest.length := by
  unfold nextInteger at h ⊢
  split at h
  · next t s' hn =>
    have := rest_next_lt (s := s) (t := t) (by rw [hn]) (Token.isEnd_of_expectInteger h)
    simpa [hn] using this
  · cases h

/-- What evaluating does: the outcome, the steps made in order, and the scanner behind the last
token read. -/
structure Evaluation where
  outcome : Except Failure Number
  steps : List Reduction
  scanner : Scanner

namespace Evaluation

/-- An evaluation that ends without a further step. -/
def stop (outcome : Except Failure Number) (s : Scanner) : Evaluation := ⟨outcome, [], s⟩

/-- The evaluation that makes a step first. -/
def after (step : Reduction) (e : Evaluation) : Evaluation := { e with steps := step :: e.steps }

@[simp] theorem steps_after (step : Reduction) (e : Evaluation) :
    (e.after step).steps = step :: e.steps := rfl

end Evaluation

/-- Make one step with a running result: the operator is the token already read, the right
operand is read from the scanner. -/
def reduceOnce (acc : Number) (token : Token) (s : Scanner) : Except Failure Reduction × Scanner :=
  match token.expectOperator with
  | .error e => (.error e, s)
  | .ok op =>
    match s.nextInteger with
    | (.error e, s') => (.error e, s')
    | (.ok n, s') =>
      match acc.operate op (.integer n) with
      | .error e => (.error (.arithmetic e), s')
      | .ok result => (.ok ⟨acc, op, .integer n, result⟩, s')

theorem rest_reduceOnce_lt {acc : Number} {token : Token} {s s' : Scanner} {step : Reduction}
    (h : reduceOnce acc token s = (.ok step, s')) : s'.rest.length < s.rest.length := by
  unfold reduceOnce at h
  split at h
  · simp at h
  · split at h
    · simp at h
    · next n s₁ hn =>
      have hlt := Scanner.rest_nextInteger_lt (s := s) (n := n) (by rw [hn])
      rw [hn] at hlt
      split at h
      · simp at h
      · simp only [Prod.mk.injEq] at h
        exact h.2 ▸ hlt

/-- Reduce the pairs that follow into a running result, given the token already read behind it.
The end of the line is looked for only behind a whole pair. -/
def reduceFrom (acc : Number) (token : Token) (s : Scanner) : Evaluation :=
  match _h : reduceOnce acc token s with
  | (.error e, s₁) => .stop (.error e) s₁
  | (.ok step, s₁) =>
    match _h' : s₁.nextToken with
    | (.error e, s₂) => (Evaluation.stop (.error e) s₂).after step
    | (.ok t, s₂) =>
      if t.isEnd then (Evaluation.stop (.ok step.result) s₂).after step
      else (reduceFrom step.result t s₂).after step
termination_by s.rest.length
decreasing_by
  have hlt := rest_reduceOnce_lt _h
  have hle := Scanner.rest_nextToken_le s₁
  rw [_h'] at hle
  exact Nat.lt_of_le_of_lt hle hlt

theorem reduceFrom_eq (acc : Number) (token : Token) (s : Scanner) :
    reduceFrom acc token s =
      match reduceOnce acc token s with
      | (.error e, s₁) => .stop (.error e) s₁
      | (.ok step, s₁) =>
        match s₁.nextToken with
        | (.error e, s₂) => (Evaluation.stop (.error e) s₂).after step
        | (.ok t, s₂) =>
          if t.isEnd then (Evaluation.stop (.ok step.result) s₂).after step
          else (reduceFrom step.result t s₂).after step := by
  rw [reduceFrom]
  rcases reduceOnce acc token s with ⟨_ | step, s₁⟩
  · rfl
  · simp only
    rcases s₁.nextToken with ⟨_ | t, s₂⟩ <;> rfl

/-- Evaluate the rest of a line from where a scanner stands. -/
def evaluateFrom (s : Scanner) : Evaluation :=
  match s.nextInteger with
  | (.error e, s₁) => .stop (.error e) s₁
  | (.ok n, s₁) =>
    match s₁.nextToken with
    | (.error e, s₂) => .stop (.error e) s₂
    | (.ok t, s₂) => reduceFrom (.integer n) t s₂

/-- Evaluate a line. -/
def evaluate (line : List Char) : Evaluation := evaluateFrom (.ofLine line)

/-- The value of a line, or why it has none. -/
def outcome (line : List Char) : Except Failure Number := (evaluate line).outcome

end Abacus
