import Abacus.Number.Basic
import Abacus.Token

/-!
# Arithmetic of numbers

Integers stay integers under the first three operators and are exact. Division always gives a
floating-point number: the one nearest to the exact quotient when both operands are integers.
When only one operand is an integer it is first replaced by the nearest floating-point number.
`Number.apply` refuses a division by zero and an integer that is too large to be converted.
-/

namespace Abacus

/-- Why a result is out of range. -/
inductive RangeCause
  /-- The quotient of two integers exceeds all finite numbers. -/
  | quotientTooLarge
  /-- An integer operand exceeds all finite numbers. -/
  | operandTooLarge
  deriving DecidableEq

/-- The wording of a cause. -/
def RangeCause.message : RangeCause → String
  | quotientTooLarge => "integer division result too large for a float"
  | operandTooLarge => "int too large to convert to float"

/-- Why an operation has no result. -/
inductive ArithmeticError
  /-- The kind of token is not an operator. -/
  | unsupported (kind : TokenKind)
  /-- The right operand of a division is zero. -/
  | divisionByZero (lhs rhs : Number)
  /-- An operand or the result is beyond the finite numbers. -/
  | outOfRange (lhs : Number) (op : Operator) (rhs : Number) (cause : RangeCause)
  deriving DecidableEq

/-- The wording of an error, with the operands in full. -/
def ArithmeticError.message : ArithmeticError → String
  | unsupported kind => s!"unsupported operation: {kind.name}"
  | divisionByZero lhs rhs => s!"division by zero: {lhs.text} / {rhs.text}"
  | outOfRange lhs op rhs cause =>
    s!"result out of range: {lhs.text} {op.text} {rhs.text} ({cause.message})"

namespace Binary64

/-- An operator on floating-point numbers; only a division by zero has no result. -/
def operate? (x : Binary64) (op : Operator) (y : Binary64) : Option Binary64 :=
  match op with
  | .plus => some (x.add y)
  | .minus => some (x.sub y)
  | .multiply => some (x.mul y)
  | .divide => if y.isZero then none else some (x.div y)

end Binary64

namespace Number

/-- The floating-point number nearest to a number, or nothing when it is out of range. -/
def toReal? : Number → Option Binary64
  | integer n => Binary64.ofInt? n
  | real x => some x

/-- An operator on two integers. -/
def applyIntegers (a : Int) (op : Operator) (b : Int) : Except ArithmeticError Number :=
  match op with
  | .plus => .ok (integer (a + b))
  | .minus => .ok (integer (a - b))
  | .multiply => .ok (integer (a * b))
  | .divide =>
    if b = 0 then .error (.divisionByZero (integer a) (integer b))
    else
      match Binary64.ofQuotient? a b with
      | some x => .ok (real x)
      | none => .error (.outOfRange (integer a) op (integer b) .quotientTooLarge)

/-- An operator on two numbers of which one at least is a floating-point number. The range of an
integer operand is tested before the divisor. -/
def applyReals (lhs : Number) (op : Operator) (rhs : Number) : Except ArithmeticError Number :=
  match lhs.toReal?, rhs.toReal? with
  | some x, some y =>
    match x.operate? op y with
    | some z => .ok (real z)
    | none => .error (.divisionByZero lhs rhs)
  | _, _ => .error (.outOfRange lhs op rhs .operandTooLarge)

/-- An operator on two numbers. -/
def operate (lhs : Number) (op : Operator) (rhs : Number) : Except ArithmeticError Number :=
  match lhs, rhs with
  | integer a, integer b => applyIntegers a op b
  | _, _ => applyReals lhs op rhs

/-- The operation that a kind of token stands for, on two numbers. A kind that is no operator is
refused whatever the operands. -/
def apply (lhs : Number) (kind : TokenKind) (rhs : Number) : Except ArithmeticError Number :=
  match kind with
  | .operator op => operate lhs op rhs
  | _ => .error (.unsupported kind)

@[simp] theorem apply_operator (lhs : Number) (op : Operator) (rhs : Number) :
    apply lhs (.operator op) rhs = operate lhs op rhs := rfl

@[simp] theorem operate_integer_integer (a b : Int) (op : Operator) :
    operate (integer a) op (integer b) = applyIntegers a op b := rfl

@[simp] theorem operate_real_left (x : Binary64) (op : Operator) (rhs : Number) :
    operate (real x) op rhs = applyReals (real x) op rhs := rfl

/-- With a floating-point number on the left an integer is converted first. -/
theorem operate_real_integer_iff {x : Binary64} {op : Operator} {n : Int} {v : Number} :
    operate (real x) op (integer n) = .ok v ↔
      ∃ y z, Binary64.ofInt? n = some y ∧ x.operate? op y = some z ∧ v = real z := by
  rw [operate_real_left, applyReals, toReal?, toReal?]
  generalize Binary64.ofInt? n = converted
  cases converted with
  | none => simp
  | some y => cases hz : x.operate? op y <;> simp [hz, eq_comm]

end Number
end Abacus
