/-!
# Operators

The four operators and the characters that write them. `Operator.ofChar?_eq_some_iff` says that
reading and writing an operator are inverse.
-/

namespace Abacus

/-- An operator between two numbers. -/
inductive Operator
  | plus
  | minus
  | multiply
  | divide
  deriving DecidableEq

namespace Operator

/-- The character that writes an operator. -/
def toChar : Operator → Char
  | plus => '+'
  | minus => '-'
  | multiply => '*'
  | divide => '/'

/-- The operator that a character writes. -/
def ofChar? (c : Char) : Option Operator :=
  if c = '+' then some plus
  else if c = '-' then some minus
  else if c = '*' then some multiply
  else if c = '/' then some divide
  else none

/-- The name of an operator's kind of token. -/
def name : Operator → String
  | plus => "PLUS"
  | minus => "MINUS"
  | multiply => "MULTIPLY"
  | divide => "DIVIDE"

/-- The text of an operator. -/
def text (op : Operator) : String := op.toChar.toString

@[simp] theorem ofChar?_toChar (op : Operator) : ofChar? op.toChar = some op := by
  cases op <;> rfl

theorem ofChar?_eq_some_iff {c : Char} {op : Operator} :
    ofChar? c = some op ↔ c = op.toChar := by
  constructor
  · intro h
    unfold ofChar? at h
    repeat' split at h
    all_goals first
      | (cases h; assumption)
      | cases h
  · rintro rfl
    exact ofChar?_toChar op

end Operator
end Abacus
