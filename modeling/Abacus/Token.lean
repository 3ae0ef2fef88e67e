import Abacus.Operator

/-!
# Tokens

A token is a lexical unit of a line: an integer literal, an operator or the end of the line,
with the place where it starts. Only an integer literal has a value.
-/

namespace Abacus

/-- The kinds of lexical units. -/
inductive TokenKind
  | endOfInput
  | integer
  | operator (op : Operator)
  deriving DecidableEq

/-- The name of a kind. -/
def TokenKind.name : TokenKind → String
  | endOfInput => "EOF"
  | integer => "INTEGER"
  | operator op => op.name

/-- A lexical unit and where it starts. -/
structure Token where
  /-- What the unit is. -/
  kind : TokenKind
  /-- The value of an integer literal. -/
  value : Option Int := none
  /-- The offset of its first character. -/
  pos : Int := 0
  deriving DecidableEq

namespace Token

/-- The end of a line, at an offset. -/
def endAt (pos : Nat) : Token := ⟨.endOfInput, none, pos⟩

/-- An integer literal that starts at an offset. -/
def literal (value pos : Nat) : Token := ⟨.integer, some value, pos⟩

/-- An operator at an offset. -/
def operatorAt (op : Operator) (pos : Nat) : Token := ⟨.operator op, none, pos⟩

/-- The decimal text of a token's value. -/
def valueText (t : Token) : String :=
  match t.value with
  | some n => toString n
  | none => "None"

/-- A token as a message cites it. -/
def text (t : Token) : String :=
  match t.kind with
  | .endOfInput => ""
  | .integer => t.valueText
  | .operator op => op.text

/-- A token as a listing shows it: its kind, the value of an integer literal, and its place. -/
def listing (t : Token) : String :=
  match t.kind with
  | .integer => s!"Token({t.kind.name}, {t.valueText}, pos={t.pos})"
  | kind => s!"Token({kind.name}, pos={t.pos})"

/-- Whether a token is the end of the line. -/
def isEnd (t : Token) : Bool := t.kind == .endOfInput

@[simp] theorem isEnd_endAt (pos : Nat) : (endAt pos).isEnd = true := rfl

@[simp] theorem isEnd_literal (value pos : Nat) : (literal value pos).isEnd = false := rfl

@[simp] theorem isEnd_operatorAt (op : Operator) (pos : Nat) :
    (operatorAt op pos).isEnd = false := rfl

end Token
end Abacus
