import Abacus.Binary64.Arithmetic
import Abacus.Decimal.Shortest
import Abacus.Decimal.Layout

/-!
# Numbers and their text

A number is an exact integer or a floating-point number. `Number.text` writes it in full, so
that the two kinds are told apart; `Number.display` is the form for a reader, in which a whole
floating-point number below `10 ^ 16` looks like the integer that it is.
-/

namespace Abacus

/-- A number of a calculation. -/
inductive Number
  /-- An integer of any size, exact. -/
  | integer (value : Int)
  /-- A floating-point number. -/
  | real (value : Binary64)
  deriving DecidableEq

/-- Powers of ten from -4 to 15 are written positionally; a power has two digits or more. -/
def Binary64.layout : DecimalLayout := ⟨-4, 16, 2⟩

/-- The shortest text that reads back, with a point or a power of ten in it. -/
def Binary64.text : Binary64 → String
  | .nan => "nan"
  | .infinite negative => if negative then "-inf" else "inf"
  | .finite negative m =>
    String.ofList ((if negative then ['-'] else []) ++ m.shortest.write layout)

namespace Number

/-- An integer in decimal, or the text of a floating-point number. -/
def text : Number → String
  | integer value => toString value
  | real value => value.text

/-- Whole numbers from here on are displayed with their power of ten. -/
def displayBound : Nat := powTen 16

/-- The text of a result: as `Number.text`, save that a whole floating-point number below the
bound is displayed as an integer. -/
def display : Number → String
  | integer value => toString value
  | real value =>
    match value.toInt? with
    | some n => if n.natAbs < displayBound then toString n else value.text
    | none => value.text

@[simp] theorem display_integer (n : Int) : (integer n).display = toString n := rfl

end Number
end Abacus
