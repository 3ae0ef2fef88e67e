import Abacus.Decimal.Basic

/-!
# The shortest decimal number that reads back

`Magnitude.shortest` is a decimal number with the fewest digits among those whose nearest
magnitude is the given one, and of these the one nearest to it. For each count of digits only
the two neighbours of the value on the grid of that many digits can be the answer, because a
grid point between the value and one that reads back reads back as well.
`Magnitude.nearest?_candidate` says that what a grid offers reads back.
-/

namespace Abacus.Magnitude

/-- No positive magnitude has more zeros than this between the point and its first digit. -/
def leadingZeros : Nat := 324

/-- The power of ten next above the value: `10 ^ (scale - 1) ≤ value < 10 ^ scale`. -/
def scale (m : Magnitude) : Int :=
  (Nat.toDigits 10 (m.units * powTen leadingZeros / unitsPerOne)).length - leadingZeros

/-- The neighbour of the value on the grid of `count` digits that reads back, if one does; of
two, the nearer one, and at equal distance the even one. -/
def candidate? (m : Magnitude) (count : Nat) : Option Decimal :=
  let exponent := m.scale - count
  let num := m.units * powTen (-exponent).toNat
  let den := unitsPerOne * powTen exponent.toNat
  let below := num / den
  let order := if roundQuotient num den = below then [below, below + 1] else [below + 1, below]
  (order.map fun coefficient => Decimal.mk coefficient exponent).find? (·.nearest? == some m)

/-- The exact value as a decimal number: every unit is a power of ten times a power of five. -/
def exactDecimal (m : Magnitude) : Decimal :=
  ⟨m.units * Nat.pow 5 unitExponent, -unitExponent⟩

/-- The shortest decimal number that reads back; 17 digits are always enough. -/
def shortest (m : Magnitude) : Decimal :=
  let found := (List.range 17).findSome? fun n => m.candidate? (n + 1)
  (found.getD m.exactDecimal).normal

theorem nearest?_candidate {m : Magnitude} {count : Nat} {d : Decimal}
    (h : m.candidate? count = some d) : d.nearest? = some m := by
  have := List.find?_some h
  simpa using this

end Abacus.Magnitude
