/-!
# Blanks

The characters that separate the words of a line, and cutting them from the ends of a text.
-/

namespace Abacus.Text

/-- A blank is a character of white space in any script, a tab or a line break, or one of the
four information separators. -/
def isBlank (c : Char) : Bool :=
  let n := c.toNat
  (9 ≤ n && n ≤ 13) || (28 ≤ n && n ≤ 32) || n == 0x85 || n == 0xA0 || n == 0x1680 ||
    (0x2000 ≤ n && n ≤ 0x200A) || n == 0x2028 || n == 0x2029 || n == 0x202F || n == 0x205F ||
    n == 0x3000

/-- A list without what is blank at its end. -/
def cutEnd {α : Type} (blank : α → Bool) (cs : List α) : List α :=
  (cs.reverse.dropWhile blank).reverse

/-- A list without what is blank at its two ends. -/
def cutEnds {α : Type} (blank : α → Bool) (cs : List α) : List α :=
  cutEnd blank (cs.dropWhile blank)

/-- A text without the blanks at its two ends. -/
def trim (cs : List Char) : List Char := cutEnds isBlank cs

end Abacus.Text
