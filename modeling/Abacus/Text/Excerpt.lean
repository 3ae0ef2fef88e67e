/-!
# Excerpts of long texts

A text whose UTF-8 form is too long is cut to its beginning and its end, with dots between them.
The parts are measured in bytes and hold whole characters only.
-/

namespace Abacus.Text

/-- The bytes of the UTF-8 form of a text. -/
def byteLength : List Char → Nat
  | [] => 0
  | c :: cs => c.utf8Size + byteLength cs

/-- The longest beginning of a text that has at most so many bytes. -/
def takeBytes : Nat → List Char → List Char
  | _, [] => []
  | budget, c :: cs =>
    if c.utf8Size ≤ budget then c :: takeBytes (budget - c.utf8Size) cs else []

/-- The longest end of a text that has at most so many bytes. -/
def takeLastBytes (budget : Nat) (cs : List Char) : List Char :=
  (takeBytes budget cs.reverse).reverse

/-- A text of at most 50 bytes as it is; of a longer one the first 25 and the last 24 bytes. -/
def excerpt (cs : List Char) : List Char :=
  if byteLength cs ≤ 50 then cs
  else takeBytes 25 cs ++ "...".toList ++ takeLastBytes 24 cs

end Abacus.Text
