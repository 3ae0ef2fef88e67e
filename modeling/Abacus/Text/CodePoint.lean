import Abacus.Text.Blank
import Abacus.Text.DecimalDigit
import Abacus.Text.Quoted
import Abacus.Text.UpperCase

/-!
# Code points

Texts from outside, such as process variables and the words of a command line, are rows of code
points. A code point is a character or a surrogate, which is no character; a byte that belongs to no
character is read as one of the surrogates from U+DC80 on and can be written as that byte again. The
other surrogates have no bytes at all.

What can be done with characters can be done with code points, to which surrogates are strange: they
are no blanks and no digits and have no upper case.
-/

namespace Abacus

/-- A code point: a character, or a surrogate, as many places behind the first one. -/
inductive CodePoint
  | char (c : Char)
  | surrogate (offset : Fin 2048)
  deriving DecidableEq

/-- A text that may hold surrogates. -/
abbrev Wide := List CodePoint

namespace CodePoint

/-- Whether a code point is no character. -/
def isSurrogate : CodePoint → Bool
  | char _ => false
  | surrogate _ => true

/-- Whether a code point can be written as bytes: it is a character, or it stands for a byte. -/
def hasBytes : CodePoint → Bool
  | char _ => true
  | surrogate offset => 0x480 ≤ offset.val && offset.val < 0x500

/-- Whether a code point is a blank. -/
def isBlank : CodePoint → Bool
  | char c => Text.isBlank c
  | surrogate _ => false

/-- Whether a code point is a decimal digit of some script. -/
def isDecimalDigit : CodePoint → Bool
  | char c => Text.isDecimalDigit c
  | surrogate _ => false

/-- The upper-case form of a code point. -/
def upper : CodePoint → Wide
  | char c => (Text.upperChar c).map char
  | surrogate offset => [surrogate offset]

/-- The character as which a code point is read in a line. A surrogate is none that a line may hold,
and any other such one can stand for it. -/
def asRead : CodePoint → Char
  | char c => c
  | surrogate _ => '\ufffd'

/-- A code point as a channel shows it, on which surrogates are escaped. -/
def shown : CodePoint → List Char
  | char c => [c]
  | surrogate offset => '\\' :: 'u' :: Text.hexDigits 4 (0xD800 + offset.val)

/-- A code point inside a quoted text. -/
def escape (quote : Char) : CodePoint → List Char
  | char c => Text.escape quote c
  | surrogate offset => (surrogate offset).shown

end CodePoint

namespace Wide

/-- The code points of a text. -/
def ofString (s : String) : Wide := s.toList.map .char

instance : Coe String Wide := ⟨ofString⟩

/-- The line as which a text is read. -/
def line (w : Wide) : List Char := w.map CodePoint.asRead

/-- A text without the blanks at its two ends. -/
def trim (w : Wide) : Wide := Text.cutEnds CodePoint.isBlank w

/-- The upper-case form of a text. -/
def upper (w : Wide) : Wide := w.flatMap CodePoint.upper

/-- A text as a channel shows it. -/
def shown (w : Wide) : String := String.ofList (w.flatMap CodePoint.shown)

/-- The quoted form of a text. -/
def quoted (w : Wide) : String :=
  let quote := Text.quoteFor (w.flatMap CodePoint.shown)
  String.ofList (quote :: w.flatMap (CodePoint.escape quote) ++ [quote])

/-- Why a text cannot be written as bytes, if some of its code points are stray: the message cites
the first stretch of surrogates from a stray one on. -/
def unwritable? (stray : CodePoint → Bool) (w : Wide) : Option String :=
  match w.dropWhile (!stray ·) with
  | [] => none
  | c :: rest =>
    let first := (w.takeWhile (!stray ·)).length
    let last := first + (rest.takeWhile CodePoint.isSurrogate).length
    let place :=
      if last = first then s!"character '{shown [c]}' in position {first}"
      else s!"characters in position {first}-{last}"
    some s!"'utf-8' codec can't encode {place}: surrogates not allowed"

end Wide
end Abacus
