import Abacus.Text.CodePoint

/-!
# Sources of lines

Lines come from a terminal, modelled by the list of what its user does, or from a stream of
text. A line of a stream ends at a line feed, and the carriage returns before it belong to the
line end. Either source can be read for ever: when it is used up it answers with the end of
input again and again. The lines of a terminal are kept in a history, in memory or in a file.

`LineSource.size_read_lt` says that every other answer uses up some of the source.
-/

namespace Abacus

/-- The answer to a request for a line. -/
inductive Reading
  | line (text : List Char)
  /-- The user broke off the line. -/
  | interrupt
  | endOfInput
  deriving DecidableEq

/-- Where lines come from. -/
inductive LineSource
  /-- A terminal, with the answers still to come. -/
  | script (readings : List Reading)
  /-- A stream, with the text still to come. -/
  | stream (unread : List Char)
  deriving DecidableEq

/-- Where the lines that a user has typed are kept. -/
inductive History
  | memory
  | file (path : Wide)
  deriving DecidableEq

/-- The history with a path for its file, of which an empty one counts as none. -/
def History.ofPath : Option Wide → History
  | some path => if path.isEmpty then memory else file path
  | none => memory

namespace LineSource

/-- The history that a source has, with a path for its file: the lines of a stream are not kept. -/
def history? (path : Option Wide) : LineSource → Option History
  | script _ => some (.ofPath path)
  | stream _ => none

/-- A line without the carriage returns at its end. -/
def dropReturns (line : List Char) : List Char :=
  (line.reverse.dropWhile (· == '\r')).reverse

/-- The first line of a text, without its end. -/
def firstLine (text : List Char) : List Char := dropReturns (text.takeWhile (· != '\n'))

/-- What follows the first line feed of a text. -/
def afterLine (text : List Char) : List Char := (text.dropWhile (· != '\n')).drop 1

/-- Ask for a line. -/
def read : LineSource → Reading × LineSource
  | script [] => (.endOfInput, script [])
  | script (r :: rs) => (r, script rs)
  | stream [] => (.endOfInput, stream [])
  | stream (c :: cs) => (.line (firstLine (c :: cs)), stream (afterLine (c :: cs)))

/-- A bound for the answers that a source still has. -/
def size : LineSource → Nat
  | script readings => readings.length
  | stream unread => unread.length

theorem length_afterLine_lt {text : List Char} (h : text ≠ []) :
    (afterLine text).length < text.length := by
  have hle := (List.dropWhile_sublist (l := text) (· != '\n')).length_le
  have hpos := List.length_pos_iff.2 h
  simp only [afterLine, List.length_drop]
  omega

/-- Every answer but the end of input uses up some of the source. -/
theorem size_read_lt {source : LineSource} (h : source.read.1 ≠ .endOfInput) :
    source.read.2.size < source.size := by
  match source with
  | script [] => exact absurd rfl h
  | script (_ :: rs) => exact Nat.lt_succ_self rs.length
  | stream [] => exact absurd rfl h
  | stream (c :: cs) => exact length_afterLine_lt (List.cons_ne_nil c cs)

/-- The answers to a number of requests, in order. -/
def readMany : Nat → LineSource → List Reading
  | 0, _ => []
  | n + 1, source => source.read.1 :: readMany n source.read.2

end LineSource
end Abacus
