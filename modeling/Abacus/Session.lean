import Abacus.Effect
import Abacus.LineSource
import Abacus.Text.Blank

/-!
# Sessions

A session asks for lines and answers each one, until the line `q` or the end of input. A turn of
a session is what one answer to a request leads to; a run is one turn after the other. A line
that is blank is not counted, and a line without a value ends nothing.
-/

namespace Abacus

/-- The answer to one line: whether it has a value, the text that says so, and the records. -/
structure Answer where
  ok : Bool
  text : String
  records : List Record
  deriving DecidableEq

/-- Evaluate a line and put the outcome into words. -/
def answer (line : List Char) : Answer :=
  let e := evaluate line
  match e.outcome with
  | .ok value => ⟨true, value.display, e.records line⟩
  | .error cause => ⟨false, cause.message, e.records line ++ [.lineFailed line cause]⟩

/-- Count an answered line. -/
def Tally.count (t : Tally) (a : Answer) : Tally :=
  ⟨t.evaluated + 1, if a.ok then t.failed else t.failed + 1⟩

/-- The channel for the text of an answer. -/
def Answer.channel (a : Answer) : Channel := if a.ok then .out else .err

/-- The effects of an answer. -/
def Answer.effects (a : Answer) : List Effect :=
  a.records.map .log ++ [.line a.channel a.text]

namespace Session

/-- Whether a line, without the blanks around it, asks for the end of the session. -/
def isQuit (text : List Char) : Bool := text == ['q'] || text == ['Q']

/-- What a reading leads to: effects, the counts behind it, and whether the session goes on. -/
structure Turn where
  effects : List Effect
  tally : Tally
  continues : Bool
  deriving DecidableEq

/-- The turn that answers a line. -/
def lineTurn (tally : Tally) (line : List Char) : Turn :=
  let text := Text.trim line
  if isQuit text then ⟨[.line .out "exiting..."], tally, false⟩
  else if text.isEmpty then ⟨[.line .out "input is empty. input q to exit."], tally, true⟩
  else
    let a := answer text
    ⟨a.effects, tally.count a, true⟩

/-- The turn that follows a reading. -/
def turn (tally : Tally) : Reading → Turn
  | .line line => lineTurn tally line
  | .interrupt => ⟨[.line .out "^C"], tally, true⟩
  | .endOfInput => ⟨[.line .out ""], tally, false⟩

/-- A session that is over: its effects in order, its counts, and the source behind it. -/
structure Result where
  effects : List Effect
  tally : Tally
  source : LineSource
  deriving DecidableEq

theorem ne_endOfInput_of_continues {tally : Tally} {reading : Reading}
    (h : (turn tally reading).continues = true) : reading ≠ .endOfInput := by
  rintro rfl
  cases h

/-- Run a session with a prompt from a source, the counts so far being given. -/
def run (prompt : Wide) (source : LineSource) (tally : Tally) : Result :=
  let t := turn tally source.read.1
  if _h : t.continues = true then
    let rest := run prompt source.read.2 t.tally
    { rest with effects := .ask prompt :: t.effects ++ rest.effects }
  else
    ⟨.ask prompt :: t.effects ++ [.log (.sessionEnded t.tally)], t.tally, source.read.2⟩
termination_by source.size
decreasing_by exact LineSource.size_read_lt (ne_endOfInput_of_continues _h)

end Session
end Abacus
