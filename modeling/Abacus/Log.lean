import Abacus.Evaluation
import Abacus.Settings.Basic

/-!
# The log

A record says that something happened; its level, its source and its wording are functions of
it. Which records are shown is decided only where they are written, so that the level of the log
has no influence on anything else.
-/

namespace Abacus

/-- How many lines a session has evaluated, and how many of them have no value. -/
structure Tally where
  evaluated : Nat := 0
  failed : Nat := 0
  deriving DecidableEq

/-- What the log tells about. -/
inductive Record
  /-- A step of an evaluation. -/
  | reduced (step : Reduction)
  /-- A line has no value, as the evaluation reports it. -/
  | evaluationFailed (line : List Char) (cause : Failure)
  /-- There is no line to evaluate, and it has no value, as the evaluation reports it. -/
  | nothingFailed (cause : Failure)
  /-- A text with surrogates has no value, as the evaluation reports it. -/
  | illegibleFailed (expression : Wide) (why : String)
  /-- A line has no value, as the session reports it. -/
  | lineFailed (line : List Char) (cause : Failure)
  /-- A session is over. -/
  | sessionEnded (tally : Tally)
  /-- Lines come from a stream and not from a terminal. -/
  | streamInput
  /-- The settings in force. -/
  | settingsInForce (settings : Settings)
  deriving DecidableEq

namespace Record

/-- The severity of a record. -/
def level : Record → Level
  | reduced _ => .debug
  | evaluationFailed _ _ => .debug
  | nothingFailed _ => .debug
  | illegibleFailed _ _ => .debug
  | lineFailed _ _ => .info
  | sessionEnded _ => .info
  | streamInput => .info
  | settingsInForce _ => .debug

/-- The part of the program that a record comes from: the calculator or its shell. -/
def logger : Record → String
  | reduced _ => "linecalc"
  | evaluationFailed _ _ => "linecalc"
  | nothingFailed _ => "linecalc"
  | illegibleFailed _ _ => "linecalc"
  | _ => "linecalc_cli"

/-- The wording of a record. -/
def message : Record → String
  | reduced step => step.message
  | evaluationFailed line cause => s!"evaluation of {Text.quoted line} failed: {cause.message}"
  | nothingFailed cause => s!"evaluation of [] failed: {cause.message}"
  | illegibleFailed expression why => s!"evaluation of {expression.quoted} failed: {why}"
  | lineFailed line cause => s!"line {Text.quoted line} failed: {cause.message}"
  | sessionEnded tally =>
    s!"session ended: {tally.evaluated} lines evaluated, {tally.failed} failed"
  | streamInput => "stdin is not a terminal, reading lines without prompt"
  | settingsInForce settings => s!"settings: {settings.summary}"

/-- A record as a line of the log; the word `TIME` stands for the clock. -/
def entry (r : Record) : String := s!"TIME - {r.logger} - {r.level.name} - {r.message}\n"

end Record

/-- The records of evaluating a line: its steps, and its failure if it has no value. -/
def Evaluation.records (line : List Char) (e : Evaluation) : List Record :=
  e.steps.map .reduced ++
    match e.outcome with
    | .ok _ => []
    | .error cause => [.evaluationFailed line cause]

end Abacus
