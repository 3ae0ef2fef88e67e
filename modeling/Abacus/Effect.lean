import Abacus.Log

/-!
# Effects

What the program does to the world is a list of effects in order: it asks for lines, writes text
and logs. The text that reaches a channel is a function of the effects and of the level from
which the log is shown.
-/

namespace Abacus

/-- Where text is written. -/
inductive Channel
  | out
  | err
  deriving DecidableEq

/-- What the program does to the world, one thing at a time. -/
inductive Effect
  /-- A line is asked for with a prompt. -/
  | ask (prompt : Wide)
  /-- Text is written. -/
  | write (channel : Channel) (text : String)
  /-- Something is logged. -/
  | log (record : Record)
  deriving DecidableEq

namespace Effect

/-- Write a line. -/
def line (channel : Channel) (text : String) : Effect := write channel (text ++ "\n")

/-- The text that an effect writes to a channel when the log is shown from a level on. Log lines
go to the error channel. -/
def textOn (channel : Channel) (threshold : Level) : Effect → String
  | write c text => if c = channel then text else ""
  | log record =>
    if channel = .err ∧ threshold.shows record.level = true then record.entry else ""
  | ask _ => ""

/-- The records among effects. -/
def records (effects : List Effect) : List Record :=
  effects.filterMap fun
    | log record => some record
    | _ => none

/-- The prompts among effects. -/
def prompts (effects : List Effect) : List Wide :=
  effects.filterMap fun
    | ask prompt => some prompt
    | _ => none

/-- The texts written among effects, each with its channel. -/
def writes (effects : List Effect) : List (Channel × String) :=
  effects.filterMap fun
    | write channel text => some (channel, text)
    | _ => none

end Effect
end Abacus
