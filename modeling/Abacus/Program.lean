import Abacus.CommandLine.Usage
import Abacus.Session
import Abacus.Settings.Sources
import Abacus.Text.Newline

/-!
# The program

The command line is read first, then the settings; then either one expression is evaluated or a
session is run. A refused command line and refused settings end the program with 2, an
expression without a value with 1, and a session always with 0. A file of variables that cannot be
loaded and a complaint that cannot be written are errors that nothing catches, which end it with 1.

`Program.start` is all that happens before a line is read, and `Program.run` the whole.
-/

namespace Abacus.Program

/-- Effects with an exit status. -/
structure Ending where
  status : Nat
  effects : List Effect

/-- How failures of an expression are told: in words and by a record. -/
structure Telling where
  words : Failure → String
  record : Failure → Record

/-- List the tokens of a line, or tell why it has none. -/
def listTokens (telling : Telling) (line : List Char) : Ending :=
  match tokenize line with
  | .ok tokens => ⟨0, tokens.map fun t => .line .out t.listing⟩
  | .error e => ⟨1, [.line .err (telling.words (.scan e))]⟩

/-- Evaluate a line and write its value, or tell why it has none. -/
def evaluateOnce (telling : Telling) (line : List Char) : Ending :=
  let e := evaluate line
  let logged := (e.steps.map Record.reduced).map Effect.log
  match e.outcome with
  | .ok value => ⟨0, logged ++ [.line .out value.display]⟩
  | .error cause =>
    ⟨1, logged ++ [.log (telling.record cause), .line .err (telling.words cause)]⟩

/-- Run a line, in which failures are told in some way. -/
def runLine (telling : Telling) (line : List Char) (tokens : Bool) : Ending :=
  if tokens then listTokens telling line else evaluateOnce telling line

/-- Run one expression. -/
def runExpression (expression : List Char) (tokens : Bool) : Ending :=
  runLine ⟨Failure.message, .evaluationFailed expression⟩ expression tokens

/-- What is said of a failure of a text with surrogates: a code point that cannot be read is cited
as a channel shows it. -/
def cite (w : Wide) : Failure → String
  | .scan e => s!"cannot parse input {Wide.shown ((w.drop e.pos).take 1)}"
  | cause => cause.message

/-- How failures of an expression that the command line gives are told. -/
def tellingOf : CommandLine.FlagValue → Telling
  | .text w =>
    if w.any CodePoint.isSurrogate then
      ⟨cite w, fun cause => .illegibleFailed w (cite w cause)⟩
    else ⟨Failure.message, .evaluationFailed w.line⟩
  | .nothing => ⟨Failure.message, .nothingFailed⟩

/-- The line as which an expression that the command line gives is read. Nothing is read as an empty
line. -/
def lineOf : CommandLine.FlagValue → List Char
  | .text w => w.line
  | .nothing => []

/-- Run the expression that the command line gives. -/
def runGiven (expression : CommandLine.FlagValue) (tokens : Bool) : Ending :=
  runLine (tellingOf expression) (lineOf expression) tokens

/-- The value of a flag as a value for a setting; nothing is the empty list, which none takes. -/
def override : CommandLine.FlagValue → Value
  | .text w => .text w
  | .nothing => .list []

/-- The overrides that arguments give. -/
def overrides (args : CommandLine.Arguments) : RawSettings where
  prompt := args.prompt.map override
  historyFile := args.historyFile.map override
  logLevel := args.logLevel.map override

/-- What the program has come to before it reads a line. -/
inductive Start
  /-- The program is over. The log is shown from a level on. -/
  | over (threshold : Level) (ending : Ending)
  /-- A session is to be run. -/
  | session (settings : Settings) (effects : List Effect)

/-- Go on with settings. -/
def startWith (args : CommandLine.Arguments) (settings : Settings) (effects : List Effect) :
    Start :=
  let effects := effects ++ [.log (.settingsInForce settings)]
  match args.expression with
  | some expression =>
    let ending := runGiven expression args.tokens
    .over settings.level { ending with effects := effects ++ ending.effects }
  | none => .session settings effects

/-- Read the command line and the settings, and evaluate the expression if one is given. -/
def start (argv : List Wide) (s : Settings.Surroundings) : Start :=
  match CommandLine.read argv with
  | .help => .over .warning ⟨0, [.write .out CommandLine.help]⟩
  | .refuse e => .over .warning ⟨2, [.write .err (CommandLine.complaint e)]⟩
  | .run args =>
    let configuration := Settings.read s none (overrides args)
    match configuration.settings with
    | .ok settings => startWith args settings configuration.effects
    | .error (.refused (.invalid issues)) =>
      .over .warning ⟨2, configuration.effects ++
        [.line .err s!"Invalid configuration: {Issue.summary issues}"]⟩
    | .error e => .over .warning ⟨1, configuration.effects ++ [.line .err e.message]⟩

/-- The records of the choice between a terminal and a stream. -/
def sourceRecords : LineSource → List Record
  | .script _ => []
  | .stream _ => [.streamInput]

/-- The lines of an input that is no terminal, in which every kind of line end counts. -/
def pipedInput (text : List Char) : LineSource := .stream (Text.unifyNewlines text)

/-- The session that a terminal saw: the settings and the lines left unread. -/
structure TerminalSession where
  settings : Settings
  unread : List Reading

/-- The whole of a run. -/
structure Completion where
  status : Nat
  effects : List Effect
  /-- The level from which the log is shown. -/
  threshold : Level
  /-- The session, if one was held on a terminal. -/
  terminal : Option TerminalSession

/-- The terminal session that ends with a source. -/
def terminalSession (settings : Settings) : LineSource → Option TerminalSession
  | .script readings => some ⟨settings, readings⟩
  | .stream _ => none

/-- Run the program. -/
def run (argv : List Wide) (s : Settings.Surroundings) (source : LineSource) : Completion :=
  match start argv s with
  | .over threshold ending => ⟨ending.status, ending.effects, threshold, none⟩
  | .session settings effects =>
    let result := Session.run settings.prompt source {}
    { status := 0
      effects := effects ++ (sourceRecords source).map .log ++ result.effects
      threshold := settings.level
      terminal := terminalSession settings result.source }

/-- All text that a run writes to a channel. -/
def Completion.textOn (c : Completion) (channel : Channel) : String :=
  String.join (c.effects.map (Effect.textOn channel c.threshold))

end Abacus.Program
