import Abacus.Proofs.BatchMode
import Abacus.Proofs.Validation

/-!
# Exit status and channels

A run ends in one of three ways, settled by its settings and its arguments before a line is read:
the settings are refused, one expression is evaluated or listed, or a session is held. `run_ends`
says for each way with which status the run ends, what it writes to which channel, and what it does
not depend on, such as the input of a run that reads none. It leaves out the levels with a
surrogate, with which a run ends otherwise (`warning_and_unwritable_level`).
-/
namespace Abacus

/-! ## What is written to a channel -/

namespace Effect

/-- The texts written to a channel among effects; log lines are not among them. -/
def writesOn (channel : Channel) (effects : List Effect) : List String :=
  (writes effects).filterMap fun w => if w.1 = channel then some w.2 else none

@[simp] theorem writesOn_append (channel : Channel) (a b : List Effect) :
    writesOn channel (a ++ b) = writesOn channel a ++ writesOn channel b := by
  rw [writesOn, writes_append, List.filterMap_append, writesOn, writesOn]

@[simp] theorem writesOn_nil (channel : Channel) : writesOn channel [] = [] := rfl

@[simp] theorem writesOn_log_cons (channel : Channel) (record : Record) (effects : List Effect) :
    writesOn channel (.log record :: effects) = writesOn channel effects := rfl

@[simp] theorem writesOn_ask_cons (channel : Channel) (prompt : Wide) (effects : List Effect) :
    writesOn channel (.ask prompt :: effects) = writesOn channel effects := rfl

@[simp] theorem writesOn_logs (channel : Channel) (recs : List Record) :
    writesOn channel (recs.map log) = [] := by
  rw [writesOn, writes_logs, List.filterMap_nil]

@[simp] theorem writesOn_write_cons (channel other : Channel) (text : String)
    (effects : List Effect) :
    writesOn channel (.write other text :: effects) =
      (if other = channel then [text] else []) ++ writesOn channel effects := by
  rw [writesOn, writesOn]
  by_cases h : other = channel <;> simp [writes, h]

/-- The writes of one text after the other to a channel. -/
theorem writesOn_map_write (channel other : Channel) (texts : List String) :
    writesOn channel (texts.map (write other)) = if other = channel then texts else [] := by
  induction texts with
  | nil => simp
  | cons text texts ih =>
    rw [List.map_cons, writesOn_write_cons, ih]
    by_cases h : other = channel <;> simp [h]

@[simp] theorem prompts_write_cons (channel : Channel) (text : String) (effects : List Effect) :
    prompts (.write channel text :: effects) = prompts effects := rfl

@[simp] theorem prompts_map_write (channel : Channel) (texts : List String) :
    prompts (texts.map (write channel)) = [] := by
  simp [prompts]

/-- **No log line reaches the output**, from whatever level on the log is shown. -/
theorem join_textOn_out (threshold : Level) (effects : List Effect) :
    String.join (effects.map (textOn .out threshold)) = String.join (writesOn .out effects) := by
  induction effects with
  | nil => rfl
  | cons e effects ih =>
    rw [List.map_cons, String.join_cons, ih]
    cases e with
    | ask prompt => simp [textOn]
    | write channel text => cases channel <;> simp [textOn]
    | log record => simp [textOn]

end Effect

/-- A line has no tokens just when some character of it is not known. -/
theorem exists_tokenize_eq_error_iff {line : List Char} :
    (∃ e, tokenize line = .error e) ↔ ∃ c ∈ line, Scanner.isKnown c = false := by
  rw [Scanner.tokenize_eq]
  rcases Scanner.known_or_unknown line with hknown | ⟨before, c, after, rfl, hbefore, hc⟩
  · rw [Scanner.lineEnd_of_known hknown]
    constructor
    · rintro ⟨e, he⟩
      cases he
    · rintro ⟨c, hmem, hc⟩
      rw [hknown c hmem] at hc
      cases hc
  · rw [Scanner.lineEnd_of_unknown hbefore hc]
    exact ⟨fun _ => ⟨c, by simp, hc⟩, fun _ => ⟨_, rfl⟩⟩

namespace Settings

/-- What loading the file of variables leads to. -/
def loaded (s : Surroundings) : VariableFile.Loaded :=
  VariableFile.load s.environment s.tree s.directory none

/-- The values chosen for the settings behind the load. -/
def chosen (s : Surroundings) (overrides : RawSettings) : RawSettings :=
  chooseAll (loaded s).environment overrides

end Settings

namespace Program

open CommandLine (Arguments FlagValue)
open Settings (Surroundings LevelIsLegible chosen)

/-! ## One expression -/

/-- The result of a line in full as it is written, which is its value or the list of its tokens, or
the words for its failure. -/
def resultOf (words : Failure → String) (line : List Char) (tokens : Bool) : Except String String :=
  if tokens then
    match tokenize line with
    | .ok ts => .ok (String.join (ts.map fun t => t.listing ++ "\n"))
    | .error e => .error (words (.scan e) ++ "\n")
  else
    match outcome line with
    | .ok v => .ok (v.display ++ "\n")
    | .error cause => .error (words cause ++ "\n")

/-- The result of an expression that the command line gives. -/
def resultGiven (expression : FlagValue) (tokens : Bool) : Except String String :=
  resultOf (tellingOf expression).words (lineOf expression) tokens

/-- How an expression ends: with its result in full on the output, or with nothing there and the
message on the error channel. -/
structure Delivers (ending : Ending) (result : Except String String) : Prop where
  succeeds : ∀ text, result = .ok text → ending.status = 0 ∧
    String.join (Effect.writesOn .out ending.effects) = text ∧
    Effect.writesOn .err ending.effects = []
  fails : ∀ message, result = .error message → ending.status = 1 ∧
    Effect.writesOn .out ending.effects = [] ∧ Effect.writesOn .err ending.effects = [message]
  asksNothing : Effect.prompts ending.effects = []

theorem Delivers.of_ok {ending : Ending} {text : String} (hstatus : ending.status = 0)
    (hout : String.join (Effect.writesOn .out ending.effects) = text)
    (herr : Effect.writesOn .err ending.effects = [])
    (hprompts : Effect.prompts ending.effects = []) : Delivers ending (.ok text) := by
  refine ⟨?_, ?_, hprompts⟩
  · intro other h
    cases h
    exact ⟨hstatus, hout, herr⟩
  · intro message h
    cases h

theorem Delivers.of_error {ending : Ending} {message : String} (hstatus : ending.status = 1)
    (hout : Effect.writesOn .out ending.effects = [])
    (herr : Effect.writesOn .err ending.effects = [message])
    (hprompts : Effect.prompts ending.effects = []) : Delivers ending (.error message) := by
  refine ⟨?_, ?_, hprompts⟩
  · intro text h
    cases h
  · intro other h
    cases h
    exact ⟨hstatus, hout, herr⟩

/-- The status of an ending that delivers a result says whether there is one. -/
theorem Delivers.status_eq_one_iff {ending : Ending} {result : Except String String}
    (h : Delivers ending result) : ending.status = 1 ↔ ∃ message, result = .error message := by
  cases result with
  | ok text =>
    rw [(h.succeeds text rfl).1]
    simp
  | error message =>
    rw [(h.fails message rfl).1]
    simp

theorem exists_resultOf_eq_error_iff (words : Failure → String) (line : List Char)
    (tokens : Bool) :
    (∃ message, resultOf words line tokens = .error message) ↔
      if tokens then ∃ e, tokenize line = .error e else ∃ f, outcome line = .error f := by
  rw [resultOf]
  split
  · cases tokenize line <;> simp
  · cases outcome line <;> simp

theorem listTokens_of_ok {telling : Telling} {line : List Char} {ts : List Token}
    (h : tokenize line = .ok ts) :
    listTokens telling line = ⟨0, (ts.map fun t => t.listing ++ "\n").map (.write .out)⟩ := by
  rw [listTokens, h, List.map_map]
  rfl

theorem delivers_listTokens (telling : Telling) (line : List Char) :
    Delivers (listTokens telling line) (resultOf telling.words line true) := by
  rw [resultOf, if_pos rfl]
  cases h : tokenize line with
  | ok ts =>
    rw [listTokens_of_ok h]
    apply Delivers.of_ok rfl
    · rw [Effect.writesOn_map_write, if_pos rfl]
    · rw [Effect.writesOn_map_write, if_neg (by decide)]
    · exact Effect.prompts_map_write _ _
  | error e =>
    rw [listTokens, h]
    exact Delivers.of_error rfl rfl rfl rfl

theorem delivers_evaluateOnce (telling : Telling) (line : List Char) :
    Delivers (evaluateOnce telling line) (resultOf telling.words line false) := by
  rw [resultOf, if_neg (by simp)]
  cases h : outcome line with
  | ok v =>
    rw [evaluateOnce_of_ok h]
    generalize (evaluate line).steps.map Record.reduced = logged
    apply Delivers.of_ok <;> simp [Effect.line]
  | error cause =>
    rw [evaluateOnce_of_error h]
    generalize (evaluate line).steps.map Record.reduced = logged
    apply Delivers.of_error <;> simp [Effect.line]

/-- **A line delivers its result**, in whatever way its failures are told. -/
theorem delivers_runLine (telling : Telling) (line : List Char) (tokens : Bool) :
    Delivers (runLine telling line tokens) (resultOf telling.words line tokens) := by
  cases tokens with
  | true => exact delivers_listTokens telling line
  | false => exact delivers_evaluateOnce telling line

theorem delivers_runGiven (expression : FlagValue) (tokens : Bool) :
    Delivers (runGiven expression tokens) (resultGiven expression tokens) :=
  delivers_runLine (tellingOf expression) (lineOf expression) tokens

/-- A surrogate is cited as the error channel shows it. -/
example : resultGiven (.text [.char '1', .char '+', .surrogate 0x4FF]) false =
    .error "cannot parse input \\udcff\n" := by
  decide +kernel

/-! ## Three ways to end -/

variable {argv : List Wide} {args : Arguments} {s : Surroundings} {source : LineSource}

/-- The warnings about the file of variables, as they are written. -/
def fileWarnings (s : Surroundings) : List String :=
  (VariableFile.load s.environment s.tree s.directory none).malformed.map fun line =>
    VariableFile.warning line ++ "\n"

theorem effects_read (s : Surroundings) (overrides : RawSettings) :
    (Settings.read s none overrides).effects = (fileWarnings s).map (.write .err) := by
  have heffects : (Settings.read s none overrides).effects =
      (VariableFile.load s.environment s.tree s.directory none).malformed.map fun line =>
        Effect.line .err (VariableFile.warning line) := by
    simp only [Settings.read]
    split <;> rfl
  rw [heffects, fileWarnings, List.map_map]
  rfl

/-- How a run without settings ends: its status and its message. -/
def failureOf : Settings.ConfigurationError → Nat × String
  | .refused (.invalid issues) => (2, s!"Invalid configuration: {Issue.summary issues}")
  | e => (1, e.message)

/-- **Without settings** a run ends at once, whatever else its arguments say and whatever there is
to read. -/
theorem run_of_error {e : Settings.ConfigurationError} (hargs : CommandLine.read argv = .run args)
    (herror : (Settings.read s none (overrides args)).settings = .error e) :
    run argv s source =
      ⟨(failureOf e).1, (fileWarnings s).map (.write .err) ++ [.line .err (failureOf e).2],
        .warning, none⟩ := by
  rcases e with (_ | _) | _ <;> simp only [run, start, hargs, herror, effects_read, failureOf]

/-- **Refused settings** are reported, and the status is 2. -/
theorem run_of_invalid {issues : List Issue} (hargs : CommandLine.read argv = .run args)
    (hinvalid :
      (Settings.read s none (overrides args)).settings = .error (.refused (.invalid issues))) :
    run argv s source =
      ⟨2, (fileWarnings s).map (.write .err) ++
        [.line .err s!"Invalid configuration: {Issue.summary issues}"], .warning, none⟩ :=
  run_of_error hargs hinvalid

/-- **An expression** ends a run without a line being read. -/
theorem run_of_expression {settings : Settings} {expression : FlagValue}
    (hargs : CommandLine.read argv = .run args)
    (hvalid : (Settings.read s none (overrides args)).settings = .ok settings)
    (hexpression : args.expression = some expression) :
    run argv s source =
      ⟨(runGiven expression args.tokens).status,
        (fileWarnings s).map (.write .err) ++ [.log (.settingsInForce settings)] ++
          (runGiven expression args.tokens).effects, settings.level, none⟩ := by
  simp only [run, start, hargs, hvalid, startWith, hexpression, effects_read]

/-- **Without an expression** a session is held. -/
theorem run_of_session {settings : Settings} (hargs : CommandLine.read argv = .run args)
    (hvalid : (Settings.read s none (overrides args)).settings = .ok settings)
    (hexpression : args.expression = none) :
    run argv s source =
      ⟨0, (fileWarnings s).map (.write .err) ++ [.log (.settingsInForce settings)] ++
          (sourceRecords source).map .log ++ (Session.run settings.prompt source {}).effects,
        settings.level,
        terminalSession settings (Session.run settings.prompt source {}).source⟩ := by
  simp only [run, start, hargs, hvalid, startWith, hexpression, effects_read]

/-- A run that refuses its settings. Nothing is evaluated or read: the run is the same for all input
and for all arguments with the same overrides. -/
structure EndsRefused (argv : List Wide) (args : Arguments) (s : Surroundings)
    (source : LineSource) (issues : List Issue) : Prop where
  status : (run argv s source).status = 2
  out : (run argv s source).textOn .out = ""
  err : Effect.writesOn .err (run argv s source).effects =
    fileWarnings s ++ [s!"Invalid configuration: {Issue.summary issues}\n"]
  unread : Effect.prompts (run argv s source).effects = [] ∧ (run argv s source).terminal = none
  unlogged : Effect.records (run argv s source).effects = []
  indifferent : ∀ argv' args' source', CommandLine.read argv' = .run args' →
    overrides args' = overrides args → run argv' s source' = run argv s source

/-- A run with an expression, which writes all of its result to the output or nothing. Nothing is
read: the run is the same for all input. It fails if there is no value, or, where tokens are listed,
if there are no tokens, which one character anywhere is enough for. -/
structure EndsDelivered (argv : List Wide) (s : Surroundings) (source : LineSource)
    (expression : FlagValue) (tokens : Bool) : Prop where
  succeeds : ∀ text, resultGiven expression tokens = .ok text → (run argv s source).status = 0 ∧
    (run argv s source).textOn .out = text ∧
    Effect.writesOn .err (run argv s source).effects = fileWarnings s
  fails : ∀ message, resultGiven expression tokens = .error message →
    (run argv s source).status = 1 ∧ (run argv s source).textOn .out = "" ∧
    Effect.writesOn .err (run argv s source).effects = fileWarnings s ++ [message]
  status_evaluated : tokens = false →
    ((run argv s source).status = 1 ↔ ∃ f, outcome (lineOf expression) = .error f)
  status_listed : tokens = true →
    ((run argv s source).status = 1 ↔ ∃ e, tokenize (lineOf expression) = .error e) ∧
      ((run argv s source).status = 1 ↔ ∃ c ∈ lineOf expression, Scanner.isKnown c = false)
  unread : Effect.prompts (run argv s source).effects = [] ∧ (run argv s source).terminal = none
  indifferent : ∀ source', run argv s source' = run argv s source

/-- A run that holds a session, in which `--tokens` means nothing. -/
structure EndsSession (argv : List Wide) (args : Arguments) (s : Surroundings)
    (source : LineSource) (settings : Settings) : Prop where
  status : (run argv s source).status = 0
  effects : (run argv s source).effects =
    (fileWarnings s).map (.write .err) ++ [.log (.settingsInForce settings)] ++
      (sourceRecords source).map .log ++ (Session.run settings.prompt source {}).effects
  terminal : (run argv s source).terminal =
    terminalSession settings (Session.run settings.prompt source {}).source
  indifferent : ∀ argv' args', CommandLine.read argv' = .run args' →
    { args' with tokens := args.tokens } = args → run argv' s source = run argv s source

theorem endsRefused {issues : List Issue} (hargs : CommandLine.read argv = .run args)
    (hinvalid :
      (Settings.read s none (overrides args)).settings = .error (.refused (.invalid issues))) :
    EndsRefused argv args s source issues := by
  have hrun := @run_of_invalid argv args s source issues hargs hinvalid
  constructor
  · rw [hrun]
  · rw [Completion.textOn, Effect.join_textOn_out, hrun, Effect.writesOn_append,
      Effect.writesOn_map_write]
    rfl
  · rw [hrun, Effect.writesOn_append, Effect.writesOn_map_write]
    rfl
  · rw [hrun, Effect.prompts_append, Effect.prompts_map_write]
    exact ⟨rfl, rfl⟩
  · rw [hrun]
    simp [Effect.records, Effect.line]
  · intro argv' args' source' hargs' hsame
    rw [hrun]
    exact run_of_invalid hargs' (hsame ▸ hinvalid)

theorem endsDelivered {settings : Settings} {expression : FlagValue}
    (hargs : CommandLine.read argv = .run args)
    (hvalid : (Settings.read s none (overrides args)).settings = .ok settings)
    (hexpression : args.expression = some expression) :
    EndsDelivered argv s source expression args.tokens := by
  have hrun := fun source => @run_of_expression argv args s source settings expression hargs hvalid
    hexpression
  have hdelivers := delivers_runGiven expression args.tokens
  have hstatus : (run argv s source).status = 1 ↔
      if args.tokens then ∃ e, tokenize (lineOf expression) = .error e
      else ∃ f, outcome (lineOf expression) = .error f := by
    rw [hrun, hdelivers.status_eq_one_iff, resultGiven, exists_resultOf_eq_error_iff]
  constructor
  · intro text htext
    obtain ⟨hzero, hout, herr⟩ := hdelivers.succeeds text htext
    rw [Completion.textOn, Effect.join_textOn_out, hrun]
    simp [Effect.writesOn_map_write, hzero, hout, herr]
  · intro message hmessage
    obtain ⟨hone, hout, herr⟩ := hdelivers.fails message hmessage
    rw [Completion.textOn, Effect.join_textOn_out, hrun]
    simp [Effect.writesOn_map_write, hone, hout, herr]
  · intro htokens
    rwa [htokens, if_neg (by simp)] at hstatus
  · intro htokens
    rw [htokens, if_pos rfl] at hstatus
    exact ⟨hstatus, hstatus.trans exists_tokenize_eq_error_iff⟩
  · rw [hrun]
    simp [hdelivers.asksNothing]
  · intro source'
    rw [hrun, hrun]

theorem endsSession {settings : Settings} (hargs : CommandLine.read argv = .run args)
    (hvalid : (Settings.read s none (overrides args)).settings = .ok settings)
    (hexpression : args.expression = none) : EndsSession argv args s source settings := by
  have hrun := @run_of_session argv args s source settings hargs hvalid hexpression
  constructor
  · rw [hrun]
  · rw [hrun]
  · rw [hrun]
  · intro argv' args' hargs' hsame
    have hoverrides : overrides args' = overrides args := by rw [← hsame]; rfl
    have hexpression' : args'.expression = none := by rw [← hexpression, ← hsame]
    rw [hrun]
    exact run_of_session hargs' (hoverrides ▸ hvalid) hexpression'

/-- **How a run ends.** Of a command line that is read, with a file of variables that can be loaded
and a legible level, the settings are refused or not. If they are, the status is 2 and nothing else
happens. If not, an expression that is given, an empty one too, ends the run with 0 or 1, and
without one a session ends it with 0 whatever its lines lead to. -/
theorem run_ends (argv : List Wide) (args : Arguments) (s : Surroundings) (source : LineSource)
    (hargs : CommandLine.read argv = .run args)
    (hload : (VariableFile.load s.environment s.tree s.directory none).error = none)
    (hlegible : LevelIsLegible (chosen s (overrides args))) :
    let result := (Settings.read s none (overrides args)).settings
    ((∃ issues, result = .error (.refused (.invalid issues))) ∨ ∃ settings, result = .ok settings) ∧
    (∀ issues, result = .error (.refused (.invalid issues)) →
      EndsRefused argv args s source issues) ∧
    ∀ settings, result = .ok settings →
      (∀ expression, args.expression = some expression →
        EndsDelivered argv s source expression args.tokens) ∧
      (args.expression = none → EndsSession argv args s source settings) := by
  intro result
  refine ⟨?_, fun issues hinvalid => endsRefused hargs hinvalid, ?_⟩
  · simp only [result, Settings.read, hload]
    cases hvalidate : Settings.validate _ _ with
    | ok settings => exact .inr ⟨settings, rfl⟩
    | error refusal =>
      rw [Settings.eq_invalid_of_levelIsLegible hlegible hvalidate]
      exact .inl ⟨_, rfl⟩
  · intro settings hvalid
    constructor
    · intro expression hexpression
      exact endsDelivered hargs hvalid hexpression
    · intro hexpression
      exact endsSession hargs hvalid hexpression

/-- A division by zero has no value, but tokens to list. With a level that is refused the status is
2, and of the input nothing is read. -/
theorem run_ends_division :
    let source := LineSource.stream ['1', '\n']
    let evaluated : List Wide := ["-e", "1/0"]
    let listed : List Wide := ["-e", "1/0", "--tokens"]
    let refused : List Wide := ["--log-level", "loud"]
    (run evaluated {} source).status = 1 ∧ (run evaluated {} source).textOn .out = "" ∧
      (run listed {} source).textOn .out = "Token(INTEGER, 1, pos=0)\nToken(DIVIDE, pos=1)\n" ++
        "Token(INTEGER, 0, pos=2)\nToken(EOF, pos=3)\n" ∧
      (run refused {} source).status = 2 ∧ Effect.prompts (run refused {} source).effects = [] := by
  intro source evaluated listed refused
  have hevaluated : CommandLine.read evaluated = .run { expression := some (.text "1/0") } := by
    decide +kernel
  have hlisted : CommandLine.read listed =
      .run { expression := some (.text "1/0"), tokens := true } := by decide +kernel
  have hrefused : CommandLine.read refused = .run { logLevel := some (.text "loud") } := by
    decide +kernel
  have hevaluates := ((run_ends evaluated _ {} source hevaluated rfl (by decide)).2.2 _ rfl).1 _ rfl
  have hlists := ((run_ends listed _ {} source hlisted rfl (by decide)).2.2 _ rfl).1 _ rfl
  have hrefuses := (run_ends refused _ {} source hrefused rfl (by decide +kernel)).2.1 _ rfl
  obtain ⟨hstatus, hout, -⟩ := hevaluates.fails "division by zero: 1 / 0\n" (by decide +kernel)
  refine ⟨hstatus, hout, (hlists.succeeds _ ?_).2.1, hrefuses.status, hrefuses.unread.1⟩
  decide +kernel

/-- **More than the message on the error channel, and another status for refused settings.** The
warning about a file of variables stands in front of the message of an expression. A level with a
surrogate is refused, but the complaint that cites it cannot be written, which nothing catches. -/
theorem warning_and_unwritable_level :
    let source := LineSource.stream []
    let argv : List Wide := ["-e", "1/0"]
    let warned : Surroundings := { tree := FileTree.write {} [".env"] "=\n" }
    let illegible : Surroundings :=
      { environment := Environment.set {} "LINECALC_LOG_LEVEL" [.surrogate 0x4FF] }
    (run argv warned source).status = 1 ∧
      Effect.writesOn .err (run argv warned source).effects =
        ["python-dotenv could not parse statement starting at line 1\n",
          "division by zero: 1 / 0\n"] ∧
      (Settings.read illegible none {}).settings.toOption = none ∧
      (run argv illegible source).status = 1 := by
  decide +kernel

end Program
end Abacus
