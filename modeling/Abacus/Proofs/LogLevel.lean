import Abacus.Proofs.LoggedEvaluation
import Abacus.Proofs.SessionLog

/-!
# The level of the log

The level of the log is read with the other settings, and decides nothing but which records are
shown. `DifferInLevel` says of two invocations that they differ in the level at most, wherever it
comes from, and `differInLevel_flags` that any command line can be run at any two levels. Such runs
are the same but for their logs (`SameButLog`), because as a function of the level a run tells it in
one record and shows records from it on, and that is all (`atLevel`). `log_only_observes` says this
of whole runs and of the evaluation of a line.
-/
namespace Abacus

/-! ## A level on the command line -/

namespace CommandLine

/-- Arguments with a level for the log, unless they have one. -/
def Arguments.orLevel (args : Arguments) (value : FlagValue) : Arguments :=
  { args with logLevel := args.logLevel.or (some value) }

/-- A request with a level for the log, unless it has one or is none to run. -/
def Request.orLevel : Request → FlagValue → Request
  | .run args, value => .run (args.orLevel value)
  | request, _ => request

theorem setValue_orLevel (args : Arguments) (value : FlagValue) (flag : Flag) (v : FlagValue) :
    (args.orLevel value).setValue flag v = (args.setValue flag v).orLevel value := by
  cases flag <;> simp [Arguments.setValue, Arguments.orLevel]

theorem setAll_orLevel (args : Arguments) (value : FlagValue) (c : Cluster)
    (valued : Option (Flag × FlagValue)) :
    (args.orLevel value).setAll c valued = (args.setAll c valued).map (·.orLevel value) := by
  rw [Arguments.setAll, Arguments.setAll]
  generalize c.bare.contains .help = help
  generalize c.bare.contains .tokens = tokens
  have htokens : { args.orLevel value with tokens := true } =
      { args with tokens := true }.orLevel value := rfl
  cases help with
  | true => rfl
  | false => cases tokens <;> cases valued <;> simp [htokens, setValue_orLevel]

/-- **A level that is there from the start counts unless the words give one.** -/
theorem readWords_orLevel (args : Arguments) (value : FlagValue) (extras : List Wide)
    (pending : Option (Cluster × Flag)) (words : List (Wide × Word)) :
    readWords (args.orLevel value) extras pending words =
      (readWords args extras pending words).orLevel value := by
  fun_induction readWords args extras pending words with
  | case1 args extras h => rw [readWords, if_pos h]; rfl
  | case2 args extras h => rw [readWords, if_neg h]; rfl
  | case3 args extras a o words e h => rw [readWords, h]; rfl
  | case4 args extras a o words c h flag hw ih => simp only [readWords, h, hw]; exact ih
  | case5 args extras a o words c h hw args' hs ih =>
    simp only [readWords, h, hw, setAll_orLevel, hs, Option.map_some]
    exact ih
  | case6 args extras a o words c h hw hs =>
    simp only [readWords, h, hw, setAll_orLevel, hs, Option.map_none]
    rfl
  | case7 args extras text w words hnoFlag ih =>
    rw [readWords]
    · exact ih
    · exact hnoFlag
  | case8 args extras c flag text words args' hs ih =>
    simp only [readWords, setAll_orLevel, hs, Option.map_some]
    exact ih
  | case9 args extras c flag text words hs =>
    simp only [readWords, setAll_orLevel, hs, Option.map_none]
    rfl
  | case10 words args extras c flag hnoPlain =>
    rw [readWords]
    · rfl
    · exact hnoPlain

theorem classify_level_name (level : Level) : classify level.name = .ok .plain := by
  cases level <;> decide

/-- **A level given in front** counts unless another is given behind it. -/
theorem read_logLevel_cons (level : Level) (argv : List Wide) :
    read ("--log-level" :: level.name :: argv) = (read argv).orLevel (.text level.name) := by
  have hflag : classify "--log-level" = .ok (.flag ⟨.logLevel, true, none⟩) := by decide
  have hvalue : FlagValue.ofWord level.name = .text level.name := by cases level <;> rfl
  rw [read, read, classifyAll, hflag, classifyAll, classify_level_name]
  simp only
  cases classifyAll argv with
  | error e => rfl
  | ok words =>
    simp only [Except.map, readWords, expand, expandShort, Flag.takesValue, if_true,
      Arguments.setAll, List.contains_nil]
    rw [hvalue]
    exact readWords_orLevel {} (.text level.name) [] none words

end CommandLine

/-! ## Settings up to the level -/

namespace Settings

open VariableFile (load)

/-- All that settings are read from is the same but for the level of the log, which is valid in
either case. -/
structure SameButLevel (L L' : Level) (s : Surroundings) (overrides : RawSettings)
    (s' : Surroundings) (overrides' : RawSettings) : Prop where
  malformed : (loaded s').malformed = (loaded s).malformed
  error : (loaded s').error = (loaded s).error
  homes : homes (loaded s').environment s'.users = homes (loaded s).environment s.users
  prompt : (chosen s' overrides').prompt = (chosen s overrides).prompt
  historyFile : (chosen s' overrides').historyFile = (chosen s overrides).historyFile
  level : readSetting .logLevel readLevel .warning (chosen s overrides).logLevel = .ok L
  level' : readSetting .logLevel readLevel .warning (chosen s' overrides').logLevel = .ok L'

variable {L L' : Level}

/-- A valid level is validated for itself: the other settings decide whether all are accepted. -/
theorem validate_of_level {homes : Homes} {raw raw' : RawSettings}
    (hprompt : raw'.prompt = raw.prompt) (hhistory : raw'.historyFile = raw.historyFile)
    (hlevel : readSetting .logLevel readLevel .warning raw.logLevel = .ok L)
    (hlevel' : readSetting .logLevel readLevel .warning raw'.logLevel = .ok L') :
    (∃ refusal, validate homes raw = .error refusal ∧ validate homes raw' = .error refusal) ∨
      ∃ settings : Settings, validate homes raw = .ok { settings with level := L } ∧
        validate homes raw' = .ok { settings with level := L' } := by
  simp only [validate, hprompt, hhistory]
  rw [hlevel, hlevel']
  generalize readSetting .prompt readText _ raw.prompt = prompt
  generalize readSetting .historyFile (readHistory homes) _ raw.historyFile = history
  cases prompt <;> cases history
  case ok.ok p h => exact .inr ⟨⟨p, h, L⟩, rfl, rfl⟩
  all_goals exact .inl ⟨_, rfl, rfl⟩

theorem settings_read (s : Surroundings) (overrides : RawSettings) :
    (read s none overrides).settings =
      match (loaded s).error with
      | some e => .error (.loading e)
      | none =>
        (validate (homes (loaded s).environment s.users) (chosen s overrides)).mapError
          .refused := by
  simp only [read, loaded, chosen]
  cases (load s.environment s.tree s.directory none).error <;> rfl

theorem readSetting_name (L : Level) :
    readSetting .logLevel readLevel .warning (some (.text L.name)) = .ok L := by
  have hupper : levelText L.name = L.name := by cases L <;> decide +kernel
  simp only [readSetting, readLevel, readText, Value.text?, Except.bind, normalLevel, hupper,
    Level.ofName?_name]

/-- **The level decides nothing about the other settings**, and not whether they are accepted. -/
theorem SameButLevel.read {s s' : Surroundings} {overrides overrides' : RawSettings}
    (h : SameButLevel L L' s overrides s' overrides') :
    (∃ e, (read s none overrides).settings = .error e ∧
      (read s' none overrides').settings = .error e) ∨
    ∃ settings : Settings, (read s none overrides).settings = .ok { settings with level := L } ∧
      (read s' none overrides').settings = .ok { settings with level := L' } := by
  rw [settings_read, settings_read, h.error, h.homes]
  cases (loaded s).error with
  | some e => exact .inl ⟨_, rfl, rfl⟩
  | none =>
    rcases validate_of_level h.prompt h.historyFile h.level h.level' with
      ⟨refusal, hvalidate, hvalidate'⟩ | ⟨settings, hvalidate, hvalidate'⟩
    · exact .inl ⟨_, by rw [hvalidate]; rfl, by rw [hvalidate']; rfl⟩
    · exact .inr ⟨settings, by rw [hvalidate]; rfl, by rw [hvalidate']; rfl⟩

end Settings

/-! ## Runs up to the log -/

theorem Level.eq_debug_of_shows {L : Level} (h : L.shows .debug = true) : L = .debug := by
  cases L <;> first | rfl | cases h

/-- Whether an effect is that the settings in force are logged. -/
def Effect.tellsSettings : Effect → Bool
  | .log (.settingsInForce _) => true
  | _ => false

namespace Program

open CommandLine (Request)
open Settings (Surroundings SameButLevel)

/-- The records of a run that its log holds. -/
def Completion.emitted (c : Completion) : List Record := Effect.emitted c.threshold c.effects

/-- Two invocations differ in the level of the log at most, which is valid in either, wherever it
comes from. -/
inductive DifferInLevel (L L' : Level) (argv : List Wide) (s : Surroundings)
    (argv' : List Wide) (s' : Surroundings) : Prop
  | help (h : CommandLine.read argv = .help) (h' : CommandLine.read argv' = .help)
  | refuse {e : CommandLine.UsageError} (h : CommandLine.read argv = .refuse e)
    (h' : CommandLine.read argv' = .refuse e)
  | run {args args' : CommandLine.Arguments} (h : CommandLine.read argv = .run args)
    (h' : CommandLine.read argv' = .run args') (expression : args'.expression = args.expression)
    (tokens : args'.tokens = args.tokens)
    (settings : SameButLevel L L' s (overrides args) s' (overrides args'))

/-- Two runs are the same but for their logs. They end alike, write, ask and read the same, and do
all in the same order, save that they tell different settings. If the other one logs everything, the
one logs what the other logs as severe as its own level. -/
structure SameButLog (L L' : Level) (c c' : Completion) : Prop where
  status : c'.status = c.status
  out : c'.textOn .out = c.textOn .out
  err : Effect.writesOn .err c'.effects = Effect.writesOn .err c.effects
  prompts : Effect.prompts c'.effects = Effect.prompts c.effects
  terminal : c'.terminal =
    c.terminal.map fun t => { t with settings := { t.settings with level := L' } }
  effects : c'.effects.filter (!·.tellsSettings) = c.effects.filter (!·.tellsSettings)
  log : L' = .debug → c.emitted = c'.emitted.filter fun r => L.shows r.level

/-- A completion as a function of the level of the log. -/
def atLevel (settings : Settings) (status : Nat) (before after : List Effect)
    (unread : Option (List Reading)) (L : Level) : Completion where
  status := status
  effects := before ++ .log (.settingsInForce { settings with level := L }) :: after
  threshold := L
  terminal := unread.map fun readings => ⟨{ settings with level := L }, readings⟩

variable {L L' : Level} {argv argv' : List Wide} {s s' : Surroundings}

theorem sameButLog_self {c : Completion} (hrecords : Effect.records c.effects = [])
    (hterminal : c.terminal = none) : SameButLog L L' c c := by
  refine ⟨rfl, rfl, rfl, rfl, ?_, rfl, fun _ => ?_⟩
  · rw [hterminal]
    rfl
  · rw [Completion.emitted, Effect.emitted, hrecords]
    rfl

theorem sameButLog_atLevel (settings : Settings) (status : Nat) {before : List Effect}
    (hbefore : Effect.records before = []) (after : List Effect)
    (unread : Option (List Reading)) :
    SameButLog L L' (atLevel settings status before after unread L)
      (atLevel settings status before after unread L') := by
  constructor
  · rfl
  · rw [Completion.textOn, Completion.textOn, Effect.join_textOn_out, Effect.join_textOn_out]
    simp [atLevel]
  · simp [atLevel]
  · simp [atLevel]
  · cases unread <;> rfl
  · simp [atLevel, Effect.tellsSettings]
  · -- The settings are told at the least severe level only, where the settings are the same too.
    rintro rfl
    simp only [Completion.emitted, atLevel, Effect.emitted_debug]
    simp only [Effect.emitted, Effect.records_append, hbefore, Effect.records_log_cons,
      List.nil_append, List.filter_cons, Record.level]
    cases hshows : L.shows .debug with
    | true => rw [Level.eq_debug_of_shows hshows]
    | false => rfl

theorem records_map_write (channel : Channel) (texts : List String) :
    Effect.records (texts.map (.write channel)) = [] := by
  simp [Effect.records]

/-- The readings left behind a session at a terminal. -/
def unreadOf : LineSource → Option (List Reading)
  | .script readings => some readings
  | .stream _ => none

theorem terminalSession_eq (settings : Settings) (source : LineSource) :
    terminalSession settings source =
      (unreadOf source).map fun readings => ⟨settings, readings⟩ := by
  cases source <;> rfl

theorem fileWarnings_eq {args args' : CommandLine.Arguments}
    (h : SameButLevel L L' s (overrides args) s' (overrides args')) :
    fileWarnings s' = fileWarnings s := by
  have hmalformed := h.malformed
  rw [Settings.loaded, Settings.loaded] at hmalformed
  rw [fileWarnings, fileWarnings, hmalformed]

section Runs
variable {args : CommandLine.Arguments} {source : LineSource} {settings : Settings}

theorem run_of_help (h : CommandLine.read argv = .help) :
    run argv s source = ⟨0, [.write .out CommandLine.help], .warning, none⟩ := by
  simp only [run, start, h]

theorem run_of_refuse {e : CommandLine.UsageError} (h : CommandLine.read argv = .refuse e) :
    run argv s source = ⟨2, [.write .err (CommandLine.complaint e)], .warning, none⟩ := by
  simp only [run, start, h]

theorem run_expression_eq_atLevel {expression : CommandLine.FlagValue}
    (hargs : CommandLine.read argv = .run args)
    (hvalid : (Settings.read s none (overrides args)).settings = .ok { settings with level := L })
    (hexpression : args.expression = some expression) :
    run argv s source =
      atLevel settings (runGiven expression args.tokens).status
        ((fileWarnings s).map (.write .err)) (runGiven expression args.tokens).effects none L := by
  rw [run_of_expression hargs hvalid hexpression, List.append_assoc]
  rfl

theorem run_session_eq_atLevel (hargs : CommandLine.read argv = .run args)
    (hvalid : (Settings.read s none (overrides args)).settings = .ok { settings with level := L })
    (hexpression : args.expression = none) :
    run argv s source =
      atLevel settings 0 ((fileWarnings s).map (.write .err))
        ((sourceRecords source).map .log ++ (Session.run settings.prompt source {}).effects)
        (unreadOf (Session.run settings.prompt source {}).source) L := by
  rw [run_of_session hargs hvalid hexpression, terminalSession_eq, List.append_assoc,
    List.append_assoc]
  rfl

end Runs

/-- **Runs that differ in the level of the log at most** are the same but for their logs: they are
one function of the level, or they log nothing. -/
theorem sameButLog_run (h : DifferInLevel L L' argv s argv' s') (source : LineSource) :
    SameButLog L L' (run argv s source) (run argv' s' source) := by
  cases h with
  | help h h' =>
    rw [run_of_help h, run_of_help h']
    exact sameButLog_self rfl rfl
  | refuse h h' =>
    rw [run_of_refuse h, run_of_refuse h']
    exact sameButLog_self rfl rfl
  | @run args args' h h' hexpression htokens hsettings =>
    have hbefore := records_map_write .err (fileWarnings s)
    have hwarnings := fileWarnings_eq hsettings
    rcases hsettings.read with ⟨e, herror, herror'⟩ | ⟨settings, hvalid, hvalid'⟩
    · rw [run_of_error h herror, run_of_error h' herror', hwarnings]
      refine sameButLog_self ?_ rfl
      rw [Effect.records_append, hbefore]
      rfl
    · cases hgiven : args.expression with
      | some expression =>
        have hgiven' := hexpression.trans hgiven
        rw [run_expression_eq_atLevel h hvalid hgiven, run_expression_eq_atLevel h' hvalid' hgiven',
          hwarnings, htokens]
        exact sameButLog_atLevel settings _ hbefore _ none
      | none =>
        have hgiven' := hexpression.trans hgiven
        rw [run_session_eq_atLevel h hvalid hgiven, run_session_eq_atLevel h' hvalid' hgiven',
          hwarnings]
        exact sameButLog_atLevel settings 0 hbefore _ _

/-- The levels of the log as flags: a command line without a level of its own can be run at each. -/
theorem differInLevel_flags (L L' : Level) {argv : List Wide} (s : Surroundings)
    (hnone : ∀ args, CommandLine.read argv = .run args → args.logLevel = none) :
    DifferInLevel L L' ("--log-level" :: L.name :: argv) s
      ("--log-level" :: L'.name :: argv) s := by
  have hread := CommandLine.read_logLevel_cons L argv
  have hread' := CommandLine.read_logLevel_cons L' argv
  cases hargv : CommandLine.read argv with
  | help =>
    rw [hargv] at hread hread'
    exact .help hread hread'
  | refuse e =>
    rw [hargv] at hread hread'
    exact .refuse hread hread'
  | run args =>
    rw [hargv] at hread hread'
    have hchosen (M : Level) : (Settings.chosen s
        (overrides (args.orLevel (.text M.name)))).logLevel = some (.text M.name) := by
      simp [Settings.chosen, Settings.chooseAll, Settings.choose, Settings.given?, overrides,
        override, CommandLine.Arguments.orLevel, hnone args hargv]
    refine .run hread hread' rfl rfl ⟨rfl, rfl, rfl, rfl, rfl, ?_, ?_⟩
    · rw [hchosen, Settings.readSetting_name]
    · rw [hchosen, Settings.readSetting_name]

/-- **Logging only observes.** Runs of invocations that differ in the level of the log at most are
the same but for their logs, and of these each holds what the log of all records holds at its level.
An evaluation that logs as it goes has the outcome of one that does not, stops reading where that
one does, and logs the records that its level shows. -/
theorem log_only_observes (h : DifferInLevel L L' argv s argv' s') (source : LineSource) :
    SameButLog L L' (run argv s source) (run argv' s' source) ∧
    ∀ threshold line, evaluateLogging threshold line =
      ⟨outcome line, (evaluate line).scanner,
        ((evaluate line).records line).filter fun r => threshold.shows r.level⟩ :=
  ⟨sameButLog_run h source, evaluateLogging_eq⟩

/-- A session with a line that fails: the less severe level adds the settings and what the
calculator reports, and what is written for the line is the same. -/
theorem log_only_observes_division :
    let source := LineSource.script [.line ['1', '/', '0'], .line ['q']]
    let c := run ["--log-level", "INFO"] {} source
    let c' := run ["--log-level", "DEBUG"] {} source
    DifferInLevel .info .debug ["--log-level", "INFO"] {} ["--log-level", "DEBUG"] {} ∧
      c.emitted.map Record.message =
        ["line '1/0' failed: division by zero: 1 / 0",
          "session ended: 1 lines evaluated, 1 failed"] ∧
      c'.emitted.map Record.message =
        ["settings: prompt='calc> ' history_file=None log_level='DEBUG'",
          "evaluation of '1/0' failed: division by zero: 1 / 0",
          "line '1/0' failed: division by zero: 1 / 0",
          "session ended: 1 lines evaluated, 1 failed"] ∧
      Effect.writesOn .err c.effects = ["division by zero: 1 / 0\n"] ∧
      Effect.writesOn .err c'.effects = ["division by zero: 1 / 0\n"] := by
  intro source c c'
  have hflags : DifferInLevel .info .debug ["--log-level", "INFO"] {} ["--log-level", "DEBUG"] {} :=
    @differInLevel_flags .info .debug [] {} fun args hargs => by cases hargs; rfl
  obtain ⟨hsame, -⟩ := log_only_observes hflags source
  have hmessage : Effect.writesOn .err c'.effects = ["division by zero: 1 / 0\n"] := by
    decide +kernel
  refine ⟨hflags, ?_, by decide +kernel, hsame.err.symm.trans hmessage, hmessage⟩
  rw [hsame.log rfl]
  decide +kernel

end Program

end Abacus
