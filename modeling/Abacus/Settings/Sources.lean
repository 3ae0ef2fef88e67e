import Abacus.Effect
import Abacus.Settings.Validation
import Abacus.VariableFile.Load

/-!
# Where settings come from

Each setting is taken from the first place that gives it: an override, the process variable of
its name, the file of variables, its default. A null override gives nothing. The file is loaded
into the process variables first, which is why it never counts against a variable that is set. One's
own home directory is the one that a process variable names, or else the one that is known.
-/

namespace Abacus.Settings

/-- What the program stands in when it reads its settings: the process variables, the files and
the working directory, and the home directories that are known of users. -/
structure Surroundings where
  environment : Environment := {}
  tree : FileTree := {}
  directory : Path := []
  users : Homes := fun _ => none

/-- Why there are no settings. -/
inductive ConfigurationError
  /-- Values are refused. -/
  | refused (refusal : Refusal)
  /-- The file of variables cannot be loaded as a whole. -/
  | loading (error : VariableFile.LoadError)

/-- The wording of an error. -/
def ConfigurationError.message : ConfigurationError → String
  | refused refusal => refusal.message
  | .loading error => error.message

/-- Settings that were read: the process variables behind it, the warnings, and the settings. -/
structure Configuration where
  environment : Environment
  effects : List Effect
  settings : Except ConfigurationError Settings

/-- The process variable for a setting. -/
def variableName : Setting → String
  | .prompt => "LINECALC_PROMPT"
  | .historyFile => "LINECALC_HISTORY_FILE"
  | .logLevel => "LINECALC_LOG_LEVEL"

/-- An override, unless it is null. -/
def given? : Option Value → Option Value
  | some .null => none
  | value => value

/-- The value for a setting: its override, else its process variable. -/
def choose (env : Environment) (setting : Setting) (override : Option Value) : Option Value :=
  (given? override).or ((env.get? (variableName setting)).map .text)

/-- The values for all settings. -/
def chooseAll (env : Environment) (overrides : RawSettings) : RawSettings where
  prompt := choose env .prompt overrides.prompt
  historyFile := choose env .historyFile overrides.historyFile
  logLevel := choose env .logLevel overrides.logLevel

/-- The variable that names the home directory. -/
def homeName : String := "HOME"

/-- The home directories of users, where a process variable names one's own, if it is set. -/
def homes (env : Environment) (users : Homes) : Homes := users.withOwn (env.get? homeName)

/-- Read the settings from all sources. -/
def read (s : Surroundings) (path : Option Wide) (overrides : RawSettings) : Configuration :=
  let loaded := VariableFile.load s.environment s.tree s.directory path
  let env := loaded.environment
  let effects := loaded.malformed.map fun line => Effect.line .err (VariableFile.warning line)
  match loaded.error with
  | some e => ⟨env, effects, .error (.loading e)⟩
  | none =>
    ⟨env, effects, (validate (homes env s.users) (chooseAll env overrides)).mapError .refused⟩

end Abacus.Settings
