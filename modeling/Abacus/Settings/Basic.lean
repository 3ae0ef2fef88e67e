import Abacus.Level

/-!
# Settings

The settings of the shell, once validated: the prompt, the file that keeps the history of lines
and the level of the log. `Settings.summary` is their text in the log.
-/

namespace Abacus

/-- The settings of the shell. -/
structure Settings where
  /-- Shown before a line is read from a terminal. -/
  prompt : Wide := Wide.ofString "calc> "
  /-- The file that keeps the lines read from a terminal; without one they are kept in memory. -/
  historyFile : Option Wide := none
  /-- The least severe level that is logged. -/
  level : Level := .warning
  deriving DecidableEq

namespace Settings

/-- The quoted history file, or the word for its absence. -/
def historyText (s : Settings) : String :=
  match s.historyFile with
  | some path => path.quoted
  | none => "None"

/-- The settings in one line. -/
def summary (s : Settings) : String :=
  let level := Text.quoted s.level.name.toList
  s!"prompt={s.prompt.quoted} history_file={s.historyText} log_level={level}"

end Settings
end Abacus
