import Abacus.Program

/-!
# The command line program

The outer layer: it looks up what the program stands in, hands it over, and does what the
effects say. A session on a terminal is played turn by turn, so that each answer is seen before
the next line is typed. Home directories of users are not looked up, so that only the one that the
variables name is known.
-/

namespace Abacus

/-- The text of a file that can be read. -/
def readFile? (path : String) : IO (Option String) := do
  try
    return some (← IO.FS.readFile path)
  catch _ =>
    return none

/-- The working directory as a path. -/
def workingDirectory : IO Path := do
  let dir ← IO.currentDir
  return (((dir.toString.splitOn "/").filter (· != "")).map Wide.ofString).reverse

/-- The files of variables in a directory and around it. -/
def variableFiles : Path → IO FileTree
  | [] => do
    match ← readFile? ("/" ++ VariableFile.usualName) with
    | some text => return FileTree.write {} [Wide.ofString VariableFile.usualName] text
    | none => return {}
  | dir :: outer => do
    let path := Wide.ofString VariableFile.usualName :: dir :: outer
    let tree ← variableFiles outer
    match ← readFile? ("/" ++ "/".intercalate (path.map Wide.shown).reverse) with
    | some text => return tree.write path text
    | none => return tree

/-- The process variables that settings and files of variables can ask for. -/
def lookUpVariables (tree : FileTree) : IO Environment := do
  let fixed := [Settings.homeName, VariableFile.switchName] ++
    [Setting.prompt, .historyFile, .logLevel].map Settings.variableName
  let statements := tree.files.flatMap fun file => VariableFile.statementsOf file.2
  let mut env : Environment := {}
  for name in fixed ++ VariableFile.names (VariableFile.entries statements) do
    if let some text ← IO.getEnv name then
      env := env.set name text
  return env

/-- Do what an effect says, the log being shown from a level on. -/
def perform (threshold : Level) (e : Effect) : IO Unit := do
  IO.print (e.textOn .out threshold)
  IO.eprint (e.textOn .err threshold)

/-- Play a session on a terminal, the counts so far being given. -/
partial def converse (settings : Settings) (tally : Tally) : IO Unit := do
  IO.print settings.prompt.shown
  (← IO.getStdout).flush
  let line ← (← IO.getStdin).getLine
  let reading :=
    if line.isEmpty then Reading.endOfInput else .line (LineSource.firstLine line.toList)
  let turn := Session.turn tally reading
  turn.effects.forM (perform settings.level)
  if turn.continues then converse settings turn.tally
  else perform settings.level (.log (.sessionEnded turn.tally))

/-- All text of the standard input. -/
partial def readInput (sofar : String) : IO String := do
  let line ← (← IO.getStdin).getLine
  if line.isEmpty then return sofar else readInput (sofar ++ line)

/-- Run a session on the standard input. -/
def runSession (settings : Settings) : IO Unit := do
  if ← (← IO.getStdin).isTty then
    converse settings {}
  else
    let source := Program.pipedInput (← readInput "").toList
    let result := Session.run settings.prompt source {}
    let logged := (Program.sourceRecords source).map Effect.log
    (logged ++ result.effects).forM (perform settings.level)

end Abacus

open Abacus in
/-- Run the program with the words of its command line. -/
def main (argv : List String) : IO UInt32 := do
  let directory ← workingDirectory
  let tree ← variableFiles directory
  let environment ← lookUpVariables tree
  match Program.start (argv.map Wide.ofString) { environment, tree, directory } with
  | .over threshold ending =>
    ending.effects.forM (perform threshold)
    return ending.status.toUInt32
  | .session settings effects =>
    effects.forM (perform settings.level)
    runSession settings
    return 0
