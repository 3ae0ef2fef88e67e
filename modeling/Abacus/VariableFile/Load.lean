import Abacus.FileTree
import Abacus.Text.Newline
import Abacus.VariableFile.Reference

/-!
# Loading a file of variables

The variables that a file binds are added to the process variables that are not set yet, unless
loading is switched off by a variable. The file is named by its path, or it is the nearest one
with the usual name in the working directory or around it; a file that does not exist binds
nothing.
-/

namespace Abacus.VariableFile

/-- Why loading stops. -/
inductive LoadError
  /-- The path of the file, a key or its value has a null character in it. -/
  | null
  /-- The path of the file cannot be written as bytes. -/
  | unwritable (why : String)
  /-- A key has an equals sign in it. -/
  | equalsSign
  deriving DecidableEq

/-- The wording of an error. -/
def LoadError.message : LoadError → String
  | null => "embedded null byte"
  | unwritable why => why
  | equalsSign => "illegal environment variable name"

/-- Whether a text has a null character in it. -/
def hasNull (text : Wide) : Bool := text.contains (.char '\x00')

/-- What is wrong with a variable. -/
def bindingError? (key : String) (value : Wide) : Option LoadError :=
  if hasNull key || hasNull value then some .null
  else if key.toList.contains '=' then some .equalsSign
  else none

/-- Add the bindings of variables that are not set, up to the first one that is refused. A key
without a value adds nothing. -/
def addAll : Bindings → Environment → Environment × Option LoadError
  | [], env => (env, none)
  | (_, none) :: rest, env => addAll rest env
  | (key, some value) :: rest, env =>
    if env.contains key then addAll rest env
    else
      match bindingError? key value with
      | some e => (env, some e)
      | none => addAll rest (env.set key value)

/-- The variable that switches loading off. -/
def switchName : String := "PYTHON_DOTENV_DISABLED"

/-- A code point without its case, as far as a switch needs it. -/
def foldCase : CodePoint → CodePoint
  | .char c => .char (if c = 'ſ' then 's' else c.toLower)
  | c => c

/-- Whether loading is switched off. -/
def isSwitchedOff (env : Environment) : Bool :=
  match env.get? switchName with
  | some text =>
    ["1", "true", "t", "yes", "y"].any fun word => Wide.ofString word == text.map foldCase
  | none => false

/-- What loading leads to: the environment behind it, the lines of statements that do not fit,
and the error that stopped it if one did. -/
structure Loaded where
  environment : Environment
  malformed : List Nat
  error : Option LoadError
  deriving DecidableEq

/-- The contents of a file without the byte order mark in front, if it starts with one. -/
def dropMark : List Char → List Char
  | '\ufeff' :: cs => cs
  | cs => cs

/-- The statements of a file that holds a text. -/
def statementsOf (text : String) : List Statement :=
  readStatements 1 (Text.unifyNewlines (dropMark text.toList))

/-- Load the text of a file. -/
def loadText (env : Environment) (text : String) : Loaded :=
  let statements := statementsOf text
  let (environment, error) := addAll (bind env (entries statements)) env
  ⟨environment, malformedLines statements, error⟩

/-- The usual name of a file of variables. -/
def usualName : String := ".env"

/-- The text of the file to load: the one at a path that is not empty, else the nearest one. -/
def find? (tree : FileTree) (dir : Path) (path : Option Wide) : Option String :=
  match path with
  | none | some [] => tree.readNearest? usualName dir
  | some text => (tree.resolve? dir text).bind tree.read?

/-- What is wrong with a path. -/
def pathError? (path : Wide) : Option LoadError :=
  match path.unwritable? (!·.hasBytes) with
  | some why => some (.unwritable why)
  | none => if hasNull path then some .null else none

/-- Load the file of variables for a working directory. -/
def load (env : Environment) (tree : FileTree) (dir : Path) (path : Option Wide) : Loaded :=
  if isSwitchedOff env then ⟨env, [], none⟩
  else
    match path.bind pathError?, find? tree dir path with
    | some e, _ => ⟨env, [], some e⟩
    | none, some text => loadText env text
    | none, none => ⟨env, [], none⟩

/-- The warning about a statement that does not fit. -/
def warning (line : Nat) : String :=
  s!"python-dotenv could not parse statement starting at line {line}"

end Abacus.VariableFile
