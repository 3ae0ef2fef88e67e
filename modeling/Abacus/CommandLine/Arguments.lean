import Abacus.CommandLine.Flag

/-!
# Arguments of the command line

The words of a command line are understood one by one and then read in order. Of a flag that is
given twice the last value counts. Words that are no flags and no values of flags are refused all
together at the end, the separator among them. A request for help is answered where it stands,
so that only faults before it and in the same word come first; an ambiguous flag is refused before
anything is read.
-/

namespace Abacus.CommandLine

/-- What a command line asks for. -/
structure Arguments where
  expression : Option FlagValue := none
  tokens : Bool := false
  prompt : Option FlagValue := none
  historyFile : Option FlagValue := none
  logLevel : Option FlagValue := none
  deriving DecidableEq

/-- Why a command line is refused. -/
inductive UsageError
  | ambiguous (word : Wide) (spellings : List String)
  | missingValue (flag : Flag)
  | unexpectedValue (flag : Flag) (value : Wide)
  | unrecognized (words : List Wide)
  deriving DecidableEq

/-- The wording of an error. -/
def UsageError.message : UsageError → String
  | ambiguous word spellings =>
    s!"ambiguous option: {word.shown} could match " ++ ", ".intercalate spellings
  | missingValue flag => s!"argument {flag.display}: expected one argument"
  | unexpectedValue flag value =>
    s!"argument {flag.display}: ignored explicit argument {value.quoted}"
  | unrecognized words => "unrecognized arguments: " ++ " ".intercalate (words.map Wide.shown)

/-- A command line that was read. -/
inductive Request
  | run (arguments : Arguments)
  | help
  | refuse (error : UsageError)
  deriving DecidableEq

/-- The flags that one word holds: those without a value, a last one with its value, and a last
one whose value is the next word. -/
structure Cluster where
  bare : List Flag := []
  valued : Option (Flag × FlagValue) := none
  waiting : Option Flag := none
  deriving DecidableEq

/-- A cluster with one more flag in front. -/
def Cluster.push (flag : Flag) (c : Cluster) : Cluster := { c with bare := flag :: c.bare }

/-- The flags of a row of short flags, given the first one and the characters behind it. The row
ends with a flag that takes a value, and all behind that flag is the value. -/
def expandShort (flag : Flag) (cs : Wide) : Except UsageError Cluster :=
  match cs with
  | [] => .ok (if flag.takesValue then { waiting := some flag } else { bare := [flag] })
  | c :: rest =>
    if flag.takesValue then .ok { valued := some (flag, .ofWord cs) }
    else
      match flagOf? [.char '-', c] with
      | some next => (expandShort next rest).map (Cluster.push flag)
      | none => .error (.unexpectedValue flag cs)

/-- The flags that a word holds. -/
def expand (o : Occurrence) : Except UsageError Cluster :=
  match o.attached with
  | none => expandShort o.flag []
  | some value =>
    if o.flag.takesValue then .ok { valued := some (o.flag, .ofWord value) }
    else if o.long || value.isEmpty then .error (.unexpectedValue o.flag value)
    else expandShort o.flag value

/-- Give a flag its value. -/
def Arguments.setValue (args : Arguments) (flag : Flag) (value : FlagValue) : Arguments :=
  match flag with
  | .expression => { args with expression := some value }
  | .prompt => { args with prompt := some value }
  | .historyFile => { args with historyFile := some value }
  | .logLevel => { args with logLevel := some value }
  | _ => args

/-- Set the flags of a cluster, the last one's value being given; nothing when help is asked
for. -/
def Arguments.setAll (args : Arguments) (c : Cluster) (value : Option (Flag × FlagValue)) :
    Option Arguments :=
  if c.bare.contains .help then none
  else
    let args := if c.bare.contains .tokens then { args with tokens := true } else args
    some (match value with
      | some (flag, value) => args.setValue flag value
      | none => args)

/-- Read the words of a command line in order, given the arguments and the superfluous words so
far, and the flag that waits for its value with the cluster that it ends. -/
def readWords (args : Arguments) (extras : List Wide) :
    Option (Cluster × Flag) → List (Wide × Word) → Request
  | none, [] => if extras.isEmpty then .run args else .refuse (.unrecognized extras)
  | none, (_, .flag occurrence) :: words =>
    match expand occurrence with
    | .error e => .refuse e
    | .ok cluster =>
      match cluster.waiting with
      | some flag => readWords args extras (some (cluster, flag)) words
      | none =>
        match args.setAll cluster cluster.valued with
        | some args => readWords args extras none words
        | none => .help
  | none, (text, _) :: words => readWords args (extras ++ [text]) none words
  | some (cluster, flag), (text, .plain) :: words =>
    match args.setAll cluster (some (flag, .ofWord text)) with
    | some args => readWords args extras none words
    | none => .help
  | some (_, flag), _ => .refuse (.missingValue flag)

/-- Understand all words; behind the separator none is a flag. -/
def classifyAll : List Wide → Except UsageError (List (Wide × Word))
  | [] => .ok []
  | text :: texts =>
    match classify text with
    | .error spellings => .error (.ambiguous text spellings)
    | .ok .separator => .ok ((text, .separator) :: texts.map fun t => (t, .plain))
    | .ok word => (classifyAll texts).map fun words => (text, word) :: words

/-- Read a command line. -/
def read (argv : List Wide) : Request :=
  match classifyAll argv with
  | .error e => .refuse e
  | .ok words => readWords {} [] none words

end Abacus.CommandLine
