import Abacus.Text.CodePoint

/-!
# Flags of the command line

The flags, how they are spelled, and how one word of the command line is understood. A long flag
may be shortened to any beginning that no other flag shares, and its value may follow an equals
sign; the value of a short flag may follow it directly. A word that starts with a dash is no flag
if it is a dash alone, looks like a negative number or holds a space.
-/

namespace Abacus.CommandLine

/-- A flag of the command line. -/
inductive Flag
  | help
  | expression
  | tokens
  | prompt
  | historyFile
  | logLevel
  deriving DecidableEq

/-- A way to write a flag. -/
structure Spelling where
  text : String
  flag : Flag
  deriving DecidableEq

/-- All ways to write a flag, in the order in which messages list them. -/
def spellings : List Spelling := [
  ⟨"-h", .help⟩, ⟨"--help", .help⟩, ⟨"-e", .expression⟩, ⟨"--expression", .expression⟩,
  ⟨"--tokens", .tokens⟩, ⟨"--prompt", .prompt⟩, ⟨"--history-file", .historyFile⟩,
  ⟨"--log-level", .logLevel⟩]

/-- Whether a flag has a value. -/
def Flag.takesValue : Flag → Bool
  | help => false
  | tokens => false
  | _ => true

/-- The value of a flag. -/
inductive FlagValue
  | text (s : Wide)
  /-- The separator stands in place of a value, and it is dropped. -/
  | nothing
  deriving DecidableEq

/-- The value that a word is, behind a flag or attached to it. -/
def FlagValue.ofWord (word : Wide) : FlagValue :=
  if word = Wide.ofString "--" then .nothing else .text word

/-- A flag with all its spellings. -/
def Flag.display (flag : Flag) : String :=
  "/".intercalate ((spellings.filter fun s => s.flag = flag).map Spelling.text)

/-- The flag with exactly this spelling. -/
def flagOf? (text : Wide) : Option Flag :=
  (spellings.find? fun s => Wide.ofString s.text == text).map Spelling.flag

/-- A flag found in a word. -/
structure Occurrence where
  flag : Flag
  /-- Whether the flag is spelled with two dashes. -/
  long : Bool
  /-- What the word holds behind the flag and behind an equals sign that follows it. -/
  attached : Option Wide
  deriving DecidableEq

/-- How a word is understood. -/
inductive Word
  /-- The word is no flag. -/
  | plain
  /-- The word ends the flags. -/
  | separator
  /-- The word looks like a flag and is none. -/
  | unknown
  | flag (occurrence : Occurrence)
  deriving DecidableEq

/-- A word up to its first equals sign, and what follows that sign if there is one. -/
def splitEquals (word : Wide) : Wide × Option Wide :=
  let name := word.takeWhile (· != .char '=')
  match word.drop name.length with
  | _ :: value => (name, some value)
  | [] => (name, none)

/-- The flags that a shortened word may stand for, each with its full spelling. -/
def candidates (word : Wide) : List (Spelling × Occurrence) :=
  match word with
  | .char '-' :: .char '-' :: _ =>
    let (name, attached) := splitEquals word
    (spellings.filter fun s => name.isPrefixOf (Wide.ofString s.text)).map fun s =>
      (s, ⟨s.flag, true, attached⟩)
  | a :: b :: value =>
    (spellings.filter fun s => Wide.ofString s.text == [a, b]).map fun s =>
      (s, ⟨s.flag, false, some value⟩)
  | _ => []

/-- Whether a word is a dash and a number, with an optional line feed behind it. -/
def isNegativeNumber (word : Wide) : Bool :=
  match word with
  | .char '-' :: rest =>
    let body := if rest.getLast? == some (.char '\n') then rest.dropLast else rest
    let whole := body.takeWhile CodePoint.isDecimalDigit
    match body.drop whole.length with
    | [] => !whole.isEmpty
    | .char '.' :: fraction => !fraction.isEmpty && fraction.all CodePoint.isDecimalDigit
    | _ => false
  | _ => false

/-- A word that is exactly a flag, or a flag up to its first equals sign. -/
def exactFlag? (word : Wide) : Option Occurrence :=
  let isLong := (Wide.ofString "--").isPrefixOf word
  match flagOf? word with
  | some flag => some ⟨flag, isLong, none⟩
  | none =>
    match splitEquals word with
    | (name, some attached) => (flagOf? name).map fun flag => ⟨flag, isLong, some attached⟩
    | (_, none) => none

/-- Understand a word before the separator; a word that may stand for several flags is refused
with their spellings. -/
def classify (word : Wide) : Except (List String) Word :=
  if word = Wide.ofString "--" then .ok .separator
  else if word.head? != some (.char '-') || word.length = 1 then .ok .plain
  else
    match exactFlag? word, candidates word with
    | some occurrence, _ => .ok (.flag occurrence)
    | none, [(_, occurrence)] => .ok (.flag occurrence)
    | none, [] =>
      if isNegativeNumber word || word.contains (.char ' ') then .ok .plain else .ok .unknown
    | none, several => .error (several.map fun candidate => candidate.1.text)

end Abacus.CommandLine
