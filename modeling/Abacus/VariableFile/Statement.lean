import Abacus.Text.Blank

/-!
# Statements of a file of variables

A file of variables is a list of statements. A statement is a remark, which starts with `#`, or
an optional `export`, a key and, after `=`, a value; a remark may follow it. A key is in single
quotes or holds no `=`, no `#` and no blank. A value is in quotes, where it may span lines and
hold escapes, or it is the rest of the line up to a blank before `#`.

Where a statement does not fit, the rest of that line is skipped, and `readStatements` tells the
line on which the statement starts. The text is expected to have line feeds as its only line ends.
-/

namespace Abacus.VariableFile

/-- A key and its value, if it has one. -/
structure Entry where
  key : List Char
  value : Option (List Char)
  deriving DecidableEq

/-- What a statement is. -/
inductive Statement
  | entry (e : Entry)
  | remark
  /-- The statement that starts on a line, counted from one, does not fit. -/
  | malformed (line : Nat)
  deriving DecidableEq

/-- Whether a character is a blank within a line. -/
def isInlineBlank (c : Char) : Bool := Text.isBlank c && c != '\n'

/-- A text without the blanks in front that belong to its first line. -/
def skipInline (cs : List Char) : List Char := cs.dropWhile isInlineBlank

/-- What is left of a text behind a beginning that it has. -/
def strip? : List Char → List Char → Option (List Char)
  | [], cs => some cs
  | _ :: _, [] => none
  | p :: ps, c :: cs => if p = c then strip? ps cs else none

/-- A text without the word `export` and the blanks behind it. -/
def skipExport (cs : List Char) : List Char :=
  match strip? "export".toList cs with
  | some (c :: rest) => if isInlineBlank c then skipInline rest else cs
  | _ => cs

/-- A part of a statement with the text behind it, or the place where the part does not fit. -/
abbrev Read (α : Type) := Except (List Char) (α × List Char)

/-- Read a key; a remark has none. -/
def readKey (cs : List Char) : Read (Option (List Char)) :=
  match cs with
  | '#' :: _ => .ok (none, cs)
  | '\'' :: rest =>
    let key := rest.takeWhile (· != '\'')
    match rest.drop key.length with
    | _ :: after => if key.isEmpty then .error cs else .ok (some key, after)
    | [] => .error cs
  | _ =>
    let key := cs.takeWhile fun c => c != '=' && c != '#' && !Text.isBlank c
    if key.isEmpty then .error cs else .ok (some key, cs.drop key.length)

/-- The text in front of the quote that closes and the text behind it, if a quote closes. A
backslash and the character behind it are one step, so the first quote that is a step of its own
closes. -/
def splitAtQuote (quote : Char) : List Char → Option (List Char × List Char)
  | [] => none
  | '\\' :: c :: cs =>
    (splitAtQuote quote cs).map fun (body, rest) => ('\\' :: c :: body, rest)
  | c :: cs =>
    if c = quote then some ([], cs)
    else (splitAtQuote quote cs).map fun (body, rest) => (c :: body, rest)

/-- A text with its escapes replaced; a backslash before any other character stays. -/
def unescape (meaning : Char → Option Char) : List Char → List Char
  | [] => []
  | ['\\'] => ['\\']
  | '\\' :: c :: cs =>
    match meaning c with
    | some d => d :: unescape meaning cs
    | none => '\\' :: unescape meaning (c :: cs)
  | c :: cs => c :: unescape meaning cs

/-- The escapes between single quotes. -/
def singleEscape (c : Char) : Option Char :=
  if c = '\\' || c = '\'' then some c else none

/-- The escapes between double quotes. -/
def doubleEscape (c : Char) : Option Char :=
  match c with
  | '\\' => some '\\'
  | '\'' => some '\''
  | '"' => some '"'
  | 'a' => some '\x07'
  | 'b' => some '\x08'
  | 'f' => some '\x0c'
  | 'n' => some '\n'
  | 'r' => some '\r'
  | 't' => some '\t'
  | 'v' => some '\x0b'
  | _ => none

/-- Read a quoted value, the opening quote of which is the first character of `cs`. -/
def readQuoted (quote : Char) (meaning : Char → Option Char) (cs : List Char) :
    Read (List Char) :=
  match splitAtQuote quote (cs.drop 1) with
  | some (body, rest) => .ok (unescape meaning body, rest)
  | none => .error cs

/-- A line up to the first blank that a `#` follows. -/
def cutRemark : List Char → List Char
  | [] => []
  | [c] => [c]
  | c :: d :: cs => if Text.isBlank c && d == '#' then [] else c :: cutRemark (d :: cs)

/-- Read the value behind an equals sign. -/
def readValue (cs : List Char) : Read (List Char) :=
  let start := skipInline cs
  match start with
  | '\'' :: _ => readQuoted '\'' singleEscape start
  | '"' :: _ => readQuoted '"' doubleEscape start
  | _ =>
    let line := cs.takeWhile (· != '\n')
    .ok (Text.trim (cutRemark line), cs.drop line.length)

/-- Read an equals sign and a value, if there is an equals sign. -/
def readAssignment (cs : List Char) : Read (Option (List Char)) :=
  match cs with
  | '=' :: rest => (readValue rest).map fun (value, after) => (some value, after)
  | _ => .ok (none, cs)

/-- A text without a remark in front, if one stands there. -/
def skipRemark (cs : List Char) : List Char :=
  match skipInline cs with
  | '#' :: rest => rest.dropWhile (· != '\n')
  | _ => cs

/-- Read the end of a line. -/
def readLineEnd (cs : List Char) : Read Unit :=
  match skipInline cs with
  | [] => .ok ((), [])
  | '\n' :: rest => .ok ((), rest)
  | _ => .error cs

/-- Read a statement, in front of which no blank is left. -/
def readStatement (cs : List Char) : Except (List Char) (Statement × List Char) := do
  let (key, cs) ← readKey (skipExport cs)
  let (value, cs) ← readAssignment (skipInline cs)
  let ((), cs) ← readLineEnd (skipRemark cs)
  match key with
  | some k => return (.entry ⟨k, value⟩, cs)
  | none => return (.remark, cs)

/-- What follows the line feed that ends the first line. -/
def skipLine (cs : List Char) : List Char := (cs.dropWhile (· != '\n')).drop 1

/-- All statements of a text that starts on a line. -/
def readStatements (line : Nat) (cs : List Char) : List Statement :=
  let start := cs.dropWhile Text.isBlank
  if start.isEmpty then []
  else
    let (statement, rest) :=
      match readStatement start with
      | .ok (statement, rest) => (statement, rest)
      | .error place => (.malformed line, skipLine place)
    if rest.length < cs.length then
      statement :: readStatements (line + (cs.count '\n' - rest.count '\n')) rest
    else [statement]
termination_by cs.length

/-- The entries among statements, in order. -/
def entries (statements : List Statement) : List Entry :=
  statements.filterMap fun
    | .entry e => some e
    | _ => none

/-- The lines of the statements that do not fit, in order. -/
def malformedLines (statements : List Statement) : List Nat :=
  statements.filterMap fun
    | .malformed line => some line
    | _ => none

end Abacus.VariableFile
