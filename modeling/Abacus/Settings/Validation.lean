import Abacus.Settings.Basic
import Abacus.Settings.Value
import Abacus.Text.Excerpt

/-!
# Validating settings

A prompt is any text, or a value that stands for one. A history file is a path or nothing: blanks
around it are dropped, a blank one counts as nothing, and a `~` in front stands for a home
directory. A log level is one of five names, in any case and with blanks around it. All faults are
reported together, in the order of the settings, unless the message about one of them cannot be
written; a setting that is not given has its default.
-/

namespace Abacus

/-- The settings as messages name them. -/
inductive Setting
  | prompt
  | historyFile
  | logLevel
  deriving DecidableEq

/-- The name of a setting. -/
def Setting.name : Setting → String
  | prompt => "prompt"
  | historyFile => "history_file"
  | logLevel => "log_level"

/-- The complaint about a text that names no level. -/
def levelComplaint (given : Wide) : Wide :=
  let names := ", ".intercalate (Level.all.map Level.name)
  Wide.ofString "Unknown log level '" ++ given ++ Wide.ofString s!"', expected one of {names}"

/-- What is wrong with a value. -/
inductive Fault
  /-- The value is not a text. -/
  | notText
  /-- The bytes are not the UTF-8 form of a text. -/
  | notUnicode
  /-- The text names no level. -/
  | unknownLevel (given : Wide)
  /-- The text names no level, and the complaint that cites it cannot be written. -/
  | unwritableComplaint (why : String)
  /-- The name of a user has a null character in it, so that nobody can be asked for. -/
  | nullInUserName
  /-- The name of a user cannot be written as bytes. -/
  | unwritableUserName (why : String)
  deriving DecidableEq

/-- The kind of a fault. -/
def Fault.kind : Fault → String
  | notText => "string_type"
  | notUnicode => "string_unicode"
  | _ => "value_error"

/-- The wording of a fault. -/
def Fault.message : Fault → String
  | notText => "Input should be a valid string"
  | notUnicode =>
    "Input should be a valid string, unable to parse raw data as a unicode string"
  | unknownLevel given => s!"Value error, {(levelComplaint given).shown}"
  | unwritableComplaint why => why
  | nullInUserName => "Value error, embedded null byte"
  | unwritableUserName why => s!"Value error, {why}"

/-- Why a fault cannot be reported, if it cannot. -/
def Fault.unwritable? : Fault → Option String
  | unwritableComplaint why => some why
  | _ => none

/-- A setting whose value is refused. -/
structure Issue where
  setting : Setting
  fault : Fault
  value : Value

/-- An issue in two lines; a long value is shown by its beginning and its end. -/
def Issue.message (i : Issue) : String :=
  let shown := String.ofList (Text.excerpt i.value.form.toList)
  let detail := s!"[type={i.fault.kind}, input_value={shown}, input_type={i.value.typeName}]"
  s!"{i.setting.name}\n  {i.fault.message} {detail}"

/-- The wording of all issues together. -/
def Issue.summary (issues : List Issue) : String :=
  let plural := if issues.length = 1 then "" else "s"
  "\n".intercalate
    (s!"{issues.length} validation error{plural} for CalcSettings" :: issues.map Issue.message)

/-- Why no settings come out of values. -/
inductive Refusal
  /-- Values are refused. -/
  | invalid (issues : List Issue)
  /-- Values are refused, and the message about one of them cannot be written. -/
  | unwritable (why : String)

/-- The refusal of values with issues. -/
def Refusal.ofIssues (issues : List Issue) : Refusal :=
  match issues.findSome? fun i => i.fault.unwritable? with
  | some why => unwritable why
  | none => invalid issues

/-- The wording of a refusal. -/
def Refusal.message : Refusal → String
  | invalid issues => Issue.summary issues
  | unwritable why => why

/-- The values given for the settings. -/
structure RawSettings where
  prompt : Option Value := none
  historyFile : Option Value := none
  logLevel : Option Value := none

/-- The values for the settings among fields by name. Fields of other names mean nothing. -/
def RawSettings.ofFields (fields : List (String × Value)) : RawSettings where
  prompt := fields.lookup Setting.prompt.name
  historyFile := fields.lookup Setting.historyFile.name
  logLevel := fields.lookup Setting.logLevel.name

/-- The home directories of users by their names, and one's own by the empty name. -/
def Homes := Wide → Option Wide

/-- The homes with a directory for one's own, if there is one. -/
def Homes.withOwn (homes : Homes) (own : Option Wide) : Homes := fun user =>
  if user.isEmpty then own.or (homes user) else homes user

namespace Settings

/-- The home directory without the slashes at its end. -/
def homeStem (home : Wide) : Wide := Text.cutEnd (· == .char '/') home

/-- A path with `~` in front, moved to the home directory of the user whose name stands before the
first slash, or to one's own if no name does. The path of a user without a home stays as it is. -/
def expandHome (homes : Homes) : Wide → Except Fault Wide
  | .char '~' :: rest =>
    let user : Wide := rest.takeWhile (· != .char '/')
    let behind : Wide := rest.dropWhile (· != .char '/')
    match user.unwritable? (!·.hasBytes) with
    | some why => .error (.unwritableUserName why)
    | none =>
      if user.contains (.char '\x00') then .error .nullInUserName
      else
        match homes user with
        | some home =>
          let path := homeStem home ++ behind
          .ok (if path.isEmpty then [.char '/'] else path)
        | none => .ok (.char '~' :: rest)
  | path => .ok path

/-- The path of a history file, or nothing for a blank text. -/
def normalHistory (homes : Homes) (given : Wide) : Except Fault (Option Wide) :=
  if given.trim.isEmpty then .ok none else (expandHome homes given.trim).map some

/-- The text that names a level, without the blanks around it and in upper case. -/
def levelText (given : Wide) : Wide := given.trim.upper

/-- The level that a text names. -/
def normalLevel (given : Wide) : Except Fault Level :=
  match Level.ofName? (levelText given) with
  | some level => .ok level
  | none =>
    match (levelComplaint given).unwritable? CodePoint.isSurrogate with
    | some why => .error (.unwritableComplaint why)
    | none => .error (.unknownLevel given)

/-- What is wrong with a value that gives no text. -/
def textFault : Value → Fault
  | .bytes _ | .byteArray _ => .notUnicode
  | _ => .notText

/-- The text that a value gives. -/
def readText (v : Value) : Except Fault Wide :=
  match v.text? with
  | some text => .ok text
  | none => .error (textFault v)

/-- The history file that a value gives. -/
def readHistory (homes : Homes) : Value → Except Fault (Option Wide)
  | .null => .ok none
  | v => (readText v).bind (normalHistory homes)

/-- The level that a value gives. -/
def readLevel (v : Value) : Except Fault Level := (readText v).bind normalLevel

/-- A setting read from its value, or its default if no value is given. -/
def readSetting {α : Type} (setting : Setting) (read : Value → Except Fault α) (default : α) :
    Option Value → Except Issue α
  | none => .ok default
  | some value =>
    match read value with
    | .ok a => .ok a
    | .error fault => .error ⟨setting, fault, value⟩

/-- The issue of a setting that is refused. -/
def issue? {α : Type} : Except Issue α → Option Issue
  | .ok _ => none
  | .error i => some i

/-- The settings that raw values give, or why they give none. -/
def validate (homes : Homes) (raw : RawSettings) : Except Refusal Settings :=
  let defaults : Settings := {}
  let prompt := readSetting .prompt readText defaults.prompt raw.prompt
  let history := readSetting .historyFile (readHistory homes) defaults.historyFile raw.historyFile
  let level := readSetting .logLevel readLevel defaults.level raw.logLevel
  match prompt, history, level with
  | .ok p, .ok h, .ok l => .ok ⟨p, h, l⟩
  | _, _, _ =>
    .error (.ofIssues ([issue? prompt, issue? history, issue? level].filterMap id))

/-- The settings that fields give, or why they give none. -/
def ofFields (homes : Homes) (fields : List (String × Value)) : Except Refusal Settings :=
  validate homes (.ofFields fields)

end Settings
end Abacus
