import Abacus.Text.CodePoint

/-!
# Log levels

How severe a log record is, and the names of the levels.
-/

namespace Abacus

/-- The severity of a log record. -/
inductive Level
  | critical
  | error
  | warning
  | info
  | debug
  deriving DecidableEq

namespace Level

/-- All levels, the most severe first. -/
def all : List Level := [critical, error, warning, info, debug]

/-- The name of a level. -/
def name : Level → String
  | critical => "CRITICAL"
  | error => "ERROR"
  | warning => "WARNING"
  | info => "INFO"
  | debug => "DEBUG"

/-- A number that is larger for a more severe level. -/
def severity : Level → Nat
  | critical => 50
  | error => 40
  | warning => 30
  | info => 20
  | debug => 10

/-- The level with a name. -/
def ofName? (name : Wide) : Option Level :=
  all.find? fun level => Wide.ofString level.name == name

/-- Whether a log at one level holds the records of another. -/
def shows (threshold level : Level) : Bool := threshold.severity ≤ level.severity

@[simp] theorem ofName?_name (level : Level) : ofName? level.name = some level := by
  cases level <;> decide

theorem eq_name_of_ofName? {name : Wide} {level : Level} (h : ofName? name = some level) :
    name = level.name := by
  have hname := List.find?_some (show all.find? (Wide.ofString ·.name == name) = some level from h)
  exact (eq_of_beq hname).symm

end Level
end Abacus
