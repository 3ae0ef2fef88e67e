import Abacus.Text.CodePoint

/-!
# Process variables

The variables of a process: names with texts, no name twice. The small lemmas say how looking up,
setting and unsetting go together.
-/

namespace Abacus

/-- The variables of a process. -/
structure Environment where
  entries : List (String × Wide) := []
  deriving DecidableEq

namespace Environment

/-- The text of a variable. -/
def get? (env : Environment) (name : String) : Option Wide := env.entries.lookup name

/-- Whether a variable is set. -/
def contains (env : Environment) (name : String) : Bool := (env.get? name).isSome

/-- Remove a variable. -/
def unset (env : Environment) (name : String) : Environment :=
  ⟨env.entries.filter fun entry => entry.1 != name⟩

/-- Give a variable a text, whether it is set or not. -/
def set (env : Environment) (name : String) (value : Wide) : Environment :=
  ⟨(name, value) :: (env.unset name).entries⟩

theorem lookup_filter_ne (entries : List (String × Wide)) (name other : String) :
    (entries.filter fun entry => entry.1 != name).lookup other =
      if other = name then none else entries.lookup other := by
  induction entries with
  | nil => simp
  | cons entry entries ih =>
    obtain ⟨key, value⟩ := entry
    by_cases hk : key = name
    · subst hk
      by_cases ho : other = key
      · simpa [ho] using ih
      · have hb : (other == key) = false := beq_false_of_ne ho
        simpa [ho, List.lookup_cons, hb] using ih
    · by_cases ho : other = key
      · subst ho
        simp [hk]
      · have hb : (other == key) = false := beq_false_of_ne ho
        simp [hk, List.lookup_cons, hb, ih]

@[simp] theorem get?_unset (env : Environment) (name other : String) :
    (env.unset name).get? other = if other = name then none else env.get? other :=
  lookup_filter_ne env.entries name other

@[simp] theorem get?_set (env : Environment) (name : String) (value : Wide) (other : String) :
    (env.set name value).get? other = if other = name then some value else env.get? other := by
  by_cases h : other = name
  · simp [get?, set, h]
  · have hb : (other == name) = false := beq_false_of_ne h
    have hget := get?_unset env name other
    simp only [get?, h, if_false] at hget
    simp [get?, set, List.lookup_cons, h, hb, hget]

end Environment
end Abacus
