import Abacus.Proofs.Validation
import Abacus.Proofs.VariableLoading
import Abacus.Settings.Sources

/-!
# Which source decides a setting

The value of a setting comes from its override, the process variable as it was before the call, or
the file of variables, in this order; `merged` puts the three together without any load. Reading the
settings is validating these (`settings_eq_validate`).

A value that is not chosen has no influence, except that a file may refer by its name to a variable
which an override shadows. `SameUnshadowed` says of two surroundings that they differ in shadowed
values only, and that the file does not refer to one.
-/
namespace Abacus

namespace Settings

open VariableFile (load isSwitchedOff fileEntries fileBindings unshadowed Bindings)

/-! ## The sources of a setting -/

/-- The value of a setting by the rank of its sources: an override that is not null, the text of the
process variable, the value in the file of variables. -/
def firstOf (override : Option Value) (process file : Option Wide) : Option Value :=
  match override with
  | none | some .null =>
    match process with
    | some text => some (.text text)
    | none => file.map .text
  | some v => some v

/-- The value that the file to load has for a variable. -/
def fileValue (s : Surroundings) (path : Option Wide) (name : String) : Option Wide :=
  (fileBindings s.environment s.tree s.directory path).value? name

/-- The raw value of a setting, from the surroundings as they are before any load. -/
def rawValue (s : Surroundings) (path : Option Wide) (overrides : RawSettings) (x : Setting) :
    Option Value :=
  firstOf (overrides.get x) (s.environment.get? (variableName x))
    (fileValue s path (variableName x))

/-- The raw values of all settings. -/
def merged (s : Surroundings) (path : Option Wide) (overrides : RawSettings) : RawSettings where
  prompt := rawValue s path overrides .prompt
  historyFile := rawValue s path overrides .historyFile
  logLevel := rawValue s path overrides .logLevel

/-- The home directories behind a load: one's own is named by the process variable, or else by the
value in the file. -/
def homesOf (s : Surroundings) (path : Option Wide) : Homes :=
  s.users.withOwn ((s.environment.get? homeName).or (fileValue s path homeName))

@[simp] theorem get_merged (s : Surroundings) (path : Option Wide) (overrides : RawSettings)
    (x : Setting) : (merged s path overrides).get x = rawValue s path overrides x := by
  cases x <;> rfl

theorem firstOf_eq (override : Option Value) (process file : Option Wide) :
    firstOf override process file = (given? override).or ((process.or file).map .text) := by
  cases override with
  | none => cases process <;> rfl
  | some v => cases v <;> cases process <;> rfl

variable {s s' : Surroundings} {path path' : Option Wide} {overrides : RawSettings}

/-- **What is chosen behind the load** is what the sources before it give. -/
theorem choose_loaded (hon : isSwitchedOff s.environment = false)
    (hload : (load s.environment s.tree s.directory path).error = none) (x : Setting) :
    choose (load s.environment s.tree s.directory path).environment x (overrides.get x) =
      rawValue s path overrides x := by
  rw [choose, VariableFile.get?_load hon hload, rawValue, firstOf_eq, fileValue]

/-- **Reading the settings is validating the merged values.** -/
theorem settings_eq_validate (hon : isSwitchedOff s.environment = false)
    (hload : (load s.environment s.tree s.directory path).error = none) :
    (read s path overrides).settings =
      (validate (homesOf s path) (merged s path overrides)).mapError .refused := by
  have hchosen : chooseAll (load s.environment s.tree s.directory path).environment overrides =
      merged s path overrides := by
    rw [merged, ← choose_loaded hon hload, ← choose_loaded hon hload, ← choose_loaded hon hload]
    rfl
  have hhomes : homes (load s.environment s.tree s.directory path).environment s.users =
      homesOf s path := by
    rw [homes, VariableFile.get?_load hon hload homeName]
    rfl
  simp only [read, hload, hchosen, hhomes]

/-! ## Shadowed values -/

/-- Whether a variable is that of a setting which an override decides. -/
def isOverridden (overrides : RawSettings) (name : String) : Bool :=
  [Setting.prompt, .historyFile, .logLevel].any fun x =>
    variableName x == name && (given? (overrides.get x)).isSome

/-- Two surroundings differ only in values that are shadowed: in process variables of settings with
an override, and in what their files bind these or variables that are set to. The files do not refer
to a variable with an override in any other entry. -/
structure SameUnshadowed (overrides : RawSettings) (s : Surroundings) (path : Option Wide)
    (s' : Surroundings) (path' : Option Wide) : Prop where
  users : s'.users = s.users
  env : ∀ name, isOverridden overrides name = false →
    s.environment.get? name = s'.environment.get? name
  entries :
    unshadowed (isOverridden overrides) s.environment (fileEntries s.tree s.directory path) =
      unshadowed (isOverridden overrides) s'.environment (fileEntries s'.tree s'.directory path')
  unreferenced : ∀ e ∈ unshadowed (isOverridden overrides) s.environment
    (fileEntries s.tree s.directory path), ∀ name ∈ e.mentions, isOverridden overrides name = false

theorem isOverridden_variableName (overrides : RawSettings) (x : Setting) :
    isOverridden overrides (variableName x) = (given? (overrides.get x)).isSome := by
  cases x <;> simp [isOverridden, variableName]

theorem isOverridden_homeName (overrides : RawSettings) :
    isOverridden overrides homeName = false := by
  simp [isOverridden, variableName, homeName]

theorem isOverridden_switchName (overrides : RawSettings) :
    isOverridden overrides VariableFile.switchName = false := by
  simp [isOverridden, variableName, VariableFile.switchName]

namespace SameUnshadowed

theorem fileValue_eq (h : SameUnshadowed overrides s path s' path') {name : String}
    (hname : isOverridden overrides name = false) (hunset : s.environment.get? name = none) :
    fileValue s path name = fileValue s' path' name := by
  have hunset' : s'.environment.get? name = none := h.env name hname ▸ hunset
  rw [fileValue, fileBindings, VariableFile.value?_bind_unshadowed h.env h.unreferenced hname
    hunset, h.entries]
  refine (VariableFile.value?_bind_unshadowed (fun _ _ => rfl) ?_ hname hunset').symm
  exact h.entries ▸ h.unreferenced

/-- A variable without an override is found alike, whether it is set or bound by the file. -/
theorem found_eq (h : SameUnshadowed overrides s path s' path') {name : String}
    (hname : isOverridden overrides name = false) :
    (s.environment.get? name).or (fileValue s path name) =
      (s'.environment.get? name).or (fileValue s' path' name) := by
  have hvariable := h.env name hname
  cases hget : s.environment.get? name with
  | some text => rw [← hvariable, hget, Option.some_or, Option.some_or]
  | none => rw [← hvariable, hget, h.fileValue_eq hname hget]

theorem rawValue_eq (h : SameUnshadowed overrides s path s' path') (x : Setting) :
    rawValue s path overrides x = rawValue s' path' overrides x := by
  rw [rawValue, rawValue, firstOf_eq, firstOf_eq]
  cases hgiven : given? (overrides.get x) with
  | some v => rw [Option.some_or, Option.some_or]
  | none =>
    have hname : isOverridden overrides (variableName x) = false := by
      rw [isOverridden_variableName, hgiven, Option.isSome_none]
    rw [h.found_eq hname]

/-- **Shadowed values have no influence on the settings.** -/
theorem settings_eq (h : SameUnshadowed overrides s path s' path')
    (hon : isSwitchedOff s.environment = false)
    (hload : (load s.environment s.tree s.directory path).error = none)
    (hload' : (load s'.environment s'.tree s'.directory path').error = none) :
    (read s' path' overrides).settings = (read s path overrides).settings := by
  have hon' : isSwitchedOff s'.environment = false := by
    rw [isSwitchedOff, ← h.env _ (isOverridden_switchName overrides)]
    exact hon
  have hmerged : merged s path overrides = merged s' path' overrides := by
    rw [merged, h.rawValue_eq, h.rawValue_eq, h.rawValue_eq]
    rfl
  have hhomes : homesOf s path = homesOf s' path' := by
    rw [homesOf, h.found_eq (isOverridden_homeName overrides), ← h.users, homesOf]
  rw [settings_eq_validate hon hload, settings_eq_validate hon' hload', hmerged, hhomes]

end SameUnshadowed

/-- **Which source decides a setting, and what the others do.** If loading is not switched off and
not stopped, the settings are what validating the merged values gives. They are refused just when a
value that was chosen is refused, with a list of issues if the level that was chosen is legible.
Whatever is shadowed may be different. -/
theorem read_by_precedence (s : Surroundings) (path : Option Wide) (overrides : RawSettings)
    (hon : isSwitchedOff s.environment = false)
    (hload : (load s.environment s.tree s.directory path).error = none) :
    (read s path overrides).settings =
        (validate (homesOf s path) (merged s path overrides)).mapError .refused ∧
    ((∃ e, (read s path overrides).settings = .error e) ↔
      ∃ x v, rawValue s path overrides x = some v ∧
        (refusal? (homesOf s path) x v).isSome = true) ∧
    (LevelIsLegible (merged s path overrides) →
      ((∃ issues, (read s path overrides).settings = .error (.refused (.invalid issues))) ↔
        ∃ x v, rawValue s path overrides x = some v ∧
          (refusal? (homesOf s path) x v).isSome = true)) ∧
    ∀ s' path', SameUnshadowed overrides s path s' path' →
      (load s'.environment s'.tree s'.directory path').error = none →
      (read s' path' overrides).settings = (read s path overrides).settings := by
  have hsettings := @settings_eq_validate s path overrides hon hload
  refine ⟨hsettings, ?_, fun hlegible => ?_,
    fun s' path' h hload' => h.settings_eq hon hload hload'⟩
  · rw [hsettings]
    simp only [← get_merged]
    rw [← exists_error_iff]
    cases validate (homesOf s path) (merged s path overrides) <;> simp [Except.mapError]
  · rw [hsettings]
    simp only [← get_merged]
    rw [← exists_error_iff]
    constructor
    · rintro ⟨issues, hissues⟩
      cases hvalidate : validate (homesOf s path) (merged s path overrides) with
      | ok settings => simp [hvalidate, Except.mapError] at hissues
      | error refusal => exact ⟨refusal, rfl⟩
    · rintro ⟨refusal, hrefusal⟩
      rw [hrefusal, eq_invalid_of_levelIsLegible hlegible hrefusal]
      exact ⟨_, rfl⟩

/-- An override that is empty counts, a set variable shadows the file, and the file gives the rest.
The variable that the override shadows may have any text, and the one that shadows the level of the
file is refused for its own. -/
theorem settings_from_all_sources :
    let file :=
      "LINECALC_HISTORY_FILE=$\x7bLINECALC_PROMPT\x7d\nLINECALC_LOG_LEVEL=' error'\nHOME=/u"
    let tree : FileTree := FileTree.write {} [".env"] file
    let env : Environment := Environment.set {} "LINECALC_HISTORY_FILE" "~/h"
    let s : Surroundings := { environment := env, tree, directory := ["a"] }
    let s' : Surroundings := { s with environment := env.set "LINECALC_PROMPT" "loud" }
    let loud : Surroundings := { s with environment := env.set "LINECALC_LOG_LEVEL" "loud" }
    let overrides : RawSettings := { prompt := some (.text ""), logLevel := some .null }
    isSwitchedOff env = false ∧ (load s.environment s.tree s.directory none).error = none ∧
      (read s none overrides).settings.toOption = some ⟨"", some "/u/h", .error⟩ ∧
      (read s' none overrides).settings = (read s none overrides).settings ∧
      LevelIsLegible (merged loud none overrides) ∧
      ∃ issues, (read loud none overrides).settings = .error (.refused (.invalid issues)) := by
  intro file tree env s s' loud overrides
  have hon : isSwitchedOff env = false := by decide +kernel
  have hload : (load s.environment s.tree s.directory none).error = none := by decide +kernel
  have hload' : (load s'.environment s'.tree s'.directory none).error = none := by decide +kernel
  have hsame : SameUnshadowed overrides s none s' none := by
    constructor
    · rfl
    · intro name hname
      have hne : name ≠ "LINECALC_PROMPT" := by
        rintro rfl
        exact absurd hname (by decide +kernel)
      exact ((Environment.get?_set env "LINECALC_PROMPT" "loud" name).trans (if_neg hne)).symm
    · decide +kernel
    · decide +kernel
  obtain ⟨hsettings, -, -, hshadowed⟩ := read_by_precedence s none overrides hon hload
  have hlegible : LevelIsLegible (merged loud none overrides) := by decide +kernel
  have hloud : rawValue loud none overrides .logLevel = some (.text "loud") := rfl
  have hrefused : (refusal? (homesOf loud none) .logLevel (.text "loud")).isSome = true := by
    decide +kernel
  obtain ⟨-, -, hinvalid, -⟩ :=
    read_by_precedence loud none overrides (by decide +kernel) (by decide +kernel)
  refine ⟨hon, hload, ?_, hshadowed s' none hsame hload', hlegible, ?_⟩
  · rw [hsettings]
    decide +kernel
  · exact (hinvalid hlegible).mpr ⟨.logLevel, _, hloud, hrefused⟩

/-- **A file may refer to a variable that an override shadows**: the value of another setting then
depends on it, and may be refused for it. -/
theorem level_refers_to_overridden_prompt :
    let file := "LINECALC_LOG_LEVEL=$\x7bLINECALC_PROMPT:-info\x7d\n"
    let tree : FileTree := FileTree.write {} [".env"] file
    let result (env : Environment) :=
      (read { environment := env, tree } none { prompt := some (.text "p") }).settings.mapError
        ConfigurationError.message
    result {} = .ok ⟨"p", none, .info⟩ ∧
      result (Environment.set {} "LINECALC_PROMPT" "LOUD") =
        .error (Issue.summary [⟨.logLevel, .unknownLevel "LOUD", .text "LOUD"⟩]) := by
  decide +kernel

end Settings
end Abacus
