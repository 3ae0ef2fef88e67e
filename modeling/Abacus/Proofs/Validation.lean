import Abacus.Settings.Validation
import Mathlib.Data.List.TakeWhile
import Mathlib.Tactic.Common

/-!
# What validation refuses

Values are refused each for itself, and the refusal of all is made of the issues with them
(`validate_eq_error_iff`). The message about a level cites the text that is given, so that it cannot
be written if there is a surrogate in this; without one every refusal is a list of issues
(`eq_invalid_of_levelIsLegible`).
-/
namespace Abacus

/-! ## Texts that can be written -/

namespace Wide

theorem unwritable?_eq_none_iff {stray : CodePoint → Bool} {w : Wide} :
    w.unwritable? stray = none ↔ ∀ c ∈ w, stray c = false := by
  have hdrop : w.dropWhile (!stray ·) = [] ↔ ∀ c ∈ w, stray c = false := by
    simp [List.dropWhile_eq_nil_iff]
  rw [← hdrop, unwritable?]
  split
  · next h => exact iff_of_true rfl h
  · next h => exact iff_of_false (Option.some_ne_none _) (by simp [h])

theorem isSurrogate_of_mem_ofString {s : String} {c : CodePoint} (h : c ∈ ofString s) :
    c.isSurrogate = false := by
  obtain ⟨d, -, rfl⟩ := List.mem_map.mp h
  rfl

end Wide

/-- The value given for a setting. -/
def RawSettings.get (raw : RawSettings) : Setting → Option Value
  | .prompt => raw.prompt
  | .historyFile => raw.historyFile
  | .logLevel => raw.logLevel

namespace Settings

/-! ## Refused values -/

/-- The fault of a value that is refused. -/
def fault? {α : Type} : Except Fault α → Option Fault
  | .ok _ => none
  | .error fault => some fault

theorem fault?_eq_some_iff {α : Type} {r : Except Fault α} {fault : Fault} :
    fault? r = some fault ↔ r = .error fault := by
  cases r <;> simp [fault?]

/-- Why a setting refuses a value, if it does. -/
def refusal? (homes : Homes) (x : Setting) (v : Value) : Option Fault :=
  match x with
  | .prompt => fault? (readText v)
  | .historyFile => fault? (readHistory homes v)
  | .logLevel => fault? (readLevel v)

/-- The issues with raw values, in the order of the settings. -/
def refusals (homes : Homes) (raw : RawSettings) : List Issue :=
  [Setting.prompt, .historyFile, .logLevel].filterMap fun x =>
    (raw.get x).bind fun v => (refusal? homes x v).map fun fault => ⟨x, fault, v⟩

theorem issue?_readSetting {α : Type} (x : Setting) (read : Value → Except Fault α) (default : α)
    (given : Option Value) :
    issue? (readSetting x read default given) =
      given.bind fun v => (fault? (read v)).map fun fault => ⟨x, fault, v⟩ := by
  cases given with
  | none => rfl
  | some v =>
    rw [readSetting, Option.bind_some]
    cases read v <;> rfl

variable {homes : Homes} {raw : RawSettings}

/-- **Validation fails with the issues of all refused values**, and only if there are any. -/
theorem validate_eq_error_iff {refusal : Refusal} :
    validate homes raw = .error refusal ↔
      refusal = .ofIssues (refusals homes raw) ∧ refusals homes raw ≠ [] := by
  let defaults : Settings := {}
  have hissues : refusals homes raw =
      [issue? (readSetting .prompt readText defaults.prompt raw.prompt),
        issue? (readSetting .historyFile (readHistory homes) defaults.historyFile
          raw.historyFile),
        issue? (readSetting .logLevel readLevel defaults.level raw.logLevel)].filterMap id := by
    simp only [issue?_readSetting]
    rfl
  rw [hissues, validate]
  generalize readSetting .prompt readText defaults.prompt raw.prompt = prompt
  generalize readSetting .historyFile (readHistory homes) defaults.historyFile
    raw.historyFile = history
  generalize readSetting .logLevel readLevel defaults.level raw.logLevel = level
  have hne {l : List Issue} (hl : l ≠ []) :
      (Except.error (.ofIssues l) : Except Refusal Settings) = .error refusal ↔
        refusal = .ofIssues l ∧ l ≠ [] :=
    ⟨fun h => ⟨(Except.error.inj h).symm, hl⟩, fun h => congrArg Except.error h.1.symm⟩
  cases prompt <;> cases history <;> cases level
  case ok.ok.ok => simp [issue?]
  all_goals exact hne (by simp [issue?])

/-- An issue names a setting, the value that is given for it and why the setting refuses it. -/
theorem mem_refusals_iff {i : Issue} :
    i ∈ refusals homes raw ↔
      raw.get i.setting = some i.value ∧ refusal? homes i.setting i.value = some i.fault := by
  obtain ⟨x, fault, v⟩ := i
  have hall : x ∈ [Setting.prompt, .historyFile, .logLevel] := by cases x <;> simp
  simp only [refusals, List.mem_filterMap, Option.bind_eq_some_iff, Option.map_eq_some_iff]
  constructor
  · rintro ⟨y, -, w, hget, f, hfault, heq⟩
    cases heq
    exact ⟨hget, hfault⟩
  · rintro ⟨hget, hfault⟩
    exact ⟨x, hall, v, hget, fault, hfault, rfl⟩

/-- **Validation fails just when some value is refused.** -/
theorem exists_error_iff :
    (∃ refusal, validate homes raw = .error refusal) ↔
      ∃ x v, raw.get x = some v ∧ (refusal? homes x v).isSome = true := by
  simp only [validate_eq_error_iff, Option.isSome_iff_exists]
  constructor
  · rintro ⟨refusal, -, hne⟩
    obtain ⟨i, hi⟩ := List.exists_mem_of_ne_nil _ hne
    obtain ⟨hget, hfault⟩ := mem_refusals_iff.mp hi
    exact ⟨i.setting, i.value, hget, i.fault, hfault⟩
  · rintro ⟨x, v, hget, fault, hfault⟩
    have hi : (⟨x, fault, v⟩ : Issue) ∈ refusals homes raw := mem_refusals_iff.mpr ⟨hget, hfault⟩
    exact ⟨_, rfl, List.ne_nil_of_mem hi⟩

/-! ## Refusals that can be written -/

/-- The text that is given for the level, if one is, has no surrogates. -/
def LevelIsLegible (raw : RawSettings) : Prop :=
  ∀ text ∈ raw.logLevel.bind Value.text?, ∀ c ∈ text, c.isSurrogate = false

instance (raw : RawSettings) : Decidable (LevelIsLegible raw) :=
  inferInstanceAs (Decidable (∀ text ∈ raw.logLevel.bind Value.text?, _))

theorem unwritable?_levelComplaint {text : Wide} (h : ∀ c ∈ text, c.isSurrogate = false) :
    (levelComplaint text).unwritable? CodePoint.isSurrogate = none := by
  rw [Wide.unwritable?_eq_none_iff, levelComplaint]
  intro c hc
  rw [List.mem_append, List.mem_append] at hc
  rcases hc with (hc | hc) | hc
  · exact Wide.isSurrogate_of_mem_ofString hc
  · exact h c hc
  · exact Wide.isSurrogate_of_mem_ofString hc

theorem readText_eq_ok_iff {v : Value} {text : Wide} :
    readText v = .ok text ↔ v.text? = some text := by
  rw [readText]
  cases v.text? <;> simp

/-- A reader of texts passes on the fault of a value that gives none, or it refuses the text. -/
theorem exists_of_bind_readText {α : Type} {read : Wide → Except Fault α} {v : Value}
    {fault : Fault} (h : (readText v).bind read = .error fault) :
    readText v = .error fault ∨ ∃ text, v.text? = some text ∧ read text = .error fault := by
  cases htext : readText v with
  | error e =>
    rw [htext] at h
    exact .inl (congrArg _ (Except.error.inj h))
  | ok text =>
    rw [htext] at h
    exact .inr ⟨text, readText_eq_ok_iff.mp htext, h⟩

theorem unwritable?_of_readText {v : Value} {fault : Fault} (h : readText v = .error fault) :
    fault.unwritable? = none := by
  rw [readText] at h
  split at h <;> cases h
  cases v <;> rfl

theorem unwritable?_of_normalHistory {given : Wide} {fault : Fault}
    (h : normalHistory homes given = .error fault) : fault.unwritable? = none := by
  rw [normalHistory] at h
  split at h
  · cases h
  · revert h
    fun_cases expandHome homes given.trim <;> rintro ⟨⟩ <;> rfl

theorem unwritable?_of_readHistory {v : Value} {fault : Fault}
    (h : readHistory homes v = .error fault) : fault.unwritable? = none := by
  revert h
  fun_cases readHistory homes v with
  | case1 => rintro ⟨⟩
  | case2 =>
    intro h
    rcases exists_of_bind_readText h with htext | ⟨text, -, hgiven⟩
    · exact unwritable?_of_readText htext
    · exact unwritable?_of_normalHistory hgiven

theorem unwritable?_of_normalLevel {given : Wide} {fault : Fault}
    (hlegible : ∀ c ∈ given, c.isSurrogate = false) (h : normalLevel given = .error fault) :
    fault.unwritable? = none := by
  rw [normalLevel, unwritable?_levelComplaint hlegible] at h
  split at h <;> cases h
  rfl

/-- If the level is legible, the reason why a value is refused can be written. -/
theorem unwritable?_of_mem_refusals (hlegible : LevelIsLegible raw) {i : Issue}
    (hi : i ∈ refusals homes raw) : i.fault.unwritable? = none := by
  obtain ⟨x, fault, v⟩ := i
  obtain ⟨hget, hfault⟩ := mem_refusals_iff.mp hi
  cases x with
  | prompt => exact unwritable?_of_readText (fault?_eq_some_iff.mp hfault)
  | historyFile => exact unwritable?_of_readHistory (fault?_eq_some_iff.mp hfault)
  | logLevel =>
    rcases exists_of_bind_readText (fault?_eq_some_iff.mp hfault) with htext | ⟨text, htext, hlevel⟩
    · exact unwritable?_of_readText htext
    · have hgiven : raw.logLevel = some v := hget
      refine unwritable?_of_normalLevel (hlegible text ?_) hlevel
      rw [hgiven, Option.bind_some, htext]
      exact rfl

/-- **If the level is legible, every refusal is a list of issues.** -/
theorem eq_invalid_of_levelIsLegible (hlegible : LevelIsLegible raw) {refusal : Refusal}
    (h : validate homes raw = .error refusal) : refusal = .invalid (refusals homes raw) := by
  obtain ⟨rfl, -⟩ := validate_eq_error_iff.mp h
  have hnone : (refusals homes raw).findSome? (fun i => i.fault.unwritable?) = none :=
    List.findSome?_eq_none_iff.mpr fun i hi => unwritable?_of_mem_refusals hlegible hi
  rw [Refusal.ofIssues, hnone]

end Settings
end Abacus
