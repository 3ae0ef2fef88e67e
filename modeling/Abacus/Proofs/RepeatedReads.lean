import Abacus.Proofs.Precedence

/-!
# Settings read again and again

A call for the settings leaves the variables that it loaded behind, whether it has a result or not.
`CallLaw` says what one call does to the variables, and that a second call in a row does nothing and
has the result of the first. Between calls variables are set and unset, files change and so does the
working directory; `get?_behindAll` says that through all of it a variable keeps its text until it
is set or unset. As a variable that is set gives the settings that an override with its text gives
(`settings_put`), a value from one file wins over every later file (`reads_in_sequence`).
-/
namespace Abacus

/-- The values with another one for a setting. -/
def RawSettings.put (raw : RawSettings) (x : Setting) (v : Value) : RawSettings :=
  match x with
  | .prompt => { raw with prompt := some v }
  | .historyFile => { raw with historyFile := some v }
  | .logLevel => { raw with logLevel := some v }

namespace Settings

open VariableFile (load)

/-! ## One call -/

/-- The variables behind a call are those behind the load. -/
theorem environment_read (s : Surroundings) (path : Option Wide) (overrides : RawSettings) :
    (read s path overrides).environment =
      (load s.environment s.tree s.directory path).environment := by
  simp only [read]
  split <;> rfl

/-- What can happen to the surroundings in which settings are read. -/
inductive Event
  | set (name : String) (text : Wide)
  | unset (name : String)
  /-- Files and directories are written, made or removed. -/
  | change (tree : FileTree)
  | enter (directory : Path)
  | read (path : Option Wide) (overrides : RawSettings)

/-- Whether an event sets or unsets a variable by name. -/
def Event.assigns (name : String) : Event → Bool
  | set other _ => other == name
  | unset other => other == name
  | _ => false

/-- The surroundings behind an event. -/
def Surroundings.behind (s : Surroundings) : Event → Surroundings
  | .set name text => { s with environment := s.environment.set name text }
  | .unset name => { s with environment := s.environment.unset name }
  | .change tree => { s with tree }
  | .enter directory => { s with directory }
  | .read path overrides => { s with environment := (Settings.read s path overrides).environment }

/-- The surroundings behind a sequence of events. -/
def Surroundings.behindAll (s : Surroundings) (events : List Event) : Surroundings :=
  events.foldl Surroundings.behind s

/-- What one call for the settings does. -/
structure CallLaw (s : Surroundings) (path : Option Wide) (overrides : RawSettings) : Prop where
  /-- A variable that is set keeps its text. -/
  keeps : ∀ name text, s.environment.get? name = some text →
    (read s path overrides).environment.get? name = some text
  /-- A variable that is added has the value that the file binds it to. -/
  adds : ∀ name text, s.environment.get? name = none →
    (read s path overrides).environment.get? name = some text → fileValue s path name = some text
  /-- The variables behind the call are the same for all overrides, valid or refused. -/
  indifferent : ∀ overrides',
    (read s path overrides').environment = (read s path overrides).environment
  /-- A second call with the same arguments changes no variable and has the same result. -/
  again : (load s.environment s.tree s.directory path).error = none →
    let s' := s.behind (.read path overrides)
    (read s' path overrides).environment = s'.environment ∧
      (read s' path overrides).settings = (read s path overrides).settings

/-- Without an error of the load, the result of a call is a function of the variables behind it. -/
theorem settings_of_loaded {s : Surroundings} {path : Option Wide}
    (hload : (load s.environment s.tree s.directory path).error = none) (overrides : RawSettings) :
    let env := (read s path overrides).environment
    (read s path overrides).settings =
      (validate (homes env s.users) (chooseAll env overrides)).mapError .refused := by
  intro env
  have henv : env = (load s.environment s.tree s.directory path).environment :=
    environment_read s path overrides
  rw [henv]
  simp only [read, hload]

theorem callLaw (s : Surroundings) (path : Option Wide) (overrides : RawSettings) :
    CallLaw s path overrides := by
  constructor
  · intro name text hset
    rw [environment_read]
    rcases VariableFile.get?_load_cases s.environment s.tree s.directory path name with
      hkept | ⟨hunset, -⟩
    · rw [hkept, hset]
    · rw [hset] at hunset
      cases hunset
  · intro name text hunset hadded
    rw [environment_read] at hadded
    rcases VariableFile.get?_load_cases s.environment s.tree s.directory path name with
      hkept | ⟨-, value, hvalue, hget⟩
    · rw [hkept, hunset] at hadded
      cases hadded
    · rw [hget] at hadded
      exact hvalue.trans hadded
  · intro overrides'
    rw [environment_read, environment_read]
  · intro hload s'
    have henv : s'.environment = (load s.environment s.tree s.directory path).environment :=
      environment_read s path overrides
    obtain ⟨hsame, hload'⟩ := VariableFile.load_again hload
    rw [← henv] at hsame hload'
    have hread : (read s' path overrides).environment = s'.environment :=
      (environment_read s' path overrides).trans hsame
    refine ⟨hread, ?_⟩
    rw [settings_of_loaded hload', settings_of_loaded hload, hread]
    rfl

/-! ## Calls in sequence -/

/-- **One event** keeps every variable that it does not set or unset. -/
theorem get?_behind {s : Surroundings} {name : String} {text : Wide}
    (hset : s.environment.get? name = some text) {e : Event} (he : e.assigns name = false) :
    (s.behind e).environment.get? name = some text := by
  cases e with
  | set other value =>
    have hne : name ≠ other := fun h => by simp [Event.assigns, h] at he
    rw [Surroundings.behind, Environment.get?_set, if_neg hne, hset]
  | unset other =>
    have hne : name ≠ other := fun h => by simp [Event.assigns, h] at he
    rw [Surroundings.behind, Environment.get?_unset, if_neg hne, hset]
  | change tree => exact hset
  | enter directory => exact hset
  | read path overrides => exact (callLaw s path overrides).keeps name text hset

/-- **A variable keeps its text** through all events that do not set or unset it. -/
theorem get?_behindAll {events : List Event} {s : Surroundings} {name : String} {text : Wide}
    (hset : s.environment.get? name = some text) (hfree : ∀ e ∈ events, e.assigns name = false) :
    (s.behindAll events).environment.get? name = some text := by
  induction events generalizing s with
  | nil => exact hset
  | cons e events ih =>
    obtain ⟨he, hrest⟩ := List.forall_mem_cons.mp hfree
    exact ih (get?_behind hset he) hrest

theorem choose_of_set {env : Environment} {x : Setting} {override : Option Value} {text : Wide}
    (hset : env.get? (variableName x) = some text) (hnone : given? override = none) :
    choose env x override = some (.text text) := by
  rw [choose, hnone, hset]
  rfl

theorem chooseAll_put {env : Environment} {x : Setting} {overrides : RawSettings} {text : Wide}
    (hset : env.get? (variableName x) = some text) (hnone : given? (overrides.get x) = none) :
    chooseAll env (overrides.put x (.text text)) = chooseAll env overrides := by
  have hsame : choose env x (some (.text text)) = choose env x (overrides.get x) :=
    (choose_of_set hset hnone).symm
  cases x <;> simp only [chooseAll, RawSettings.put, hsame, RawSettings.get]

/-- **A variable that is set is as good as an override**: the settings are those that an override
with its text gives. -/
theorem settings_put {s : Surroundings} {path : Option Wide} {overrides : RawSettings}
    {x : Setting} {text : Wide} (hset : s.environment.get? (variableName x) = some text)
    (hnone : given? (overrides.get x) = none) :
    (read s path (overrides.put x (.text text))).settings =
      (read s path overrides).settings := by
  have hloaded := (callLaw s path overrides).keeps _ text hset
  rw [environment_read] at hloaded
  simp only [read, chooseAll_put hloaded hnone]

/-- **Settings read in sequence.** After any events, a call follows its law. The text that a
variable has then, such as one that a call picked up from a file, is what every later call chooses
for its setting, wherever it looks for a file and whatever this binds, until the variable is set or
unset or an override is given: the settings are those that an override with this text gives. -/
theorem reads_in_sequence (start : Surroundings) (events : List Event) :
    let now := start.behindAll events
    (∀ path overrides, CallLaw now path overrides) ∧
    ∀ name text later, now.environment.get? name = some text →
      (∀ e ∈ later, e.assigns name = false) →
      let s := now.behindAll later
      s.environment.get? name = some text ∧
        ∀ path overrides x, variableName x = name → given? (overrides.get x) = none →
          choose (read s path overrides).environment x (overrides.get x) = some (.text text) ∧
          (read s path overrides).settings =
            (read s path (overrides.put x (.text text))).settings := by
  intro now
  refine ⟨callLaw now, ?_⟩
  intro name text later hset hfree s
  have hkept : s.environment.get? name = some text := get?_behindAll hset hfree
  refine ⟨hkept, ?_⟩
  rintro path overrides x rfl hnone
  have hbehind := (callLaw s path overrides).keeps _ text hkept
  exact ⟨choose_of_set hbehind hnone, (settings_put hkept hnone).symm⟩

/-- The prompt of the first directory wins in the second one, though a call with a level that is
refused picked it up; and the call may be made twice. -/
theorem first_file_wins :
    let first := FileTree.write {} [".env", "a"] "LINECALC_PROMPT=one"
    let tree := first.write [".env", "b"] "LINECALC_PROMPT=two"
    let overrides : RawSettings := { logLevel := some (.text "loud") }
    let start : Surroundings := { tree, directory := ["a"] }
    let now := start.behindAll [.read none overrides]
    let later := now.behindAll [.read none {}, .enter ["b"]]
    now.environment.get? "LINECALC_PROMPT" = some (.ofString "one") ∧
      (read start none overrides).settings.toOption = none ∧
      (read now none overrides).environment = now.environment ∧
      (read later none {}).settings.toOption = some { prompt := "one" } := by
  intro first tree overrides start now later
  have hset : now.environment.get? "LINECALC_PROMPT" = some (.ofString "one") := by decide +kernel
  have hload : (load start.environment tree start.directory none).error = none := by decide +kernel
  obtain ⟨hlaw, -⟩ := reads_in_sequence start []
  obtain ⟨-, hkept⟩ := reads_in_sequence start [.read none overrides]
  refine ⟨hset, by decide +kernel, ((hlaw none overrides).again hload).1, ?_⟩
  have hsame :=
    (hkept _ _ [.read none {}, .enter ["b"]] hset (by decide +kernel)).2 none {} .prompt rfl rfl
  rw [hsame.2]
  decide +kernel

end Settings
end Abacus
