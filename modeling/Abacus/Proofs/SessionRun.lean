import Abacus.Session
import Mathlib.Data.Nat.Notation

/-!
# Whole sessions

A session at a terminal is settled by its script. `ends` says which reading is its last one,
`written` what each earlier reading leads to, whatever came before, and `farewell` what the last one
leads to. `run_script` puts a whole run together from these: what is read, asked, written and
counted.
-/
namespace Abacus

namespace Effect

@[simp] theorem writes_append (a b : List Effect) : writes (a ++ b) = writes a ++ writes b :=
  List.filterMap_append

@[simp] theorem prompts_append (a b : List Effect) : prompts (a ++ b) = prompts a ++ prompts b :=
  List.filterMap_append

@[simp] theorem writes_logs (records : List Record) : writes (records.map log) = [] := by
  simp [writes]

@[simp] theorem prompts_logs (records : List Record) : prompts (records.map log) = [] := by
  simp [prompts]

@[simp] theorem writes_ask_cons (prompt : Wide) (effects : List Effect) :
    writes (.ask prompt :: effects) = writes effects := rfl

@[simp] theorem prompts_ask_cons (prompt : Wide) (effects : List Effect) :
    prompts (.ask prompt :: effects) = prompt :: prompts effects := rfl

@[simp] theorem writes_log_cons (record : Record) (effects : List Effect) :
    writes (.log record :: effects) = writes effects := rfl

@[simp] theorem prompts_log_cons (record : Record) (effects : List Effect) :
    prompts (.log record :: effects) = prompts effects := rfl

@[simp] theorem writes_nil : writes [] = [] := rfl

@[simp] theorem prompts_nil : prompts [] = [] := rfl

end Effect

namespace Session

theorem toLower_eq_q_iff (c : Char) : c.toLower = 'q' ↔ c = 'q' ∨ c = 'Q' := by
  constructor
  · intro h
    by_cases hc : c.val ≥ 'A'.val ∧ c.val ≤ 'Z'.val
    · right
      have hlower : c.toLower.val = c.val + 32 := congrArg Char.val (dif_pos hc)
      rw [h] at hlower
      have hval : c.val + 32 = 113 := hlower.symm
      have hle : c.val.toNat ≤ 90 := hc.2
      have hnat := congrArg UInt32.toNat hval
      rw [UInt32.toNat_add] at hnat
      apply Char.ext
      apply UInt32.toNat_inj.mp
      change c.val.toNat = 81
      change (c.val.toNat + 32) % 2 ^ 32 = 113 at hnat
      omega
    · left
      have hlower : c.toLower = c := dif_neg hc
      rwa [hlower] at h
  · rintro (rfl | rfl) <;> rfl

/-- A line asks for the end when its lower case is `q`, which no other letter has. -/
theorem isQuit_iff (text : List Char) : isQuit text = true ↔ text.map Char.toLower = ['q'] := by
  match text with
  | [] => simp [isQuit]
  | [c] => simp [isQuit, toLower_eq_q_iff]
  | c :: d :: rest => simp [isQuit]

/-- Whether a reading is the last one of a session: the end of input, or a line whose lower case
is `q` once the blanks around it are cut. -/
def ends : Reading → Bool
  | .line line => (Text.trim line).map Char.toLower == ['q']
  | .interrupt => false
  | .endOfInput => true

/-- Whether a reading is a line to evaluate. -/
def isCounted : Reading → Bool
  | .line line => !(Text.trim line).isEmpty
  | _ => false

/-- Whether a reading is a line to evaluate that has no value. -/
def isFailing : Reading → Bool
  | .line line => !(Text.trim line).isEmpty && !(outcome (Text.trim line)).isOk
  | _ => false

/-- What is written for a reading that is not the last one. -/
def written : Reading → List (Channel × String)
  | .line line =>
    let text := Text.trim line
    if text.isEmpty then [(.out, "input is empty. input q to exit.\n")]
    else [(if (answer text).ok then .out else .err, (answer text).text ++ "\n")]
  | .interrupt => [(.out, "^C\n")]
  | .endOfInput => []

/-- What is written for the last reading: a line, or the end of input. -/
def farewell : Option Reading → Channel × String
  | some (.line _) => (.out, "exiting...\n")
  | _ => (.out, "\n")

/-- The counts with one more reading. -/
def countReading (t : Tally) (r : Reading) : Tally :=
  ⟨t.evaluated + (if isCounted r then 1 else 0), t.failed + (if isFailing r then 1 else 0)⟩

theorem answer_ok (text : List Char) : (answer text).ok = (outcome text).isOk := by
  simp only [answer, outcome]
  cases (evaluate text).outcome <;> rfl

/-! ## One turn -/

theorem ends_line (line : List Char) :
    ends (.line line) = isQuit (Text.trim line) := by
  rw [Bool.eq_iff_iff, isQuit_iff, ends, beq_iff_eq]

/-- **The last reading is the one that ends the session.** -/
theorem turn_continues (tally : Tally) (r : Reading) : (turn tally r).continues = !ends r := by
  cases r with
  | line line =>
    rw [ends_line, turn, lineTurn]
    cases hquit : isQuit (Text.trim line) with
    | true => simp
    | false => cases hempty : (Text.trim line).isEmpty <;> simp
  | interrupt => rfl
  | endOfInput => rfl

theorem turn_of_continues (tally : Tally) {r : Reading} (h : ends r = false) :
    Effect.writes (turn tally r).effects = written r ∧ Effect.prompts (turn tally r).effects = [] ∧
      (turn tally r).tally = countReading tally r := by
  cases r with
  | line line =>
    rw [ends_line] at h
    cases hempty : (Text.trim line).isEmpty with
    | true =>
      simp only [turn, lineTurn, h, hempty, written, countReading, isCounted, isFailing]
      exact ⟨rfl, rfl, rfl⟩
    | false =>
      simp only [turn, lineTurn, h, hempty, written, countReading, isCounted, isFailing,
        ← answer_ok, Answer.effects, Answer.channel, Tally.count]
      cases (answer (Text.trim line)).ok <;> simp [Effect.writes, Effect.prompts, Effect.line]
  | interrupt => exact ⟨rfl, rfl, rfl⟩
  | endOfInput => exact absurd h (by decide)

theorem turn_of_ends (tally : Tally) {r : Reading} (h : ends r = true) :
    Effect.writes (turn tally r).effects = [farewell (some r)] ∧
      Effect.prompts (turn tally r).effects = [] ∧ (turn tally r).tally = tally := by
  cases r with
  | line line =>
    rw [ends_line] at h
    rw [turn, lineTurn, if_pos h]
    exact ⟨rfl, rfl, rfl⟩
  | interrupt => exact absurd h (by decide)
  | endOfInput => exact ⟨rfl, rfl, rfl⟩

/-! ## A whole run -/

theorem run_of_ends {prompt : Wide} {source : LineSource} {tally : Tally}
    (h : ends source.read.1 = true) :
    run prompt source tally =
      ⟨.ask prompt :: (turn tally source.read.1).effects ++
        [.log (.sessionEnded (turn tally source.read.1).tally)],
        (turn tally source.read.1).tally, source.read.2⟩ := by
  have hstop : ¬(turn tally source.read.1).continues = true := by simp [turn_continues, h]
  rw [run, dif_neg hstop]

theorem run_of_continues {prompt : Wide} {source : LineSource} {tally : Tally}
    (h : ends source.read.1 = false) :
    run prompt source tally =
      { run prompt source.read.2 (turn tally source.read.1).tally with
        effects := .ask prompt :: (turn tally source.read.1).effects ++
          (run prompt source.read.2 (turn tally source.read.1).tally).effects } := by
  have hgoOn : (turn tally source.read.1).continues = true := by simp [turn_continues, h]
  rw [run, dif_pos hgoOn]

/-- What a session leaves behind when the reading at an index is its last one, the counts so far
being given. -/
structure Account (prompt : Wide) (script : List Reading) (tally : Tally) (j : ℕ)
    (result : Result) : Prop where
  source : result.source = .script (script.drop (j + 1))
  prompts : Effect.prompts result.effects = List.replicate (j + 1) prompt
  writes : Effect.writes result.effects =
    (script.take j).flatMap written ++ [farewell script[j]?]
  tally : result.tally = (script.take j).foldl countReading tally

/-- A session that is over at once. -/
theorem account_of_ends {prompt : Wide} {script : List Reading} {tally : Tally}
    (h : ends (LineSource.script script).read.1 = true) :
    Account prompt script tally 0 (run prompt (.script script) tally) := by
  obtain ⟨hwrites, hprompts, htally⟩ := turn_of_ends tally h
  rw [run_of_ends h]
  constructor
  · cases script <;> rfl
  · simp [hprompts]
  · have hlast : farewell (some (LineSource.script script).read.1) = farewell script[0]? := by
      cases script <;> rfl
    simp [hwrites, hlast]
  · exact htally

/-- A session that goes on behind a reading. -/
theorem account_cons {prompt : Wide} {r : Reading} {script : List Reading} {tally : Tally} {j : ℕ}
    (h : ends r = false)
    (hrest : Account prompt script (countReading tally r) j
      (run prompt (.script script) (countReading tally r))) :
    Account prompt (r :: script) tally (j + 1) (run prompt (.script (r :: script)) tally) := by
  obtain ⟨hwrites, hprompts, htally⟩ := turn_of_continues tally h
  have hread : ends (LineSource.script (r :: script)).read.1 = false := h
  rw [run_of_continues hread]
  simp only [LineSource.read, htally]
  constructor
  · exact hrest.source
  · simp [hprompts, hrest.prompts, List.replicate_succ]
  · simp [hwrites, hrest.writes]
  · exact hrest.tally

/-- **Every session at a terminal gives its account**: by induction on the script, one turn at a
time. -/
theorem account_run (prompt : Wide) (script : List Reading) (tally : Tally) :
    Account prompt script tally (script.findIdx ends) (run prompt (.script script) tally) := by
  induction script generalizing tally with
  | nil => exact account_of_ends rfl
  | cons r script ih =>
    cases h : ends r with
    | true =>
      rw [List.findIdx_cons, h]
      exact account_of_ends h
    | false =>
      rw [List.findIdx_cons, h]
      exact account_cons h (ih _)

theorem foldl_countReading (readings : List Reading) (tally : Tally) :
    readings.foldl countReading tally =
      ⟨tally.evaluated + readings.countP isCounted, tally.failed + readings.countP isFailing⟩ := by
  induction readings generalizing tally with
  | nil => rfl
  | cons r readings ih =>
    rw [List.foldl_cons, ih, List.countP_cons, List.countP_cons]
    simp only [countReading, Tally.mk.injEq]
    omega

/-- Only lines that are evaluated fail. -/
theorem isCounted_of_isFailing {r : Reading} (h : isFailing r = true) : isCounted r = true := by
  cases r with
  | line line =>
    rw [isFailing, Bool.and_eq_true] at h
    exact h.1
  | interrupt => exact absurd h (by decide)
  | endOfInput => exact absurd h (by decide)

/-- **A whole session at a terminal.** It reads up to the first reading that ends it and nothing
behind, asks for each reading with the prompt of the settings, writes for each earlier reading what
it leads to on its own, and counts the lines that it evaluates and those among them without a
value. -/
theorem run_script (settings : Settings) (script : List Reading) :
    let j := script.findIdx ends
    let result := run settings.prompt (.script script) {}
    result.source = .script (script.drop (j + 1)) ∧
      Effect.prompts result.effects = List.replicate (j + 1) settings.prompt ∧
      Effect.writes result.effects =
        (script.take j).flatMap written ++ [farewell script[j]?] ∧
      result.tally.evaluated = (script.take j).countP isCounted ∧
      result.tally.failed = (script.take j).countP isFailing ∧
      result.tally.failed ≤ result.tally.evaluated := by
  intro j result
  have haccount : Account settings.prompt script {} j result := account_run _ _ _
  have htally := haccount.tally
  rw [foldl_countReading] at htally
  have hevaluated : result.tally.evaluated = (script.take j).countP isCounted := by simp [htally]
  have hfailed : result.tally.failed = (script.take j).countP isFailing := by simp [htally]
  refine ⟨haccount.source, haccount.prompts, haccount.writes, hevaluated, hfailed, ?_⟩
  rw [hevaluated, hfailed]
  exact List.countP_mono_left fun r _ hr => isCounted_of_isFailing hr

end Session
end Abacus
