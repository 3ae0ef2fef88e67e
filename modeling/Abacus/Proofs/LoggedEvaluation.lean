import Abacus.Log

/-!
# Evaluating with a log

`evaluate` keeps its steps and leaves it to others to tell of them. `evaluateLogging` is the
evaluation that logs as it goes: it asks behind each step whether steps are logged at all, and so
takes another branch when they are. `evaluateLogging_eq` says that this has no influence on anything
but the log, and that the log is what is left of the records of `evaluate` at its level.
-/
namespace Abacus

/-- What an evaluation that logs as it goes has come to: its outcome, the scanner behind the last
token read, and the log. -/
structure LoggedEvaluation where
  outcome : Except Failure Number
  scanner : Scanner
  log : List Record

/-- The log of a level with one more record, if the level shows it. -/
def writeLog (threshold : Level) (log : List Record) (r : Record) : List Record :=
  if threshold.shows r.level then log ++ [r] else log

theorem writeLog_eq (threshold : Level) (log : List Record) (r : Record) :
    writeLog threshold log r = log ++ [r].filter fun r => threshold.shows r.level := by
  rw [writeLog]
  cases h : threshold.shows r.level <;> simp [h]

/-- Reduce the pairs that follow into a running result, as `reduceFrom` does, and log each step. -/
def reduceLogging (threshold : Level) (log : List Record) (acc : Number) (token : Token)
    (s : Scanner) : LoggedEvaluation :=
  match _h : reduceOnce acc token s with
  | (.error e, s₁) => ⟨.error e, s₁, log⟩
  | (.ok step, s₁) =>
    let log := writeLog threshold log (.reduced step)
    match _h' : s₁.nextToken with
    | (.error e, s₂) => ⟨.error e, s₂, log⟩
    | (.ok t, s₂) =>
      if t.isEnd then ⟨.ok step.result, s₂, log⟩
      else reduceLogging threshold log step.result t s₂
termination_by s.rest.length
decreasing_by
  have hlt := rest_reduceOnce_lt _h
  have hle := Scanner.rest_nextToken_le s₁
  rw [_h'] at hle
  exact Nat.lt_of_le_of_lt hle hlt

/-- Evaluate the rest of a line, and log each step. -/
def parseLogging (threshold : Level) (s : Scanner) : LoggedEvaluation :=
  match s.nextInteger with
  | (.error e, s₁) => ⟨.error e, s₁, []⟩
  | (.ok n, s₁) =>
    match s₁.nextToken with
    | (.error e, s₂) => ⟨.error e, s₂, []⟩
    | (.ok t, s₂) => reduceLogging threshold [] (.integer n) t s₂

/-- Evaluate a line, and log each step, and that there is no value if there is none. -/
def evaluateLogging (threshold : Level) (line : List Char) : LoggedEvaluation :=
  let e := parseLogging threshold (.ofLine line)
  match e.outcome with
  | .ok _ => e
  | .error cause => { e with log := writeLog threshold e.log (.evaluationFailed line cause) }

/-- The records of steps at a level. -/
def stepLog (threshold : Level) (steps : List Reduction) : List Record :=
  (steps.map .reduced).filter fun r => threshold.shows r.level

/-- An evaluation whose steps are logged behind a log. -/
def Evaluation.logged (e : Evaluation) (threshold : Level) (log : List Record) :
    LoggedEvaluation :=
  ⟨e.outcome, e.scanner, log ++ stepLog threshold e.steps⟩

theorem logged_stop (threshold : Level) (log : List Record) (r : Except Failure Number)
    (s : Scanner) : (Evaluation.stop r s).logged threshold log = ⟨r, s, log⟩ := by
  rw [Evaluation.logged]
  simp [Evaluation.stop, stepLog]

theorem logged_after (threshold : Level) (log : List Record) (step : Reduction) (e : Evaluation) :
    (e.after step).logged threshold log =
      e.logged threshold (writeLog threshold log (.reduced step)) := by
  rw [writeLog_eq, Evaluation.logged, Evaluation.logged, List.append_assoc]
  simp only [stepLog, Evaluation.steps_after, ← List.filter_append]
  rfl

/-- **Logging the steps changes nothing about them**: by induction on the text still to be read, for
every log that there is already. -/
theorem reduceLogging_eq (threshold : Level) (log : List Record) (acc : Number) (token : Token)
    (s : Scanner) :
    reduceLogging threshold log acc token s = (reduceFrom acc token s).logged threshold log := by
  fun_induction reduceLogging threshold log acc token s with
  | case1 log acc token s e s₁ h => rw [reduceFrom_eq, h, logged_stop]
  | case2 log acc token s step s₁ h logStep e s₂ h' =>
    rw [reduceFrom_eq, h]
    simp only [h', logged_after, logged_stop, logStep]
  | case3 log acc token s step s₁ h logStep t s₂ h' hend =>
    rw [reduceFrom_eq, h]
    simp only [h', hend, if_true, logged_after, logged_stop, logStep]
  | case4 log acc token s step s₁ h logStep t s₂ h' hend ih =>
    rw [reduceFrom_eq, h]
    simp only [h', hend, Bool.false_eq_true, if_false, logged_after]
    exact ih

theorem parseLogging_eq (threshold : Level) (s : Scanner) :
    parseLogging threshold s = (evaluateFrom s).logged threshold [] := by
  rw [parseLogging, evaluateFrom]
  rcases s.nextInteger with ⟨_ | n, s₁⟩
  · exact (logged_stop threshold [] _ s₁).symm
  · simp only
    rcases s₁.nextToken with ⟨_ | t, s₂⟩
    · exact (logged_stop threshold [] _ s₂).symm
    · exact reduceLogging_eq threshold [] (.integer n) t s₂

/-- **An evaluation is the same at every level of the log**, its value or its failure and where it
stops reading, and its log holds the records that the level shows. -/
theorem evaluateLogging_eq (threshold : Level) (line : List Char) :
    evaluateLogging threshold line =
      ⟨outcome line, (evaluate line).scanner,
        ((evaluate line).records line).filter fun r => threshold.shows r.level⟩ := by
  rw [evaluateLogging, parseLogging_eq, ← evaluate, outcome, Evaluation.logged, Evaluation.records,
    List.nil_append, List.filter_append, stepLog]
  cases (evaluate line).outcome with
  | ok value => simp
  | error cause => simp only [writeLog_eq]

end Abacus
