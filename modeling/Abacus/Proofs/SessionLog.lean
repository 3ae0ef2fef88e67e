import Abacus.Proofs.ExitStatus
import Abacus.Proofs.NumberText

/-!
# The log of a session

A session asks for a line, logs, and writes. `passage` says in order what it does with a reading
that is not its last one, and `closing` what it does with the last one, so that `effects_run` gives
all that a session at a terminal does. Whatever is seen of these effects is seen line by line
(`view_passages`). `log_accounts_for_script` reads off from it that the log, the two channels and
the counts tell of the same lines.
-/
namespace Abacus

namespace Record

/-- What the log tells with a record: how severe it is, which part of the program it comes from, and
its wording. -/
def told (r : Record) : Level × String × String := (r.level, r.logger, r.message)

/-- Whether a record is the report of the session on a line without a value. -/
def isLineFailed : Record → Bool
  | lineFailed _ _ => true
  | _ => false

end Record

namespace Effect

/-- The records among effects that a log at a level holds. -/
def emitted (threshold : Level) (effects : List Effect) : List Record :=
  (records effects).filter fun r => threshold.shows r.level

@[simp] theorem records_nil : records [] = [] := rfl

@[simp] theorem records_append (a b : List Effect) : records (a ++ b) = records a ++ records b :=
  List.filterMap_append

@[simp] theorem records_log_cons (record : Record) (effects : List Effect) :
    records (.log record :: effects) = record :: records effects := rfl

@[simp] theorem records_ask_cons (prompt : Wide) (effects : List Effect) :
    records (.ask prompt :: effects) = records effects := rfl

@[simp] theorem records_logs (recs : List Record) : records (recs.map log) = recs := by
  rw [records, List.filterMap_map]
  exact List.filterMap_some

/-- A log at the least severe level holds all records. -/
theorem emitted_debug (effects : List Effect) : emitted .debug effects = records effects :=
  List.filter_eq_self.mpr fun r _ => by cases r <;> rfl

end Effect

namespace Session

/-! ## One reading -/

/-- The line that a reading gives to evaluate, if it gives one. -/
def lineOf? : Reading → Option (List Char)
  | .line line => if (Text.trim line).isEmpty then none else some (Text.trim line)
  | _ => none

/-- What a line leads to, in order. The steps of its evaluation are logged; then its value is
written, or that it has none is logged by the calculator and by its shell, and the message is
written. -/
def answered (text : List Char) : List Effect :=
  ((evaluate text).steps.map .reduced).map .log ++
    match outcome text with
    | .ok value => [.write .out (value.display ++ "\n")]
    | .error cause =>
      [.log (.evaluationFailed text cause), .log (.lineFailed text cause),
        .write .err (cause.message ++ "\n")]

/-- What is written for a reading without a line to evaluate. -/
def remark : Reading → List Effect
  | .line _ => [.write .out "input is empty. input q to exit.\n"]
  | .interrupt => [.write .out "^C\n"]
  | .endOfInput => []

/-- What a session does with a reading that is not its last one. -/
def passage (prompt : Wide) (r : Reading) : List Effect :=
  .ask prompt ::
    match lineOf? r with
    | some text => answered text
    | none => remark r

/-- What a session does with its last reading, the counts being given. -/
def closing (prompt : Wide) (last : Option Reading) (tally : Tally) : List Effect :=
  [.ask prompt, .write (farewell last).1 (farewell last).2, .log (.sessionEnded tally)]

theorem effects_answer (text : List Char) : (answer text).effects = answered text := by
  rw [answered, outcome]
  cases h : (evaluate text).outcome <;>
    simp [answer, h, Evaluation.records, Answer.effects, Answer.channel, Effect.line,
      Function.comp_def]

theorem effects_turn_of_continues (prompt : Wide) (tally : Tally) {r : Reading}
    (h : ends r = false) : .ask prompt :: (turn tally r).effects = passage prompt r := by
  cases r with
  | line line =>
    rw [ends_line] at h
    simp only [turn, lineTurn, h, passage, lineOf?, ← effects_answer]
    cases (Text.trim line).isEmpty <;> rfl
  | interrupt => rfl
  | endOfInput => cases h

theorem effects_turn_of_ends (prompt : Wide) (tally : Tally) {r : Reading} (h : ends r = true) :
    .ask prompt :: (turn tally r).effects ++ [.log (.sessionEnded (turn tally r).tally)] =
      closing prompt (some r) (turn tally r).tally := by
  cases r with
  | line line =>
    rw [ends_line] at h
    rw [turn, lineTurn, if_pos h]
    rfl
  | interrupt => cases h
  | endOfInput => rfl

/-! ## A whole run -/

/-- **All that a session at a terminal does, in order**: by induction on the script, one turn at a
time. -/
theorem effects_run (prompt : Wide) (script : List Reading) (tally : Tally) :
    (run prompt (.script script) tally).effects =
      (script.take (script.findIdx ends)).flatMap (passage prompt) ++
        closing prompt script[script.findIdx ends]? (run prompt (.script script) tally).tally := by
  induction script generalizing tally with
  | nil => rw [run_of_ends rfl]; rfl
  | cons r script ih =>
    cases h : ends r with
    | true =>
      have hread : ends (LineSource.script (r :: script)).read.1 = true := h
      rw [run_of_ends hread, List.findIdx_cons, h]
      exact effects_turn_of_ends prompt tally h
    | false =>
      have hread : ends (LineSource.script (r :: script)).read.1 = false := h
      rw [run_of_continues hread, List.findIdx_cons, h]
      simp only [LineSource.read, ih, cond_false, List.take_succ_cons, List.flatMap_cons,
        List.getElem?_cons_succ, List.append_assoc,
        ← effects_turn_of_continues prompt tally h, List.cons_append]

/-- **What is seen of the readings is seen of their lines**, if it is seen piece by piece and
nothing is seen of a reading without a line. -/
theorem view_passages {α : Type} {prompt : Wide} {view : List Effect → List α}
    {piece : List Char → List α} (hnil : view [] = [])
    (happend : ∀ a b, view (a ++ b) = view a ++ view b)
    (hline : ∀ text, view (.ask prompt :: answered text) = piece text)
    (hremark : ∀ r, view (.ask prompt :: remark r) = []) (readings : List Reading) :
    view (readings.flatMap (passage prompt)) = (readings.filterMap lineOf?).flatMap piece := by
  induction readings with
  | nil => exact hnil
  | cons r readings ih =>
    rw [List.flatMap_cons, happend, ih, passage]
    cases h : lineOf? r with
    | some text => rw [hline, List.filterMap_cons_some h, List.flatMap_cons]
    | none => rw [hremark, List.filterMap_cons_none h, List.nil_append]

/-! ## The account -/

/-- The texts of a session that are neither results nor messages. -/
def notices : List String :=
  ["input is empty. input q to exit.\n", "^C\n", "exiting...\n", "\n"]

/-- The texts written to the output among effects, without the notices. -/
def outputs (effects : List Effect) : List String :=
  (Effect.writesOn .out effects).filter (· ∉ notices)

theorem outputs_append (a b : List Effect) : outputs (a ++ b) = outputs a ++ outputs b := by
  rw [outputs, Effect.writesOn_append, List.filter_append, outputs, outputs]

/-- What the log tells about a line: the steps of its evaluation, and if it has no value, this once
as the calculator reports it and once as its shell does, with the same wording. -/
def logged (text : List Char) : List (Level × String × String) :=
  (evaluate text).steps.map (fun step => (.debug, "linecalc", step.message)) ++
    match outcome text with
    | .ok _ => []
    | .error cause =>
      [(.debug, "linecalc", s!"evaluation of {Text.quoted text} failed: {cause.message}"),
        (.info, "linecalc_cli", s!"line {Text.quoted text} failed: {cause.message}")]

/-- The result of a line as it is written, if it has a value. -/
def resultLine (text : List Char) : List String :=
  match outcome text with
  | .ok value => [value.display ++ "\n"]
  | .error _ => []

/-- The message about a line as it is written, if it has no value. -/
def messageLine (text : List Char) : List String :=
  match outcome text with
  | .ok _ => []
  | .error cause => [cause.message ++ "\n"]

/-- Whether a line has no value. -/
def isFailure (text : List Char) : Bool := !(outcome text).isOk

theorem append_newline_inj {a b : String} (h : a ++ "\n" = b ++ "\n") : a.toList = b.toList := by
  have htoList := congrArg String.toList h
  rw [String.toList_append, String.toList_append] at htoList
  exact List.append_cancel_right htoList

/-- A text with a character that numbers are not written with is no result. -/
theorem display_append_ne {text : String} (c : Char) (hmem : c ∈ text.toList)
    (hc : isNumeric c = false) (v : Number) : v.display ++ "\n" ≠ text ++ "\n" := by
  intro h
  rw [← append_newline_inj h] at hmem
  rw [v.isNumeric_display c hmem] at hc
  cases hc

theorem display_notMem_notices (v : Number) : v.display ++ "\n" ∉ notices := by
  simp only [notices, List.mem_cons, List.not_mem_nil, or_false, not_or]
  refine ⟨?_, ?_, ?_, ?_⟩
  · exact @display_append_ne "input is empty. input q to exit." 'p' (by decide) (by decide) v
  · exact @display_append_ne "^C" '^' (by decide) (by decide) v
  · exact @display_append_ne "exiting..." 'x' (by decide) (by decide) v
  · exact fun h => v.toList_display_ne_nil (@append_newline_inj _ "" h)

theorem farewell_eq (last : Option Reading) : ∃ text ∈ notices, farewell last = (.out, text) := by
  rw [farewell.eq_def]
  split
  · exact ⟨_, by decide, rfl⟩
  · exact ⟨_, by decide, rfl⟩

section Views
variable (prompt : Wide) (text : List Char)

theorem records_answered :
    Effect.records (.ask prompt :: answered text) = (evaluate text).steps.map .reduced ++
      match outcome text with
      | .ok _ => []
      | .error cause => [.evaluationFailed text cause, .lineFailed text cause] := by
  rw [Effect.records_ask_cons, answered, Effect.records_append, Effect.records_logs]
  cases outcome text <;> rfl

theorem told_answered :
    (Effect.records (.ask prompt :: answered text)).map Record.told = logged text := by
  rw [records_answered, logged, List.map_append, List.map_map]
  cases outcome text <;> rfl

/-- The session reports a line once if it has no value, and otherwise not at all. -/
theorem countP_answered :
    (Effect.records (.ask prompt :: answered text)).countP Record.isLineFailed =
      if isFailure text then 1 else 0 := by
  have hsteps : ((evaluate text).steps.map Record.reduced).countP Record.isLineFailed = 0 := by
    rw [List.countP_map]
    exact List.countP_eq_zero.mpr fun step _ => by simp [Record.isLineFailed]
  rw [records_answered, List.countP_append, hsteps, Nat.zero_add, isFailure]
  cases outcome text <;> rfl

theorem messages_answered :
    Effect.writesOn .err (.ask prompt :: answered text) = messageLine text := by
  rw [answered, messageLine, Effect.writesOn_ask_cons, Effect.writesOn_append,
    Effect.writesOn_logs]
  cases outcome text <;> simp

theorem results_answered :
    outputs (.ask prompt :: answered text) = resultLine text := by
  rw [outputs, answered, resultLine, Effect.writesOn_ask_cons, Effect.writesOn_append,
    Effect.writesOn_logs]
  cases outcome text with
  | ok value => simp [display_notMem_notices]
  | error cause => simp

end Views

theorem records_remark (prompt : Wide) (r : Reading) :
    Effect.records (.ask prompt :: remark r) = [] := by
  cases r <;> rfl

theorem messages_remark (prompt : Wide) (r : Reading) :
    Effect.writesOn .err (.ask prompt :: remark r) = [] := by
  cases r <;> rfl

theorem results_remark (prompt : Wide) (r : Reading) :
    outputs (.ask prompt :: remark r) = [] := by
  cases r <;> simp [outputs, remark, notices]

/-- The lines that a session evaluates: those that its script gives up to the reading that ends
it. -/
def linesOf (script : List Reading) : List (List Char) :=
  (script.take (script.findIdx ends)).filterMap lineOf?

/-- **The account of a session at a terminal**, in which the log, what is written and the counts
agree. What is done for each reading stands together and in order; the log tells of the lines one
by one, and at its end of the counts; the results and the messages are those of the lines; and each
count is found again in the log and in what is written. -/
structure LogAccount (prompt : Wide) (script : List Reading) (result : Result) : Prop where
  effects : result.effects =
    (script.take (script.findIdx ends)).flatMap (passage prompt) ++
      closing prompt script[script.findIdx ends]? result.tally
  log : (Effect.emitted .debug result.effects).map Record.told =
    (linesOf script).flatMap logged ++
      [(.info, "linecalc_cli",
        s!"session ended: {result.tally.evaluated} lines evaluated, {result.tally.failed} failed")]
  messages : Effect.writesOn .err result.effects = (linesOf script).flatMap messageLine
  results : outputs result.effects = (linesOf script).flatMap resultLine
  evaluated : result.tally.evaluated = (linesOf script).length
  failed_logged : result.tally.failed =
    (Effect.emitted .debug result.effects).countP Record.isLineFailed
  failed_written : result.tally.failed = (Effect.writesOn .err result.effects).length
  others_written :
    result.tally.evaluated = result.tally.failed + (outputs result.effects).length

/-! ### Counts -/

/-- What is found in each piece at most once is counted by the pieces in which it is found. -/
theorem countP_flatMap_eq {α β : Type} {p : β → Bool} {q : α → Bool} {f : α → List β}
    (h : ∀ a, (f a).countP p = if q a then 1 else 0) (l : List α) :
    (l.flatMap f).countP p = l.countP q := by
  induction l with
  | nil => rfl
  | cons a l ih => rw [List.flatMap_cons, List.countP_append, h, ih, List.countP_cons, Nat.add_comm]

theorem length_flatMap_eq {α β : Type} {q : α → Bool} {f : α → List β}
    (h : ∀ a, (f a).length = if q a then 1 else 0) (l : List α) :
    (l.flatMap f).length = l.countP q := by
  have hall : ∀ a, (f a).countP (fun _ => true) = if q a then 1 else 0 := by simpa using h
  rw [← List.countP_true, countP_flatMap_eq hall]

theorem length_messageLine (text : List Char) :
    (messageLine text).length = if isFailure text then 1 else 0 := by
  rw [messageLine, isFailure]
  cases outcome text <;> rfl

theorem length_resultLine (text : List Char) :
    (resultLine text).length = if !isFailure text then 1 else 0 := by
  rw [resultLine, isFailure]
  cases outcome text <;> rfl

theorem isCounted_eq_isSome (r : Reading) : isCounted r = (lineOf? r).isSome := by
  cases r with
  | line line => rw [isCounted, lineOf?]; split <;> simp [*]
  | interrupt => rfl
  | endOfInput => rfl

theorem isFailing_eq_isFailure (r : Reading) :
    isFailing r = ((lineOf? r).map isFailure).getD false := by
  cases r with
  | line line => rw [isFailing, lineOf?]; split <;> simp [*, isFailure]
  | interrupt => rfl
  | endOfInput => rfl

section Runs
variable (prompt : Wide) (script : List Reading)

/-- The counts of a session are those of its lines. -/
theorem tally_run :
    (run prompt (.script script) {}).tally =
      ⟨(linesOf script).length, (linesOf script).countP isFailure⟩ := by
  rw [(account_run prompt script {}).tally, foldl_countReading, linesOf,
    List.length_filterMap_eq_countP, List.countP_filterMap]
  simp only [← isCounted_eq_isSome, ← isFailing_eq_isFailure, Nat.zero_add]

theorem records_run :
    Effect.records (run prompt (.script script) {}).effects =
      (linesOf script).flatMap (fun text => Effect.records (.ask prompt :: answered text)) ++
        [.sessionEnded (run prompt (.script script) {}).tally] := by
  rw [effects_run, Effect.records_append, view_passages Effect.records_nil Effect.records_append
    (fun _ => rfl) (records_remark prompt)]
  rfl

theorem messages_run :
    Effect.writesOn .err (run prompt (.script script) {}).effects =
      (linesOf script).flatMap messageLine := by
  obtain ⟨text, -, hfarewell⟩ := farewell_eq script[script.findIdx ends]?
  rw [effects_run, Effect.writesOn_append, view_passages (Effect.writesOn_nil .err)
    (Effect.writesOn_append .err) (messages_answered prompt) (messages_remark prompt)]
  simp [closing, hfarewell, linesOf]

theorem outputs_run :
    outputs (run prompt (.script script) {}).effects = (linesOf script).flatMap resultLine := by
  obtain ⟨text, htext, hfarewell⟩ := farewell_eq script[script.findIdx ends]?
  rw [effects_run, outputs_append, view_passages rfl outputs_append (results_answered prompt)
    (results_remark prompt)]
  simp [outputs, closing, hfarewell, htext, linesOf]

/-- The log of a session reports each line without a value once. -/
theorem countP_records_run :
    (Effect.records (run prompt (.script script) {}).effects).countP Record.isLineFailed =
      (linesOf script).countP isFailure := by
  rw [records_run, List.countP_append, countP_flatMap_eq (countP_answered prompt)]
  rfl

/-- **The log accounts for every line** of a session at a terminal, whatever its script is. -/
theorem log_accounts_for_script : LogAccount prompt script (run prompt (.script script) {}) := by
  have htally := tally_run prompt script
  constructor
  · exact effects_run prompt script {}
  · rw [Effect.emitted_debug, records_run, List.map_append, List.map_flatMap]
    simp only [told_answered]
    rfl
  · exact messages_run prompt script
  · exact outputs_run prompt script
  · rw [htally]
  · rw [Effect.emitted_debug, countP_records_run, htally]
  · rw [messages_run, length_flatMap_eq length_messageLine, htally]
  · rw [outputs_run, length_flatMap_eq length_resultLine, htally]
    simpa using List.length_eq_countP_add_countP isFailure

end Runs

/-- A failing line, an interrupt and a line with a value, up to the end of input. -/
example :
    let script := ["1/0", "1+2"].map fun line => Reading.line line.toList
    let effects := (run "" (.script (script.insertIdx 1 .interrupt)) {}).effects
    (Effect.emitted .debug effects).map Record.message =
      ["evaluation of '1/0' failed: division by zero: 1 / 0",
        "line '1/0' failed: division by zero: 1 / 0", "reduced 1 + 2 -> 3",
        "session ended: 2 lines evaluated, 1 failed"] := by
  decide +kernel

end Session
end Abacus
