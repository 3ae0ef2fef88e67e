import Abacus.Program
import Abacus.Proofs.Layout
import Abacus.Proofs.SessionRun
import Abacus.Proofs.Tiling

/-!
# A line in a session and on its own

A session evaluates a line without the blanks around it, and the program evaluates an expression as
it is given. Both write a `report` of the outcome, and outcomes that agree have the same report.
What a session calls empty is what has no tokens (`tokenize_eq_end_iff`), because both know the same
blanks. `turn_agrees_with_runExpression` says what a session makes of a line in these terms.
-/
namespace Abacus

/-! ## Lines without the blanks around them -/

theorem trim_append_of_isBlank {lead trail : List Char} {c : Char}
    (hlead : ∀ d ∈ lead, Text.isBlank d = true) (hc : Text.isBlank c = false)
    (htrail : ∀ d ∈ trail, Text.isBlank d = true) : Text.trim (lead ++ c :: trail) = [c] := by
  have hdrop : (lead ++ c :: trail).dropWhile Text.isBlank = c :: trail := by
    rw [List.dropWhile_append_of_pos hlead, List.dropWhile_cons_of_neg (by simp [hc])]
  have hreverse : ∀ d ∈ trail.reverse, Text.isBlank d = true :=
    fun d hd => htrail d (List.mem_reverse.mp hd)
  rw [Text.trim, Text.cutEnds, hdrop, Text.cutEnd, List.reverse_cons,
    List.dropWhile_append_of_pos hreverse, List.dropWhile_cons_of_neg (by simp [hc])]
  rfl

theorem trim_eq_nil_iff {line : List Char} :
    Text.trim line = [] ↔ ∀ c ∈ line, Text.isBlank c = true :=
  Text.cutEnds_eq_nil_iff

/-- **The lines without tokens are the blank ones.** -/
theorem tokenize_eq_end_iff {line : List Char} :
    tokenize line = .ok [.endAt line.length] ↔ ∀ c ∈ line, Text.isBlank c = true := by
  constructor
  · intro h c hc
    obtain ⟨front, heq, -, hshared⟩ := ((Scanner.tokenize_eq_ok_iff_tiling line _).mp h).ends
    obtain ⟨rfl, -⟩ := List.append_inj' (show [] ++ [Token.endAt line.length] = _ from heq) rfl
    obtain ⟨i, hi⟩ := List.getElem?_of_mem hc
    cases hb : Text.isBlank c with
    | true => rfl
    | false =>
      obtain ⟨t, ⟨ht, -⟩, -⟩ := (hshared i c hi).1 hb
      exact absurd ht (by simp)
  · intro h
    have hnext := Scanner.next_of_reads (@Scanner.Reads.ending line 0 h)
    refine Scanner.tokenize_eq_ok_iff.mpr
      ⟨_, Scanner.lineEnd_of_known (Scanner.isKnown_of_isBlank h), ?_⟩
    rw [Scanner.ofLine, Scanner.drain_of_isLast (by rw [hnext]; rfl)]
    rfl

/-- The lines that end a session: one letter, and blanks around it. -/
theorem isQuit_trim_iff {line : List Char} :
    Session.isQuit (Text.trim line) = true ↔
      ∃ lead c trail, (∀ d ∈ lead, Text.isBlank d = true) ∧ (c = 'q' ∨ c = 'Q') ∧
        (∀ d ∈ trail, Text.isBlank d = true) ∧ line = lead ++ c :: trail := by
  simp only [Session.isQuit, Bool.or_eq_true, beq_iff_eq]
  constructor
  · intro h
    obtain ⟨lead, trail, hlead, htrail, heq⟩ := Text.exists_eq_append_cutEnds Text.isBlank line
    rw [← Text.trim] at heq
    rcases h with h | h
    · exact ⟨lead, 'q', trail, hlead, .inl rfl, htrail, by rw [h] at heq; exact heq⟩
    · exact ⟨lead, 'Q', trail, hlead, .inr rfl, htrail, by rw [h] at heq; exact heq⟩
  · rintro ⟨lead, c, trail, hlead, hc, htrail, rfl⟩
    have hblank : Text.isBlank c = false := by rcases hc with rfl | rfl <;> decide
    rw [trim_append_of_isBlank hlead hblank htrail]
    rcases hc with rfl | rfl
    · exact .inl rfl
    · exact .inr rfl

/-! ## Reports -/

/-- What is written for an outcome, and where. -/
def report : Except Failure Number → Channel × String
  | .ok value => (.out, value.display ++ "\n")
  | .error cause => (.err, cause.message ++ "\n")

theorem Agree.report_eq {r r' : Except Failure Number} (h : Agree r r') :
    report r = report r' ∧ r.isOk = r'.isOk := by
  have hmessage := h.message_eq
  cases r with
  | ok v =>
    cases r' with
    | ok v' =>
      obtain rfl : v = v' := Except.ok.inj h
      exact ⟨rfl, rfl⟩
    | error e => exact absurd h (by simp [Agree])
  | error e =>
    cases r' with
    | ok v' => exact absurd h (by simp [Agree])
    | error e' =>
      simp only [mapError_error, Except.error.injEq] at hmessage
      exact ⟨by rw [report, report, hmessage], rfl⟩

section Evaluating
variable {telling : Program.Telling} {line : List Char}

theorem evaluateOnce_of_ok {v : Number} (h : outcome line = .ok v) :
    Program.evaluateOnce telling line =
      ⟨0, ((evaluate line).steps.map .reduced).map .log ++ [.line .out v.display]⟩ := by
  rw [outcome] at h
  rw [Program.evaluateOnce, h]

theorem evaluateOnce_of_error {cause : Failure} (h : outcome line = .error cause) :
    Program.evaluateOnce telling line =
      ⟨1, ((evaluate line).steps.map .reduced).map .log ++
        [.log (telling.record cause), .line .err (telling.words cause)]⟩ := by
  rw [outcome] at h
  rw [Program.evaluateOnce, h]

end Evaluating

theorem report_runExpression (line : List Char) :
    Effect.writes (Program.runExpression line false).effects = [report (outcome line)] ∧
      (Program.runExpression line false).status = if (outcome line).isOk then 0 else 1 := by
  rw [Program.runExpression, Program.runLine, if_neg (by simp)]
  cases h : outcome line with
  | ok v =>
    rw [evaluateOnce_of_ok h, Effect.writes_append, Effect.writes_logs]
    exact ⟨rfl, rfl⟩
  | error cause =>
    rw [evaluateOnce_of_error h, Effect.writes_append, Effect.writes_logs]
    exact ⟨rfl, rfl⟩

theorem report_answer (line : List Char) :
    (if (answer line).ok then Channel.out else .err, (answer line).text ++ "\n") =
      report (outcome line) := by
  generalize hanswer : answer line = a
  simp only [answer] at hanswer
  split at hanswer
  · next v hv =>
    rw [outcome, hv, ← hanswer]
    rfl
  · next e he =>
    rw [outcome, he, ← hanswer]
    rfl

theorem written_line {line : List Char} (h : Text.trim line ≠ []) :
    Session.written (.line line) = [report (outcome (Text.trim line))] := by
  have hempty : (Text.trim line).isEmpty = false := by simpa using h
  rw [← report_answer]
  simp [Session.written, hempty]

/-! ## What a session makes of a line -/

/-- What a session makes of a line that is neither empty nor its end. -/
theorem turn_of_evaluated (tally : Tally) {line : List Char} (hne : Text.trim line ≠ [])
    (hends : Session.ends (.line line) = false) :
    Effect.writes (Session.turn tally (.line line)).effects =
        Effect.writes (Program.runExpression line false).effects ∧
      (Session.turn tally (.line line)).tally.evaluated = tally.evaluated + 1 ∧
      (Session.turn tally (.line line)).tally.failed =
        tally.failed + (Program.runExpression line false).status := by
  obtain ⟨hwrites, -, htally⟩ := Session.turn_of_continues tally hends
  obtain ⟨hreport, hstatus⟩ := report_runExpression line
  obtain ⟨hsame, hok⟩ := (agree_outcome (rearranged_trim line).said_eq).report_eq
  have hempty : (Text.trim line).isEmpty = false := by simpa using hne
  refine ⟨?_, ?_, ?_⟩
  · rw [hwrites, hreport, written_line hne, hsame]
  · simp [htally, Session.countReading, Session.isCounted, hempty]
  · rw [htally, hstatus, hok]
    cases hvalue : (outcome (Text.trim line)).isOk <;>
      simp [Session.countReading, Session.isFailing, hempty, hvalue]

/-- A session calls a line empty just when it is blank. -/
theorem turn_empty_iff (tally : Tally) (line : List Char) :
    Session.turn tally (.line line) =
        ⟨[.line .out "input is empty. input q to exit."], tally, true⟩ ↔
      Text.trim line = [] := by
  constructor
  · intro h
    by_contra hne
    have hends : Session.ends (.line line) = false := by
      simpa [h] using (Session.turn_continues tally (.line line)).symm
    have hevaluated := (turn_of_evaluated tally hne hends).2.1
    rw [h] at hevaluated
    exact absurd hevaluated (Nat.succ_ne_self _).symm
  · intro h
    simp [Session.turn, Session.lineTurn, h, Session.isQuit]

/-- **A line in a session and on its own.** A session calls a line empty just when it has no tokens
but its end, and it ends at a line just when that is a `q` of either case with blanks around it.
What it writes for any other line is what the program writes for that line as an expression, where
it writes it, and the exit status of the program is what the line adds to the failures. -/
theorem turn_agrees_with_runExpression (tally : Tally) (line : List Char) :
    let turn := Session.turn tally (.line line)
    let ending := Program.runExpression line false
    (turn = ⟨[.line .out "input is empty. input q to exit."], tally, true⟩ ↔
      tokenize line = .ok [.endAt line.length]) ∧
    (turn.continues = false ↔
      ∃ lead c trail, (∀ d ∈ lead, Text.isBlank d = true) ∧ (c = 'q' ∨ c = 'Q') ∧
        (∀ d ∈ trail, Text.isBlank d = true) ∧ line = lead ++ c :: trail) ∧
    ending.status ≤ 1 ∧
    (tokenize line ≠ .ok [.endAt line.length] → turn.continues = true →
      Effect.writes turn.effects = Effect.writes ending.effects ∧
        turn.tally.evaluated = tally.evaluated + 1 ∧
        turn.tally.failed = tally.failed + ending.status) := by
  intro turn ending
  refine ⟨?_, ?_, ?_, ?_⟩
  · rw [turn_empty_iff, tokenize_eq_end_iff, trim_eq_nil_iff]
  · rw [← isQuit_trim_iff, ← Session.ends_line, Session.turn_continues, Bool.not_eq_false']
  · rw [(report_runExpression line).2]
    split <;> omega
  · intro htokens hcontinues
    rw [ne_eq, tokenize_eq_end_iff, ← trim_eq_nil_iff] at htokens
    rw [Session.turn_continues, Bool.not_eq_true'] at hcontinues
    exact turn_of_evaluated tally htokens hcontinues

/-- A division by zero between blanks is reported as it is on its own, and counted as a failure. -/
theorem turn_agrees_with_runExpression_division :
    tokenize [' ', '1', '/', '0', '\t'] ≠ .ok [.endAt 5] ∧
      (Session.turn {} (.line [' ', '1', '/', '0', '\t'])).continues = true ∧
      Effect.writes (Session.turn {} (.line [' ', '1', '/', '0', '\t'])).effects =
        Effect.writes (Program.runExpression [' ', '1', '/', '0', '\t'] false).effects ∧
      (Session.turn {} (.line [' ', '1', '/', '0', '\t'])).tally = ⟨1, 1⟩ := by
  have htokens : tokenize [' ', '1', '/', '0', '\t'] ≠ .ok [.endAt 5] := by decide
  have hcontinues : (Session.turn {} (.line [' ', '1', '/', '0', '\t'])).continues = true := by
    decide +kernel
  obtain ⟨-, -, -, hsame⟩ := turn_agrees_with_runExpression {} [' ', '1', '/', '0', '\t']
  exact ⟨htokens, hcontinues, (hsame htokens hcontinues).1, by decide +kernel⟩

end Abacus
