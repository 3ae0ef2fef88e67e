import Abacus.Proofs.SessionLog

/-!
# Lines of output

`Text.splitLines` cuts a text into lines wherever a reader of it might see a line end, and a text is
`Unbroken` if none does. Every character that ends a line is a blank, so no message cites one, and
numbers are written without any: what answers a line is one line itself (`isLine_answer`).

`one_line_per_read` says what follows for sessions at a terminal. Each time a session asks for a
line it writes one line, on the error channel for each line without a value and on the output else.
-/
namespace Abacus

/-! ## Line breaks -/

namespace Text

/-- The characters that end a line: the line feed, the vertical tab, the form feed, the carriage
return, the separators of files, groups and records, the control "next line", and the separators of
lines and paragraphs. -/
def isLineBreak (c : Char) : Bool :=
  let n := c.toNat
  (0x0A ≤ n && n ≤ 0x0D) || (0x1C ≤ n && n ≤ 0x1E) || n == 0x85 || n == 0x2028 || n == 0x2029

/-- The lines of a text. A line feed behind a carriage return belongs to the same line end, and
behind the last line end there is no line. -/
def splitLines : List Char → List (List Char)
  | [] => []
  | '\r' :: '\n' :: rest => [] :: splitLines rest
  | c :: rest =>
    if isLineBreak c then [] :: splitLines rest
    else
      match splitLines rest with
      | [] => [[c]]
      | line :: lines => (c :: line) :: lines

/-- Every character that ends a line is a blank. -/
theorem isBlank_of_isLineBreak {c : Char} (h : isLineBreak c = true) : isBlank c = true := by
  simp only [isLineBreak, isBlank, Bool.or_eq_true, Bool.and_eq_true, decide_eq_true_eq,
    beq_iff_eq] at h ⊢
  omega

theorem splitLines_cons {c : Char} (h : isLineBreak c = false) (rest : List Char) :
    splitLines (c :: rest) =
      match splitLines rest with
      | [] => [[c]]
      | line :: lines => (c :: line) :: lines := by
  have hc : c ≠ '\r' := by
    rintro rfl
    cases h
  rw [splitLines.eq_def]
  split
  · next heq => cases heq
  · next heq => exact absurd (List.cons.inj heq).1 hc
  · next heq =>
    obtain ⟨rfl, rfl⟩ := List.cons.inj heq
    rw [if_neg (by simp [h])]

/-- A line without line breaks in it, in front of a line feed, is the first line. -/
theorem splitLines_append_feed {line : List Char} (h : ∀ c ∈ line, isLineBreak c = false)
    (rest : List Char) : splitLines (line ++ '\n' :: rest) = line :: splitLines rest := by
  induction line with
  | nil => rfl
  | cons c line ih =>
    obtain ⟨hc, hline⟩ := List.forall_mem_cons.mp h
    rw [List.cons_append, splitLines_cons hc, ih hline]

end Text

/-! ## Texts of one line -/

/-- A text in which no line ends. -/
def Unbroken (s : String) : Prop := ∀ c ∈ s.toList, Text.isLineBreak c = false

/-- A text of one line: there is something in it, and no line ends. -/
structure IsLine (s : String) : Prop where
  ne_nil : s.toList ≠ []
  unbroken : Unbroken s

/-- **Lines that are written one after the other**, each with its end, are the lines of the text. -/
theorem splitLines_join {α : Type} {line : α → String} {xs : List α}
    (h : ∀ x ∈ xs, Unbroken (line x)) :
    Text.splitLines (String.join (xs.map fun x => line x ++ "\n")).toList =
      xs.map fun x => (line x).toList := by
  induction xs with
  | nil => rfl
  | cons x xs ih =>
    obtain ⟨hx, hxs⟩ := List.forall_mem_cons.mp h
    rw [List.map_cons, String.join_cons, String.toList_append, String.toList_append,
      List.append_assoc]
    change Text.splitLines ((line x).toList ++ '\n' :: (String.join _).toList) = _
    rw [Text.splitLines_append_feed hx, ih hxs, List.map_cons]

theorem Unbroken.of_all {s : String} (h : s.toList.all (!Text.isLineBreak ·) = true) :
    Unbroken s := by
  simpa [Unbroken] using h

theorem IsLine.of_all {s : String}
    (h : (!s.toList.isEmpty && s.toList.all (!Text.isLineBreak ·)) = true) : IsLine s := by
  rw [Bool.and_eq_true] at h
  exact ⟨by simpa using h.1, .of_all h.2⟩

theorem Unbroken.append {a b : String} (ha : Unbroken a) (hb : Unbroken b) :
    Unbroken (a ++ b) := by
  rw [Unbroken, String.toList_append, List.forall_mem_append]
  exact ⟨ha, hb⟩

theorem IsLine.append {a b : String} (ha : IsLine a) (hb : Unbroken b) : IsLine (a ++ b) := by
  refine ⟨?_, ha.unbroken.append hb⟩
  rw [String.toList_append]
  exact List.append_ne_nil_of_left_ne_nil ha.ne_nil _

theorem isLineBreak_of_isNumeric {c : Char} (h : isNumeric c = true) :
    Text.isLineBreak c = false := by
  rw [isNumeric, Bool.or_eq_true] at h
  rcases h with h | h
  · rw [Bool.eq_false_iff]
    intro hbreak
    have hblank := isBlank_of_isDigit h
    rw [Text.isBlank_of_isLineBreak hbreak] at hblank
    cases hblank
  · have hall : ['-', '+', '.', 'e', 'i', 'n', 'f', 'a'].all (fun d => !Text.isLineBreak d) =
        true := by decide
    simpa using List.all_eq_true.mp hall c (by simpa using h)

theorem Unbroken.of_isNumeric {s : String} (h : ∀ c ∈ s.toList, isNumeric c = true) :
    Unbroken s :=
  fun c hc => isLineBreak_of_isNumeric (h c hc)

/-- **A result is one line.** -/
theorem Number.isLine_display (v : Number) : IsLine v.display :=
  ⟨v.toList_display_ne_nil, .of_isNumeric v.isNumeric_display⟩

/-! ## Messages -/

theorem Number.unbroken_text (v : Number) : Unbroken v.text := by
  apply Unbroken.of_isNumeric
  cases v with
  | integer n => exact fun c => isNumeric_toString_int
  | real x => exact x.isNumeric_text

theorem Operator.unbroken_text (op : Operator) : Unbroken op.text := by
  apply Unbroken.of_all
  cases op <;> decide

theorem TokenKind.unbroken_name (kind : TokenKind) : Unbroken kind.name := by
  apply Unbroken.of_all
  rcases kind with _ | _ | op
  · decide
  · decide
  · cases op <;> decide

theorem Token.unbroken_valueText (t : Token) : Unbroken t.valueText := by
  rw [Token.valueText]
  split
  · exact .of_isNumeric fun c => isNumeric_toString_int
  · exact .of_all (by decide)

theorem Token.unbroken_text (t : Token) : Unbroken t.text := by
  rw [Token.text]
  split
  · exact .of_all (by decide)
  · exact t.unbroken_valueText
  · exact Operator.unbroken_text _

theorem RangeCause.unbroken_message (cause : RangeCause) : Unbroken cause.message := by
  apply Unbroken.of_all
  cases cause <;> decide

theorem Expectation.unbroken_message (expected : Expectation) : Unbroken expected.message := by
  apply Unbroken.of_all
  cases expected <;> decide

theorem ArithmeticError.isLine_message (e : ArithmeticError) : IsLine e.message := by
  cases e with
  | unsupported kind =>
    change IsLine ("unsupported operation: " ++ kind.name)
    have hstart : IsLine "unsupported operation: " := .of_all (by decide)
    exact hstart.append kind.unbroken_name
  | divisionByZero lhs rhs =>
    change IsLine ("division by zero: " ++ lhs.text ++ " / " ++ rhs.text)
    have hstart : IsLine "division by zero: " := .of_all (by decide)
    have hslash : Unbroken " / " := .of_all (by decide)
    exact ((hstart.append lhs.unbroken_text).append hslash).append rhs.unbroken_text
  | outOfRange lhs op rhs cause =>
    change IsLine ("result out of range: " ++ lhs.text ++ " " ++ op.text ++ " " ++ rhs.text ++
      " (" ++ cause.message ++ ")")
    have hstart : IsLine "result out of range: " := .of_all (by decide)
    have hspace : Unbroken " " := .of_all (by decide)
    have hopen : Unbroken " (" := .of_all (by decide)
    have hclose : Unbroken ")" := .of_all (by decide)
    have hoperation := ((((hstart.append lhs.unbroken_text).append hspace).append
      op.unbroken_text).append hspace).append rhs.unbroken_text
    exact ((hoperation.append hopen).append cause.unbroken_message).append hclose

theorem isLine_grammar_message (expected : Expectation) (found : Token) :
    IsLine (Failure.grammar expected found).message := by
  change IsLine ("cannot parse input: " ++ found.text ++ " of type: " ++ found.kind.name ++ " " ++
    expected.message)
  have hstart : IsLine "cannot parse input: " := .of_all (by decide)
  have htype : Unbroken " of type: " := .of_all (by decide)
  have hspace : Unbroken " " := .of_all (by decide)
  have hfound := ((hstart.append found.unbroken_text).append htype).append found.kind.unbroken_name
  exact (hfound.append hspace).append expected.unbroken_message

/-- The message about a character is one line if the character ends none. -/
theorem ScanError.isLine_message {e : ScanError} (h : Text.isLineBreak e.char = false) :
    IsLine e.message := by
  change IsLine ("cannot parse input " ++ String.singleton e.char)
  have hstart : IsLine "cannot parse input " := .of_all (by decide)
  refine hstart.append ?_
  rw [Unbroken, String.toList_singleton, List.forall_mem_singleton]
  exact h

/-- A character that stops a scanner is not known. -/
theorem Scanner.isKnown_of_next {s : Scanner} {e : ScanError} (h : s.next.1 = .error e) :
    isKnown e.char = false := by
  have hread := reads_next s
  rw [h] at hread
  generalize s.next.2 = s' at hread
  cases hread with
  | unknown hb hc => exact hc

/-- **The message about a line without a value is one line**, whatever the line holds: the only
character of it that a message can cite belongs to no token and is no blank. -/
theorem isLine_message {line : List Char} {cause : Failure} (h : outcome line = .error cause) :
    IsLine cause.message := by
  cases cause with
  | scan e =>
    obtain ⟨k, hfault, -⟩ := (outcome_eq_error_iff_firstFault line _).mp h
    cases hfault with
    | scan hitem =>
      have hknown := Scanner.isKnown_of_next hitem
      apply ScanError.isLine_message
      rw [Bool.eq_false_iff]
      intro hbreak
      rw [Scanner.isKnown, Text.isBlank_of_isLineBreak hbreak] at hknown
      cases hknown
  | grammar expected found => exact isLine_grammar_message expected found
  | arithmetic e => exact e.isLine_message

namespace Session

/-- **What answers a line is one line.** -/
theorem isLine_answer (text : List Char) : IsLine (answer text).text := by
  rw [answer]
  cases h : (evaluate text).outcome with
  | ok value => exact value.isLine_display
  | error cause => exact isLine_message h

/-! ## Turns -/

/-- What is done with a reading: a line is asked for once, and one line is written. -/
structure IsTurn (prompt : Wide) (effects : List Effect) : Prop where
  prompts : Effect.prompts effects = [prompt]
  writes : ∃ channel line, Unbroken line ∧ Effect.writes effects = [(channel, line ++ "\n")]

/-- Whatever is logged, a turn is one request and one line. -/
theorem isTurn_of_line (prompt : Wide) {line : String} (h : Unbroken line) (channel : Channel)
    (before after : List Record) :
    IsTurn prompt (.ask prompt :: before.map .log ++
      .write channel (line ++ "\n") :: after.map .log) := by
  refine ⟨?_, channel, line, h, ?_⟩
  · simp [Effect.prompts]
  · simp [Effect.writes]

theorem isTurn_passage (prompt : Wide) {r : Reading} (h : ends r = false) :
    IsTurn prompt (passage prompt r) := by
  rw [passage]
  cases hline : lineOf? r with
  | some text =>
    simp only [answered]
    cases houtcome : outcome text with
    | ok value =>
      exact isTurn_of_line prompt value.isLine_display.unbroken .out
        ((evaluate text).steps.map .reduced) []
    | error cause =>
      have hturn := isTurn_of_line prompt (isLine_message houtcome).unbroken .err
        ((evaluate text).steps.map .reduced ++
          [.evaluationFailed text cause, .lineFailed text cause]) []
      simpa using hturn
  | none =>
    cases r with
    | line line =>
      have hremark : Unbroken "input is empty. input q to exit." := .of_all (by decide)
      exact isTurn_of_line prompt hremark .out [] []
    | interrupt =>
      have hremark : Unbroken "^C" := .of_all (by decide)
      exact isTurn_of_line prompt hremark .out [] []
    | endOfInput => cases h

theorem isTurn_closing (prompt : Wide) (last : Option Reading) (tally : Tally) :
    IsTurn prompt (closing prompt last tally) := by
  have hexit : Unbroken "exiting..." := .of_all (by decide)
  have hend : Unbroken "" := .of_all (by decide)
  rw [closing, farewell.eq_def]
  split
  · exact isTurn_of_line prompt hexit .out [] [.sessionEnded tally]
  · exact isTurn_of_line prompt hend .out [] [.sessionEnded tally]

/-- **A session at a terminal is one turn after the other.** -/
theorem turns_run (prompt : Wide) (script : List Reading) (tally : Tally) :
    ∃ turns : List (List Effect), (run prompt (.script script) tally).effects = turns.flatten ∧
      ∀ turn ∈ turns, IsTurn prompt turn := by
  refine ⟨(script.take (script.findIdx ends)).map (passage prompt) ++
    [closing prompt script[script.findIdx ends]? (run prompt (.script script) tally).tally],
    ?_, ?_⟩
  · rw [effects_run, List.flatten_append, List.flatMap_def, List.flatten_singleton]
  · rw [List.forall_mem_append, List.forall_mem_singleton, List.forall_mem_map]
    refine ⟨fun r hr => isTurn_passage prompt ?_, isTurn_closing _ _ _⟩
    obtain ⟨i, hi, rfl⟩ := List.mem_take_iff_getElem.mp hr
    exact List.not_of_lt_findIdx (by omega)

/-! ## Lines on a channel -/

/-- The lines that effects write to a channel. -/
def linesOn (channel : Channel) (effects : List Effect) : List (List Char) :=
  Text.splitLines (String.join (Effect.writesOn channel effects)).toList

/-- What is seen once of every turn is seen as often as there are turns. -/
theorem length_view_turns {α : Type} {view : List Effect → List α} (hnil : view [] = [])
    (happend : ∀ a b, view (a ++ b) = view a ++ view b) {turns : List (List Effect)}
    (h : ∀ turn ∈ turns, (view turn).length = 1) : (view turns.flatten).length = turns.length := by
  induction turns with
  | nil => rw [List.flatten_nil, hnil]; rfl
  | cons turn turns ih =>
    obtain ⟨hturn, hrest⟩ := List.forall_mem_cons.mp h
    rw [List.flatten_cons, happend, List.length_append, hturn, ih hrest, List.length_cons,
      Nat.add_comm]

/-- Whatever turns write is a line and its end. -/
theorem exists_line_of_mem_writes {prompt : Wide} {turns : List (List Effect)}
    (h : ∀ turn ∈ turns, IsTurn prompt turn) {w : Channel × String}
    (hw : w ∈ Effect.writes turns.flatten) : ∃ line, Unbroken line ∧ w.2 = line ++ "\n" := by
  induction turns with
  | nil => cases hw
  | cons turn turns ih =>
    obtain ⟨hturn, hrest⟩ := List.forall_mem_cons.mp h
    rw [List.flatten_cons, Effect.writes_append, List.mem_append] at hw
    rcases hw with hw | hw
    · obtain ⟨channel, line, hline, hwrites⟩ := hturn.writes
      rw [hwrites, List.mem_singleton] at hw
      exact ⟨line, hline, by rw [hw]⟩
    · exact ih hrest hw

/-- Texts that are each a line and its end have as many lines as there are texts. -/
theorem length_splitLines_join {texts : List String}
    (h : ∀ text ∈ texts, ∃ line, Unbroken line ∧ text = line ++ "\n") :
    (Text.splitLines (String.join texts).toList).length = texts.length := by
  choose! line hline htext using h
  have hmap : texts = texts.map fun text => line text ++ "\n" := by
    conv_lhs => rw [← List.map_id' texts]
    exact List.map_congr_left htext
  rw [hmap, splitLines_join (fun text htext => hline text htext), List.length_map, List.length_map]

theorem length_writesOn_add (effects : List Effect) :
    (Effect.writesOn .out effects).length + (Effect.writesOn .err effects).length =
      (Effect.writes effects).length := by
  simp only [Effect.writesOn]
  induction Effect.writes effects with
  | nil => rfl
  | cons w writes ih =>
    obtain ⟨channel, text⟩ := w
    cases channel <;> simp <;> omega

/-- **The lines of turns on a channel are what they write there**, one line each. -/
theorem length_linesOn {prompt : Wide} {turns : List (List Effect)}
    (h : ∀ turn ∈ turns, IsTurn prompt turn) (channel : Channel) :
    (linesOn channel turns.flatten).length = (Effect.writesOn channel turns.flatten).length := by
  apply length_splitLines_join
  intro text htext
  obtain ⟨w, hw, hchannel⟩ := List.mem_filterMap.mp htext
  obtain ⟨line, hline, heq⟩ := exists_line_of_mem_writes h hw
  refine ⟨line, hline, ?_⟩
  split at hchannel
  · rw [← Option.some.inj hchannel, heq]
  · cases hchannel

/-- **One line of output for every line asked for.** What answers a line is not empty and holds no
character that ends a line, whatever the line holds. So a session at a terminal is one turn after
the other, each of which asks once and writes one line; the lines on the error channel are as many
as the lines without a value, and all lines together as many as the readings. -/
theorem one_line_per_read :
    (∀ text : List Char, (answer text).text.toList ≠ [] ∧
      ∀ c ∈ (answer text).text.toList, Text.isLineBreak c = false) ∧
    ∀ (prompt : Wide) (script : List Reading),
      let result := run prompt (.script script) {}
      (∃ turns : List (List Effect), result.effects = turns.flatten ∧
        ∀ turn ∈ turns, IsTurn prompt turn) ∧
      (linesOn .err result.effects).length = result.tally.failed ∧
      (linesOn .out result.effects).length + (linesOn .err result.effects).length =
        (Effect.prompts result.effects).length := by
  refine ⟨fun text => ⟨(isLine_answer text).ne_nil, (isLine_answer text).unbroken⟩, ?_⟩
  intro prompt script result
  obtain ⟨turns, hflatten, hturns⟩ := turns_run prompt script {}
  refine ⟨⟨turns, hflatten, hturns⟩, ?_, ?_⟩
  · rw [hflatten, length_linesOn hturns, ← hflatten, messages_run,
      length_flatMap_eq length_messageLine, tally_run]
  · have hwrites := length_view_turns Effect.writes_nil Effect.writes_append
      (fun turn hturn => by obtain ⟨-, channel, line, -, h⟩ := hturns turn hturn; rw [h]; rfl)
    have hprompts := length_view_turns Effect.prompts_nil Effect.prompts_append
      (fun turn hturn => by rw [(hturns turn hturn).prompts]; rfl)
    rw [hflatten, length_linesOn hturns, length_linesOn hturns, length_writesOn_add, hwrites,
      hprompts]

end Session
end Abacus
