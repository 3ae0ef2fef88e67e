import Abacus.Proofs.SessionRun
import Mathlib.Data.List.DropRight

/-!
# A stream as a script

A stream is a script in disguise. `lines` cuts a text at its line feeds with the list library, and
two sources are `Alike` when they give the same readings for ever. A stream is alike to the script
of its lines (`alike_lines`), and a session depends on the readings only (`run_of_alike`), so that
what holds of a session at a terminal holds of one with piped input (`stream_refines_script`).
-/
namespace Abacus

namespace LineSource

/-! ## The lines of a text -/

/-- The pieces of a text between its line feeds. Behind a line feed at the end there is none. -/
def pieces (text : List Char) : List (List Char) :=
  let split := text.splitOn '\n'
  if split.getLast? = some [] then split.dropLast else split

/-- The lines of a text: its pieces without the carriage returns at their ends. -/
def lines (text : List Char) : List (List Char) :=
  (pieces text).map (List.rdropWhile (· == '\r'))

/-- The text behind a number of line feeds, or nothing if it has fewer. -/
def behindFeeds : ℕ → List Char → List Char
  | 0, text => text
  | _ + 1, [] => []
  | n + 1, c :: cs => if c = '\n' then behindFeeds n cs else behindFeeds (n + 1) cs

/-- Induction along the lines of a text: the last one may lack its line feed. -/
@[elab_as_elim] theorem textInduction {P : List Char → Prop} (nil : P [])
    (last : ∀ piece, piece ≠ [] → '\n' ∉ piece → P piece)
    (line : ∀ piece rest, '\n' ∉ piece → P rest → P (piece ++ '\n' :: rest))
    (text : List Char) : P text := by
  induction hn : text.length using Nat.strong_induction_on generalizing text with
  | _ n ih =>
    by_cases hfeed : '\n' ∈ text
    · obtain ⟨piece, rest, rfl, hpiece⟩ := List.eq_append_cons_of_mem hfeed
      apply line piece rest hpiece
      apply ih rest.length _ rest rfl
      simp only [List.length_append, List.length_cons] at hn
      omega
    · cases text with
      | nil => exact nil
      | cons c cs => exact last (c :: cs) (List.cons_ne_nil c cs) hfeed

theorem lines_of_not_mem {piece : List Char} (hne : piece ≠ []) (h : '\n' ∉ piece) :
    lines piece = [dropReturns piece] := by
  have hpieces : pieces piece = [piece] := by
    rw [pieces, List.splitOn_eq_singleton h]
    simp [hne]
  rw [lines, hpieces]
  rfl

theorem lines_append_cons {piece : List Char} (h : '\n' ∉ piece) (rest : List Char) :
    lines (piece ++ '\n' :: rest) = dropReturns piece :: lines rest := by
  have hpieces : pieces (piece ++ '\n' :: rest) = piece :: pieces rest := by
    obtain ⟨first, others, hsplit⟩ := List.exists_cons_of_ne_nil (List.splitOn_ne_nil '\n' rest)
    rw [pieces, pieces, List.splitOn_append_cons_self_of_not_mem h, hsplit]
    simp only [List.getLast?_cons_cons, List.dropLast_cons_cons]
    split <;> rfl
  rw [lines, lines, hpieces]
  rfl

theorem behindFeeds_of_not_mem {piece : List Char} (h : '\n' ∉ piece) (n : ℕ) :
    behindFeeds (n + 1) piece = [] := by
  induction piece with
  | nil => rfl
  | cons c cs ih =>
    rw [List.mem_cons, not_or] at h
    rw [behindFeeds, if_neg (Ne.symm h.1), ih h.2]

theorem behindFeeds_append_cons {piece : List Char} (h : '\n' ∉ piece) (rest : List Char) (n : ℕ) :
    behindFeeds (n + 1) (piece ++ '\n' :: rest) = behindFeeds n rest := by
  induction piece with
  | nil => rw [List.nil_append, behindFeeds, if_pos rfl]
  | cons c cs ih =>
    rw [List.mem_cons, not_or] at h
    rw [List.cons_append, behindFeeds, if_neg (Ne.symm h.1), ih h.2]

/-! ## One request to a stream -/

theorem takeWhile_feed {piece : List Char} (h : '\n' ∉ piece) :
    ∀ c ∈ piece, (c != '\n') = true := by
  rintro c hc
  rw [bne_iff_ne]
  rintro rfl
  exact h hc

theorem read_of_not_mem {piece : List Char} (hne : piece ≠ []) (h : '\n' ∉ piece) :
    (stream piece).read = (.line (dropReturns piece), stream []) := by
  obtain ⟨c, cs, rfl⟩ := List.exists_cons_of_ne_nil hne
  have hall := takeWhile_feed h
  rw [read, firstLine, afterLine, List.takeWhile_eq_self_iff.mpr hall,
    List.dropWhile_eq_nil_iff.mpr hall]
  rfl

theorem read_append_cons {piece : List Char} (h : '\n' ∉ piece) (rest : List Char) :
    (stream (piece ++ '\n' :: rest)).read = (.line (dropReturns piece), stream rest) := by
  have hall := takeWhile_feed h
  obtain ⟨c, cs, htext⟩ := List.exists_cons_of_ne_nil
    (show piece ++ '\n' :: rest ≠ [] by simp)
  rw [htext, read, ← htext, firstLine, afterLine, List.takeWhile_append_of_pos hall,
    List.dropWhile_append_of_pos hall]
  simp

/-! ## Sources that give the same readings -/

/-- The source behind a number of requests. -/
def after : ℕ → LineSource → LineSource
  | 0, source => source
  | n + 1, source => after n source.read.2

/-- Two sources give the same readings for ever. -/
def Alike (a b : LineSource) : Prop := ∀ n, readMany n a = readMany n b

theorem Alike.read {a b : LineSource} (h : Alike a b) :
    a.read.1 = b.read.1 ∧ Alike a.read.2 b.read.2 := by
  constructor
  · exact List.head_eq_of_cons_eq (h 1)
  · exact fun n => List.tail_eq_of_cons_eq (h (n + 1))

theorem alike_of_read {a b : LineSource} (hread : a.read.1 = b.read.1)
    (h : Alike a.read.2 b.read.2) : Alike a b := by
  intro n
  cases n with
  | zero => rfl
  | succ n => rw [readMany, readMany, hread, h n]

theorem readMany_used {source : LineSource} (h : source.read = (.endOfInput, source)) (n : ℕ) :
    readMany n source = List.replicate n .endOfInput := by
  induction n with
  | zero => rfl
  | succ n ih => rw [readMany, h, ih, List.replicate_succ]

theorem readMany_script (readings : List Reading) (n : ℕ) :
    readMany (readings.length + n) (script readings) =
      readings ++ List.replicate n .endOfInput := by
  induction readings with
  | nil =>
    rw [List.length_nil, Nat.zero_add, List.nil_append]
    exact readMany_used rfl n
  | cons r readings ih =>
    rw [List.length_cons, Nat.add_right_comm, readMany, List.cons_append]
    exact congrArg (r :: ·) ih

/-- **A stream gives the readings of the script of its lines.** -/
theorem alike_lines (text : List Char) :
    Alike (stream text) (script ((lines text).map .line)) := by
  have hend : Alike (stream []) (script []) := by
    intro n
    rw [readMany_used rfl, readMany_used rfl]
  induction text using textInduction with
  | nil => exact hend
  | last piece hne hpiece =>
    have hread := read_of_not_mem hne hpiece
    rw [lines_of_not_mem hne hpiece]
    apply alike_of_read
    · rw [hread]
      rfl
    · rw [hread]
      exact hend
  | line piece rest hpiece ih =>
    have hread := read_append_cons hpiece rest
    rw [lines_append_cons hpiece]
    apply alike_of_read
    · rw [hread]
      rfl
    · rw [hread]
      exact ih

theorem readMany_stream (text : List Char) (n : ℕ) :
    readMany ((lines text).length + n) (stream text) =
      (lines text).map .line ++ List.replicate n .endOfInput := by
  rw [alike_lines text, ← readMany_script, List.length_map]

theorem after_used (n : ℕ) : after n (stream []) = stream [] := by
  induction n with
  | zero => rfl
  | succ n ih => exact ih

/-- **What a stream holds behind a number of requests** is what follows as many line feeds. -/
theorem after_stream (n : ℕ) (text : List Char) :
    after n (stream text) = stream (behindFeeds n text) := by
  induction text using textInduction generalizing n with
  | nil =>
    rw [after_used]
    cases n <;> rfl
  | last piece hne hpiece =>
    cases n with
    | zero => rw [after, behindFeeds]
    | succ n => rw [after, read_of_not_mem hne hpiece, after_used, behindFeeds_of_not_mem hpiece]
  | line piece rest hpiece ih =>
    cases n with
    | zero => rw [after, behindFeeds]
    | succ n => rw [after, read_append_cons hpiece, ih, behindFeeds_append_cons hpiece]

/-! ## Lines written out -/

/-- How a line may end. -/
inductive LineEnd
  | feed
  | returnFeed

/-- The characters of a line end. -/
def LineEnd.text : LineEnd → List Char
  | feed => ['\n']
  | returnFeed => ['\r', '\n']

/-- Lines written one behind the other, each with its end. -/
def writeOut (written : List (List Char × LineEnd)) : List Char :=
  written.flatMap fun line => line.1 ++ line.2.text

theorem dropReturns_of_getLast? {line : List Char} (h : line.getLast? ≠ some '\r') :
    dropReturns line = line := by
  apply List.rdropWhile_eq_self_iff.mpr
  intro hne
  rw [List.getLast?_eq_some_getLast hne] at h
  simpa using h

theorem dropReturns_append_return {line : List Char} (h : line.getLast? ≠ some '\r') :
    dropReturns (line ++ ['\r']) = line := by
  have hdrop : dropReturns (line ++ ['\r']) = dropReturns line :=
    List.rdropWhile_concat_pos (· == '\r') line '\r' rfl
  rw [hdrop, dropReturns_of_getLast? h]

/-- **Lines that are written out are read back**, if no line holds a line feed or ends in a carriage
return. -/
theorem lines_writeOut {written : List (List Char × LineEnd)}
    (h : ∀ line ∈ written, '\n' ∉ line.1 ∧ line.1.getLast? ≠ some '\r') :
    lines (writeOut written) = written.map Prod.fst := by
  induction written with
  | nil => rfl
  | cons line written ih =>
    obtain ⟨⟨hfeed, hreturn⟩, hrest⟩ := List.forall_mem_cons.mp h
    obtain ⟨text, lineEnd⟩ := line
    have htail := ih hrest
    rw [List.map_cons, ← htail]
    cases lineEnd with
    | feed =>
      have hwritten : writeOut ((text, .feed) :: written) = text ++ '\n' :: writeOut written := by
        simp [writeOut, LineEnd.text]
      rw [hwritten, lines_append_cons hfeed, dropReturns_of_getLast? hreturn]
    | returnFeed =>
      have hwritten : writeOut ((text, .returnFeed) :: written) =
          (text ++ ['\r']) ++ '\n' :: writeOut written := by
        simp [writeOut, LineEnd.text]
      have hpiece : '\n' ∉ text ++ ['\r'] := by simpa using hfeed
      rw [hwritten, lines_append_cons hpiece, dropReturns_append_return hreturn]

end LineSource

namespace Session

open LineSource

/-! ## Sessions over alike sources -/

/-- **A session depends on the readings only**: by induction on the script that the source is alike
to, one turn at a time. The session leaves the source behind the reading that ended it. -/
theorem run_of_alike {prompt : Wide} {source : LineSource} {script : List Reading}
    (h : Alike source (.script script)) (tally : Tally) :
    run prompt source tally =
      { run prompt (.script script) tally with
        source := source.after (script.findIdx ends + 1) } := by
  induction script generalizing source tally with
  | nil =>
    have hread : source.read.1 = .endOfInput := h.read.1
    have hends : ends source.read.1 = true := by rw [hread]; rfl
    rw [run_of_ends hends, @run_of_ends prompt (.script []) tally rfl, hread]
    rfl
  | cons r script ih =>
    obtain ⟨hread, hrest⟩ := h.read
    change source.read.1 = r at hread
    cases hr : ends r with
    | true =>
      rw [run_of_ends (hread ▸ hr), @run_of_ends prompt (.script (r :: script)) tally hr, hread,
        List.findIdx_cons, hr]
      rfl
    | false =>
      rw [run_of_continues (hread ▸ hr), @run_of_continues prompt (.script (r :: script)) tally hr,
        hread, ih hrest, List.findIdx_cons, hr]
      rfl

/-- **Piped input is a script.** A stream gives the lines of its text in order, then the end of
input for ever, and holds what follows the line feeds read. A session over the stream does and
counts what one over the script of the lines does, and leaves the text behind the line that ended
it. Lines written out with line ends of either kind are read back. -/
theorem stream_refines_script (text : List Char) :
    (∀ n, readMany ((lines text).length + n) (.stream text) =
        (lines text).map .line ++ List.replicate n .endOfInput) ∧
    (∀ n, after n (.stream text) = .stream (behindFeeds n text)) ∧
    (∀ prompt tally,
      let script := (lines text).map Reading.line
      let piped := run prompt (.stream text) tally
      let typed := run prompt (.script script) tally
      piped.effects = typed.effects ∧ piped.tally = typed.tally ∧
        piped.source = .stream (behindFeeds (script.findIdx ends + 1) text)) ∧
    ∀ written : List (List Char × LineEnd),
      (∀ line ∈ written, '\n' ∉ line.1 ∧ line.1.getLast? ≠ some '\r') →
      ∀ n, readMany (written.length + n) (.stream (writeOut written)) =
        written.map (fun line => .line line.1) ++ List.replicate n .endOfInput := by
  refine ⟨readMany_stream text, fun n => after_stream n text, ?_, ?_⟩
  · intro prompt tally script piped typed
    have hrun : piped = { typed with source := _ } := run_of_alike (alike_lines text) tally
    rw [hrun, after_stream]
    exact ⟨rfl, rfl, rfl⟩
  · intro written h n
    have hread := readMany_stream (writeOut written) n
    rw [lines_writeOut h, List.length_map, List.map_map] at hread
    exact hread

/-- A carriage return within a line stays, and an empty line is no end of input. -/
theorem stream_reads_mixed_ends :
    let written : List (List Char × LineEnd) :=
      [(['1', '\r', '2'], .returnFeed), ([], .returnFeed), (['q'], .feed)]
    (∀ line ∈ written, '\n' ∉ line.1 ∧ line.1.getLast? ≠ some '\r') ∧
      readMany 5 (.stream ['1', '\r', '2', '\r', '\n', '\r', '\n', 'q', '\n']) =
        [.line ['1', '\r', '2'], .line [], .line ['q'], .endOfInput, .endOfInput] := by
  intro written
  have h : ∀ line ∈ written, '\n' ∉ line.1 ∧ line.1.getLast? ≠ some '\r' := by decide
  exact ⟨h, (stream_refines_script []).2.2.2 written h 2⟩

end Session
end Abacus
