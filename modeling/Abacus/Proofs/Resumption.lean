import Abacus.Proofs.Offsets
import Abacus.Proofs.Places
import Abacus.Proofs.StoppingPlace

/-!
# Evaluating from the middle of a line

A scanner may stand anywhere in a line when it is handed to an evaluation. `finish_shift` says that
only the places tell where it stood: the same text further right is evaluated in the same way.
`Leaves` says where an evaluation leaves the offset, by its outcome, and that whatever is read next
is read from there on. `evaluateFrom_middle` is both for every offset of every line, so that after a
failure the rest of a line can be evaluated by the same law.
-/
namespace Abacus
open Scanner (On tokenEnd offsetBehind)

/-! ## The same text further right -/

theorem Scanner.skip_shift (d : ℕ) (s : Scanner) (n : ℕ) :
    (s.shift d).skip n = (s.skip n).shift d := by
  induction n generalizing s with
  | zero => rfl
  | succ n ih => rw [skip_succ, next_shift, ih, skip_succ]

/-- **Further right the same text is evaluated in the same way**: the outcome cites places further
right, the reductions are the same, and the scanner stops as much further right. -/
theorem Progress.finish_shift (p : Progress) (d : ℕ) (s : Scanner) :
    (p.finish (s.shift d)).outcome =
        (p.finish s).outcome.mapError (Failure.relocate (· + d)) ∧
      (p.finish (s.shift d)).steps = (p.finish s).steps ∧
      (p.finish (s.shift d)).scanner = (p.finish s).scanner.shift d := by
  obtain ⟨houtcome, hsteps, hscanner⟩ := p.finish_course s
  obtain ⟨houtcome', hsteps', hscanner'⟩ := p.finish_course (s.shift d)
  rw [Scanner.items_shift, course_relocate] at houtcome' hsteps' hscanner'
  simp only [Course.relocate, houtcome, Option.map_some, Option.some.injEq] at houtcome'
  refine ⟨houtcome'.symm, hsteps'.symm.trans hsteps, ?_⟩
  rw [hscanner', hscanner, Scanner.skip_shift]
  simp only [Course.relocate, List.length_map]

/-! ## Offsets of a line -/

/-- The scanner that stands in a line at an offset. -/
def Scanner.standing (line : List Char) (pos : ℕ) : Scanner := ⟨line.drop pos, pos⟩

namespace Scanner

theorem on_standing {line : List Char} {pos : ℕ} (h : pos ≤ line.length) :
    On line (standing line pos) := ⟨rfl, h⟩

theorem On.eq_standing {line : List Char} {s : Scanner} (h : On line s) :
    s = standing line s.pos := by
  obtain ⟨rest, pos⟩ := s
  exact congrArg (Scanner.mk · pos) h.rest_eq

theorem shift_ofLine_drop (line : List Char) (pos : ℕ) :
    (ofLine (line.drop pos)).shift pos = standing line pos := by
  simp [ofLine, shift, standing]

theorem item_skip (s : Scanner) (k n : ℕ) : (s.skip k).item n = s.item (k + n) := by
  rw [item, skip_skip, item]

end Scanner

/-- Where an evaluation from a scanner in a line leaves the offset: at the end of the line behind a
value, at the offending character, behind the token that a failure cites, or behind the right
operand of the pair that has no result. What is read next is read from there: nothing behind the
item that settled the outcome is left out, and nothing before it is read again. -/
structure Leaves (line : List Char) (s : Scanner) (e : Evaluation) : Prop where
  value : ∀ v, e.outcome = .ok v → e.scanner.pos = line.length
  scan : ∀ err, e.outcome = .error (.scan err) → e.scanner.pos = err.pos
  grammar : ∀ expected found, e.outcome = .error (.grammar expected found) →
    e.scanner.pos = tokenEnd line found ∧
      (found.kind = .endOfInput → e.scanner.pos = line.length)
  arithmetic : ∀ err, e.outcome = .error (.arithmetic err) →
    ∃ acc op operand n, runningResult s.item e.steps.length = some acc ∧
      Scanner.operatorOf (s.item (2 * e.steps.length + 1)) = some op ∧
      s.item (2 * e.steps.length + 2) = .ok operand ∧ operand.expectInteger = .ok n ∧
      acc.apply (.operator op) (.integer n) = .error err ∧ e.scanner.pos = tokenEnd line operand
  resumes : e.scanner.pos ≤ line.length ∧ e.scanner = .standing line e.scanner.pos ∧
    ∃ k, SettledAt s.item k e.outcome ∧ ∀ n, e.scanner.item n = s.item (k + 1 + n)

/-- **Where an evaluation leaves the offset**, for every scanner in a line. -/
theorem Scanner.On.leaves {line : List Char} {s : Scanner} (hon : On line s) :
    Leaves line s (evaluateFrom s) := by
  obtain ⟨k, hsettled, -, hsteps, hscanner⟩ := exists_stop_evaluateFrom s
  have hpos : (evaluateFrom s).scanner.pos = offsetBehind line (some (s.item k)) := by
    rw [hscanner, ← Scanner.next_skip]
    exact (hon.skip k).next.2.1
  have hbehind : On line (evaluateFrom s).scanner := hscanner ▸ hon.skip (k + 1)
  constructor
  · intro v hv
    rw [hv] at hsettled
    obtain ⟨-, -, t, hitem, hkind⟩ := hsettled.1
    rw [hpos, hitem, offsetBehind, tokenEnd, hkind]
  · intro err herr
    rw [herr] at hsettled
    cases hsettled.1 with
    | scan hitem => rw [hpos, hitem, offsetBehind]
  · intro expected found hfound
    rw [hfound] at hsettled
    have hitem : s.item k = .ok found := by
      cases hsettled.1 with
      | notInteger heven hitem hkind => exact hitem
      | notOperator hodd hitem hkind => exact hitem
    refine ⟨by rw [hpos, hitem, offsetBehind], fun hkind => ?_⟩
    rw [hpos, hitem, offsetBehind, tokenEnd, hkind]
  · intro err herr
    rw [herr] at hsettled
    cases hsettled.1 with
    | @arithmetic j acc op n _ hk hacc hop hn hrefused =>
      obtain ⟨operand, hitem, hkind, hvalue⟩ := integerOf_eq_some_iff.mp hn
      have hlength : (evaluateFrom s).steps.length = j := by
        rw [length_of_map_some hsteps, pairsBefore, hk]
        omega
      rw [hlength]
      refine ⟨acc, op, operand, n, hacc, hop, hk ▸ hitem,
        expectInteger_eq_ok_iff.mpr ⟨hkind, hvalue⟩, hrefused, ?_⟩
      rw [hpos, hitem, offsetBehind]
  · refine ⟨hbehind.pos_le, hbehind.eq_standing, k, hsettled, fun n => ?_⟩
    rw [hscanner, Scanner.item_skip]

/-- **Evaluating from the middle of a line** is evaluating the rest of it: the same value, or the
same failure with the same message at the place so much further right. It leaves the offset behind
the last token read, from where the line can be evaluated on. -/
theorem evaluateFrom_middle (line : List Char) {pos : ℕ} (hpos : pos ≤ line.length) :
    let e := evaluateFrom (.standing line pos)
    e.outcome = (outcome (line.drop pos)).mapError (Failure.relocate (· + pos)) ∧
      e.outcome.mapError Failure.message = (outcome (line.drop pos)).mapError Failure.message ∧
      Leaves line (.standing line pos) e := by
  intro e
  have houtcome : e.outcome = (outcome (line.drop pos)).mapError (Failure.relocate (· + pos)) := by
    have hshift := (Progress.start.finish_shift pos (.ofLine (line.drop pos))).1
    rwa [Scanner.shift_ofLine_drop] at hshift
  refine ⟨houtcome, ?_, (Scanner.on_standing hpos).leaves⟩
  rw [houtcome]
  cases outcome (line.drop pos) with
  | ok v => rfl
  | error f => simp

/-- A line in which an evaluation from the middle divides by zero. -/
def lineWithDivision : List Char := ['9', '+', '1', '/', '0', ' ', '4', '*', '5', ' ']

/-- Behind the division by zero in the middle of a line the rest has a value. -/
theorem evaluateFrom_middle_twice :
    let e := evaluateFrom (.standing lineWithDivision 2)
    2 ≤ lineWithDivision.length ∧
      e.outcome = .error (.arithmetic (.divisionByZero (.integer 1) (.integer 0))) ∧
      e.scanner = .standing lineWithDivision 5 ∧
      (evaluateFrom e.scanner).outcome = .ok (.integer 20) ∧
      (evaluateFrom e.scanner).scanner.pos = lineWithDivision.length := by
  intro e
  have hfirst : 2 ≤ lineWithDivision.length := by decide
  have hsecond : 5 ≤ lineWithDivision.length := by decide
  obtain ⟨houtcome, -, hleaves⟩ := evaluateFrom_middle lineWithDivision hfirst
  obtain ⟨hagain, -, hleaves'⟩ := evaluateFrom_middle lineWithDivision hsecond
  have hrest : outcome (lineWithDivision.drop 2) =
      .error (.arithmetic (.divisionByZero (.integer 1) (.integer 0))) := by decide +kernel
  have hvalue : outcome (lineWithDivision.drop 5) = .ok (.integer 20) := by decide +kernel
  have hstop : e.scanner = .standing lineWithDivision 5 := by
    rw [hleaves.resumes.2.1]
    decide +kernel
  rw [hvalue] at hagain
  rw [hstop]
  exact ⟨hfirst, by rw [houtcome, hrest]; rfl, rfl, hagain, hleaves'.value _ hagain⟩

end Abacus
