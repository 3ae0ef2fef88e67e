import Abacus.Proofs.FirstFault
import Abacus.Proofs.LeftFold
import Abacus.Proofs.Nearest

/-!
# Failures that more text can mend

Text behind a line leaves what has been read of it as it is, unless the end of the line was read or
the text lengthens the run of digits that the line ends in: `skip_extend` says so of a scanner and
`along_congr` of an evaluation. So a failure that does not cite the end of the line stays there.
One that does can be mended, because from every place in a line an evaluation can be completed
(`exists_completes`): every running result has an operand that its operator takes.
-/
namespace Abacus
open Scanner (Item)

/-- Whether a failure cites the end of the line. -/
def Failure.citesEnd : Failure → Bool
  | grammar _ found => found.isEnd
  | _ => false

/-- No run of digits goes on from a line into the text behind it. -/
def Separate (line more : List Char) : Prop :=
  (∀ c ∈ line.getLast?, c.isDigit = false) ∨ ∀ c ∈ more.head?, c.isDigit = false

theorem Separate.of_suffix {line line' more : List Char} (h : Separate line more)
    (hsuffix : line' <:+ line) : Separate line' more := by
  obtain ⟨front, rfl⟩ := hsuffix
  refine h.imp_left fun hlast c hc => ?_
  exact hlast c (by rw [List.getLast?_append, Option.mem_def.mp hc]; rfl)

/-- Behind a digit, text that is separate has no digit in front. -/
theorem Separate.takeWhile_eq_nil {front digits more : List Char} (hne : digits ≠ [])
    (hd : ∀ c ∈ digits, c.isDigit = true) (h : Separate (front ++ digits) more) :
    more.takeWhile Char.isDigit = [] := by
  rcases h with hlast | hhead
  · have hlook := List.getLast?_eq_some_getLast hne
    have hdigit := hd _ (List.getLast_mem hne)
    rw [hlast (digits.getLast hne) (by rw [List.getLast?_append, hlook]; rfl)] at hdigit
    exact absurd hdigit (by decide)
  · cases more with
    | nil => rfl
    | cons c more => simp [hhead c rfl]

/-- Text without a digit in front is separate from every line. -/
theorem Separate.of_takeWhile_eq_nil {line more : List Char}
    (h : more.takeWhile Char.isDigit = []) : Separate line more := by
  refine .inr fun c hc => ?_
  cases more with
  | nil => exact absurd hc (by simp)
  | cons d more =>
    obtain rfl : d = c := by simpa using hc
    simpa using h

namespace Scanner

/-! ## Text behind a scanner -/

/-- The scanner that has more text behind its rest. -/
def extend (s : Scanner) (more : List Char) : Scanner := ⟨s.rest ++ more, s.pos⟩

/-- Whether an item is the end of the line. -/
def isEnding : Item → Bool
  | .ok t => t.isEnd
  | .error _ => false

theorem rest_next_suffix (s : Scanner) : s.next.2.rest <:+ s.rest := by
  have hread := reads_next s
  rcases hnext : s.next with ⟨item, s'⟩
  rw [hnext] at hread
  cases hread with
  | ending hb => exact List.nil_suffix
  | @operator blanks tail pos op hb => exact ⟨blanks ++ [op.toChar], by simp⟩
  | @literal blanks digits tail pos hb hne hd ht => exact ⟨blanks ++ digits, by simp⟩
  | @unknown blanks tail c pos hb hc => exact ⟨blanks, rfl⟩

/-- **What has been read stays** when there is more text, as long as it is not the end of the line
and no run of digits goes on. -/
theorem next_extend {s : Scanner} {more : List Char} (hseparate : Separate s.rest more)
    (hitem : isEnding s.next.1 = false) :
    (s.extend more).next = (s.next.1, s.next.2.extend more) := by
  have hread := reads_next s
  rcases hnext : s.next with ⟨item, s'⟩
  rw [hnext] at hitem hread
  apply next_of_reads
  cases hread with
  | ending hb => exact absurd hitem (by simp [isEnding])
  | operator op hb =>
    simp only [extend, List.append_assoc, List.cons_append]
    exact Reads.operator op hb
  | @literal blanks digits tail pos hb hne hd ht =>
    simp only [extend, List.append_assoc]
    refine Reads.literal hb hne hd ?_
    cases tail with
    | cons c tail => simpa using ht
    | nil =>
      rw [List.append_nil] at hseparate
      exact hseparate.takeWhile_eq_nil hne hd
  | unknown hb hc =>
    simp only [extend, List.append_assoc, List.cons_append]
    exact Reads.unknown hb hc

theorem skip_extend {s : Scanner} {more : List Char} (hseparate : Separate s.rest more) {k : ℕ}
    (hitems : ∀ j < k, isEnding (s.item j) = false) :
    (s.extend more).skip k = (s.skip k).extend more ∧ Separate (s.skip k).rest more := by
  induction k with
  | zero => exact ⟨rfl, hseparate⟩
  | succ k ih =>
    obtain ⟨hskip, hrest⟩ := ih fun j hj => hitems j (by omega)
    rw [← next_skip, ← next_skip, hskip, next_extend hrest (hitems k (Nat.lt_succ_self k))]
    exact ⟨rfl, hrest.of_suffix (rest_next_suffix _)⟩

theorem item_extend {s : Scanner} {more : List Char} (hseparate : Separate s.rest more) {k : ℕ}
    (hitems : ∀ j ≤ k, isEnding (s.item j) = false) : (s.extend more).item k = s.item k := by
  obtain ⟨hskip, hrest⟩ := skip_extend hseparate fun j hj => hitems j (Nat.le_of_lt hj)
  rw [item, hskip, next_extend hrest (hitems k (Nat.le_refl k))]
  rfl

theorem isBlank_of_isEnding {s : Scanner} (h : isEnding s.next.1 = true) :
    ∀ c ∈ s.rest, Text.isBlank c = true := by
  have hread := reads_next s
  rcases hnext : s.next with ⟨item, s'⟩
  rw [hnext] at h hread
  cases hread with
  | ending hb => exact hb
  | operator op hb => exact absurd h (by simp [isEnding])
  | literal hb hne hd ht => exact absurd h (by simp [isEnding])
  | unknown hb hc => exact absurd h (by simp [isEnding])

/-- A literal in a text, read behind blanks. -/
theorem next_toDigits {blanks tail : List Char} (hb : ∀ c ∈ blanks, Text.isBlank c = true)
    (ht : tail.takeWhile Char.isDigit = []) (n pos : ℕ) :
    next ⟨blanks ++ (Nat.toDigits 10 n ++ tail), pos⟩ =
      (.ok (.literal n (pos + blanks.length)),
        ⟨tail, pos + blanks.length + (Nat.toDigits 10 n).length⟩) := by
  have hdigits : ∀ c ∈ Nat.toDigits 10 n, c.isDigit = true :=
    fun c hc => Nat.isDigit_of_mem_toDigits (by decide) (by decide) hc
  rw [next_of_reads (Reads.literal hb Nat.toDigits_ne_nil hdigits ht),
    Nat.ofDigitChars_ten_toDigits]

end Scanner

/-! ## Operands -/

theorem exists_operate?_of_units_ne_zero {m : Magnitude} (h : m.units ≠ 0) (x : Binary64)
    (op : Operator) : ∃ z, x.operate? op (.finite false m) = some z := by
  cases op with
  | divide => exact ⟨_, if_neg (by simp [Binary64.isZero, h])⟩
  | _ => exact ⟨_, rfl⟩

/-- **Every running result has an operand** that an operator takes, also one that is too large for a
floating-point number: divided by the next larger integer it is at most one. -/
theorem exists_operand (acc : Number) (op : Operator) :
    ∃ (n : ℕ) (v : Number), acc.operate op (.integer n) = .ok v := by
  have hbits : 1 ≤ powTwo 53 := Magnitude.one_le_powTwo
  cases acc with
  | integer a =>
    by_cases hop : op = .divide
    · subst hop
      have hle : a.natAbs * unitsPerOne ≤
          (Magnitude.whole 1 hbits).units * ((a.natAbs + 1 : ℕ) : ℤ).natAbs := by
        rw [Magnitude.units_whole, Int.natAbs_natCast, Nat.one_mul, Nat.mul_comm]
        exact Nat.mul_le_mul_left unitsPerOne (Nat.le_succ _)
      obtain ⟨m, hm, -⟩ := Magnitude.exists_nearest_le (Magnitude.whole 1 hbits) (by omega) hle
      obtain ⟨x, hx⟩ : ∃ x, Binary64.ofQuotient? a (a.natAbs + 1 : ℕ) = some x := by
        rw [Binary64.ofQuotient?, hm]
        exact ⟨_, rfl⟩
      refine ⟨a.natAbs + 1, .real x, ?_⟩
      rw [Number.operate_integer_integer, Number.applyIntegers, if_neg (by omega), hx]
    · obtain ⟨c, hc, -⟩ := applyIntegers_of_ne_divide hop a (1 : ℕ)
      exact ⟨1, .integer c, hc⟩
  | real x =>
    have hunits : (Magnitude.whole 1 hbits).units ≠ 0 := by
      rw [Magnitude.units_whole, Nat.one_mul]
      exact unitsPerOne_pos.ne'
    have hone : Binary64.ofInt? (1 : ℕ) = some (.finite false (.whole 1 hbits)) :=
      Binary64.ofInt?_eq_some (n := 1) hbits
    obtain ⟨z, hz⟩ := exists_operate?_of_units_ne_zero hunits x op
    exact ⟨1, .real z, Number.operate_real_integer_iff.mpr ⟨_, z, hone, hz, rfl⟩⟩

namespace Progress

/-! ## Completions -/

/-- A text completes an evaluation, whatever blanks are in front of it. -/
def Completes (p : Progress) (more : List Char) : Prop :=
  ∃ v, ∀ blanks pos, (∀ c ∈ blanks, Text.isBlank c = true) →
    (p.finish ⟨blanks ++ more, pos⟩).outcome = .ok v

theorem outcome_finish_of_goOn {p q : Progress} {s : Scanner} {steps : List Reduction}
    (h : p.move s.next.1 = .goOn steps q) :
    (p.finish s).outcome = (q.finish s.next.2).outcome := by
  rw [finish_eq, h]

theorem exists_completes_afterOperator (acc : Number) (op : Operator) :
    ∃ more, (afterOperator acc op).Completes more := by
  obtain ⟨n, v, hv⟩ := exists_operand acc op
  refine ⟨Nat.toDigits 10 n ++ [], v, fun blanks pos hb => ?_⟩
  have hnext := Scanner.next_toDigits hb List.takeWhile_nil n pos
  have hmove := move_afterOperator_ok (t := .literal n (pos + blanks.length)) rfl hv
  rw [outcome_finish_of_goOn (by rw [hnext]; exact hmove), hnext, finish_eq,
    Scanner.next_of_reads (@Scanner.Reads.ending [] _ (by simp)),
    move_afterValue_end rfl]
  rfl

theorem exists_completes_afterValue (acc : Number) (reduced : Bool) :
    ∃ more, (afterValue acc reduced).Completes (Operator.plus.toChar :: more) := by
  obtain ⟨more, v, hv⟩ := exists_completes_afterOperator acc .plus
  refine ⟨more, v, fun blanks pos hb => ?_⟩
  have hnext := Scanner.next_of_reads (@Scanner.Reads.operator _ more pos .plus hb)
  rw [outcome_finish_of_goOn (by rw [hnext]; exact move_afterValue_operator rfl), hnext]
  exact hv [] _ (by simp)

/-- **Every evaluation can be completed**, wherever it stands. -/
theorem exists_completes (p : Progress) : ∃ more, p.Completes more := by
  cases p with
  | start =>
    obtain ⟨more, v, hv⟩ := exists_completes_afterValue (.integer (0 : ℕ)) false
    refine ⟨Nat.toDigits 10 0 ++ (Operator.plus.toChar :: more), v, fun blanks pos hb => ?_⟩
    have htail : (Operator.plus.toChar :: more).takeWhile Char.isDigit = [] := by simp
    have hnext := Scanner.next_toDigits hb htail 0 pos
    have hmove := move_start_integer (t := .literal 0 (pos + blanks.length)) rfl
    rw [outcome_finish_of_goOn (by rw [hnext]; exact hmove), hnext]
    exact hv [] _ (by simp)
  | afterValue acc reduced =>
    obtain ⟨more, h⟩ := exists_completes_afterValue acc reduced
    exact ⟨_, h⟩
  | afterOperator acc op => exact exists_completes_afterOperator acc op

/-! ## From the place where an evaluation stops -/

theorem along_congr {p : Progress} {stream stream' : ℕ → Item} {k : ℕ}
    (h : ∀ j < k, stream' j = stream j) : p.along stream' k = p.along stream k := by
  induction k with
  | zero => rfl
  | succ k ih => rw [along, along, ih fun j hj => h j (by omega), h k (Nat.lt_succ_self k)]

/-- An evaluation that has come to a place goes on from there. -/
theorem outcome_finish_of_along {p q : Progress} {s : Scanner} {k : ℕ}
    (h : p.along s.item k = some q) :
    (p.finish s).outcome = (q.finish (s.skip k)).outcome := by
  induction k generalizing q with
  | zero =>
    obtain rfl : p = q := Option.some.inj h
    rfl
  | succ k ih =>
    obtain ⟨r, steps, hr, hmove⟩ := exists_goOn_of_along_succ h
    rw [ih hr, outcome_finish_of_goOn hmove, Scanner.next_skip]

/-- Before the place to which an evaluation has come the line has not ended. -/
theorem not_isEnding_of_along {p q : Progress} {stream : ℕ → Item} {k : ℕ}
    (h : p.along stream k = some q) : ∀ j < k, Scanner.isEnding (stream j) = false := by
  induction k generalizing q with
  | zero => intro j hj; omega
  | succ k ih =>
    obtain ⟨r, steps, hr, hmove⟩ := exists_goOn_of_along_succ h
    intro j hj
    rcases Nat.lt_or_eq_of_le (Nat.le_of_lt_succ hj) with hlt | rfl
    · exact ih hr j hlt
    · have hlast := isLast_of_goOn hmove
      cases hitem : stream j with
      | error e => rfl
      | ok t => rwa [hitem] at hlast

end Progress

/-! ## Failures -/

/-- A failure cites the end of the line just where the line ends. -/
theorem FaultAt.isEnding_eq {stream : ℕ → Item} {k : ℕ} {f : Failure} (h : FaultAt stream k f) :
    Scanner.isEnding (stream k) = f.citesEnd := by
  cases h with
  | scan h => rw [h]; rfl
  | notInteger hk h hkind => rw [h]; rfl
  | notOperator hk h hkind => rw [h]; rfl
  | arithmetic hk hacc hop hn h =>
    obtain ⟨t, ht, hkind, -⟩ := integerOf_eq_some_iff.mp hn
    rw [ht]
    simp [Scanner.isEnding, Token.isEnd, hkind, Failure.citesEnd]

/-- A failure has a place, up to which the line has not ended, save that it may end there. -/
theorem exists_place_of_error {line : List Char} {f : Failure} (h : outcome line = .error f) :
    ∃ k q, Progress.start.along (Scanner.ofLine line).item k = some q ∧
      q.move ((Scanner.ofLine line).item k) = .stop (.error f) ∧
      (∀ j < k, Scanner.isEnding ((Scanner.ofLine line).item j) = false) ∧
      Scanner.isEnding ((Scanner.ofLine line).item k) = f.citesEnd := by
  obtain ⟨k, q, hq, hstop⟩ :=
    (Progress.outcome_finish_iff .start (.ofLine line) (.error f)).mp h
  have hfault := (stands_of_along hq).faultAt_of_move (literalsHaveValues_item _) hstop
  exact ⟨k, q, hq, hstop, Progress.not_isEnding_of_along hq, hfault.isEnding_eq⟩

/-- An evaluation that has come to a place in a line goes on from there when there is more text. -/
theorem outcome_append_of_along {line more : List Char} {k : ℕ} {q : Progress}
    (hseparate : Separate line more)
    (h : Progress.start.along (Scanner.ofLine line).item k = some q) :
    outcome (line ++ more) = (q.finish (((Scanner.ofLine line).skip k).extend more)).outcome := by
  have hbefore := Progress.not_isEnding_of_along h
  have hsame : ∀ j < k, ((Scanner.ofLine line).extend more).item j = (Scanner.ofLine line).item j :=
    fun j hj => Scanner.item_extend hseparate fun i hi => hbefore i (hi.trans_lt hj)
  have halong := (Progress.along_congr (p := .start) hsame).trans h
  rw [← (Scanner.skip_extend hseparate hbefore).1]
  exact Progress.outcome_finish_of_along halong

/-- A failure that does not cite the end of the line stays, whatever is behind the line. -/
theorem outcome_append_of_not_citesEnd {line more : List Char} {f : Failure}
    (h : outcome line = .error f) (hcites : f.citesEnd = false) (hseparate : Separate line more) :
    outcome (line ++ more) = .error f := by
  obtain ⟨k, q, hq, hstop, hbefore, hat⟩ := exists_place_of_error h
  have hitems : ∀ j ≤ k, Scanner.isEnding ((Scanner.ofLine line).item j) = false := by
    intro j hj
    rcases Nat.lt_or_eq_of_le hj with hlt | rfl
    · exact hbefore j hlt
    · exact hat.trans hcites
  have hsame : ∀ j ≤ k,
      ((Scanner.ofLine line).extend more).item j = (Scanner.ofLine line).item j :=
    fun j hj => Scanner.item_extend hseparate fun i hi => hitems i (hi.trans hj)
  refine (Progress.outcome_finish_iff .start ((Scanner.ofLine line).extend more) _).mpr
    ⟨k, q, ?_, ?_⟩
  · rw [Progress.along_congr fun j hj => hsame j (Nat.le_of_lt hj)]
    exact hq
  · rw [hsame k (Nat.le_refl k)]
    exact hstop

/-- A failure that cites the end of the line can be mended. -/
theorem exists_append_of_citesEnd {line : List Char} {f : Failure} (h : outcome line = .error f)
    (hcites : f.citesEnd = true) :
    ∃ more v, Separate line more ∧ outcome (line ++ more) = .ok v := by
  obtain ⟨k, q, hq, -, hbefore, hat⟩ := exists_place_of_error h
  have hblank := Scanner.isBlank_of_isEnding (s := (Scanner.ofLine line).skip k) (hat.trans hcites)
  obtain ⟨more, v, hv⟩ := q.exists_completes
  -- A blank in front of the completion keeps it off the last literal of the line.
  have hseparate : Separate line (' ' :: more) := .inr (by rintro c ⟨⟩; decide)
  refine ⟨' ' :: more, v, hseparate, (outcome_append_of_along hseparate hq).trans ?_⟩
  rw [Scanner.extend, List.append_cons]
  exact hv _ _ (List.forall_mem_append.mpr ⟨hblank, List.forall_mem_singleton.mpr rfl⟩)

/-- **A failure is final just when it does not cite the end of the line.** Text behind the line that
does not lengthen its last literal leaves such a failure as it is, and some text mends any other. -/
theorem outcome_append_of_error {line : List Char} {f : Failure} (h : outcome line = .error f) :
    (f.citesEnd = true → ∃ more v, Separate line more ∧ outcome (line ++ more) = .ok v) ∧
    (f.citesEnd = false → ∀ more, Separate line more → outcome (line ++ more) = .error f) ∧
    ((∀ more, Separate line more → ∃ g, outcome (line ++ more) = .error g) ↔
      f.citesEnd = false) := by
  refine ⟨exists_append_of_citesEnd h,
    fun hcites more hseparate => outcome_append_of_not_citesEnd h hcites hseparate, ?_⟩
  constructor
  · intro hfinal
    cases hcites : f.citesEnd with
    | false => rfl
    | true =>
      obtain ⟨more, v, hseparate, hv⟩ := exists_append_of_citesEnd h hcites
      obtain ⟨g, hg⟩ := hfinal more hseparate
      rw [hv] at hg
      exact absurd hg (by simp)
  · intro hcites more hseparate
    exact ⟨f, outcome_append_of_not_citesEnd h hcites hseparate⟩

/-- A division by zero is final, also behind it where an operator is missing; an operator without an
operand is not. -/
theorem outcome_append_of_division :
    outcome ['1', '/', '0'] =
        .error (.arithmetic (.divisionByZero (.integer 1) (.integer 0))) ∧
      outcome (['1', '/', '0'] ++ [' ', '2', '+']) =
        .error (.arithmetic (.divisionByZero (.integer 1) (.integer 0))) ∧
      outcome ['1', '/'] = .error (.grammar .integer (.endAt 2)) ∧
      ∃ more v, Separate ['1', '/'] more ∧ outcome (['1', '/'] ++ more) = .ok v := by
  have hdivision : outcome ['1', '/', '0'] =
      .error (.arithmetic (.divisionByZero (.integer 1) (.integer 0))) := by
    decide +kernel
  have hend : outcome ['1', '/'] = .error (.grammar .integer (.endAt 2)) := by decide +kernel
  obtain ⟨-, hfinal, -⟩ := outcome_append_of_error hdivision
  obtain ⟨hmended, -, -⟩ := outcome_append_of_error hend
  refine ⟨hdivision, hfinal rfl _ (.inr ?_), hend, hmended rfl⟩
  rintro c ⟨⟩
  decide

/-- A digit behind the zero lengthens it, and then the division has a value. -/
example : (outcome (['1', '/', '0'] ++ ['5'])).isOk = true := by decide +kernel

end Abacus
