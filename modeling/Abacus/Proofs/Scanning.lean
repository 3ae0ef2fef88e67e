import Abacus.Scanner
import Mathlib.Data.List.TakeWhile

/-!
# What a scanner reads

`Reads s item s'` is the lexical grammar as a relation: a request to the scanner `s` gives `item`
and leaves `s'`. `reads_next` and `next_of_reads` say that `Scanner.next` is this relation.

An item is last when nothing new can follow it: the end of the line, or an error. A last item is
read again and again, and every other one uses up some of the line, which gives `Scanner.induction`.
-/
namespace Abacus

/-! ## Characters -/

@[simp] theorem Operator.isBlank_toChar (op : Operator) : Text.isBlank op.toChar = false := by
  cases op <;> decide

@[simp] theorem Operator.isDigit_toChar (op : Operator) : op.toChar.isDigit = false := by
  cases op <;> decide

theorem toNat_of_isDigit {c : Char} (h : c.isDigit = true) : 48 ≤ c.toNat ∧ c.toNat ≤ 57 := by
  simp only [Char.isDigit, ge_iff_le, Bool.and_eq_true, decide_eq_true_eq, UInt32.le_iff_toNat_le]
    at h
  exact h

theorem isBlank_of_isDigit {c : Char} (h : c.isDigit = true) : Text.isBlank c = false := by
  obtain ⟨hlo, hhi⟩ := toNat_of_isDigit h
  simp only [Text.isBlank, Bool.or_eq_false_iff, Bool.and_eq_false_iff, decide_eq_false_iff_not,
    beq_eq_false_iff_ne]
  omega

theorem isDigit_of_isBlank {c : Char} (h : Text.isBlank c = true) : c.isDigit = false := by
  cases hc : c.isDigit with
  | false => rfl
  | true => rw [← isBlank_of_isDigit hc, h]

theorem ofChar?_of_isDigit {c : Char} (h : c.isDigit = true) : Operator.ofChar? c = none := by
  rw [Option.eq_none_iff_forall_ne_some]
  intro op hop
  rw [Operator.ofChar?_eq_some_iff.mp hop, Operator.isDigit_toChar] at h
  exact absurd h (by decide)

namespace Scanner

/-- What a scanner answers to a request for a token. -/
abbrev Item := Except ScanError Token

/-- A character that can stand in a line: a blank, a digit or an operator. -/
def isKnown (c : Char) : Bool := Text.isBlank c || c.isDigit || (Operator.ofChar? c).isSome

theorem isKnown_eq_false {c : Char} :
    isKnown c = false ↔
      Text.isBlank c = false ∧ c.isDigit = false ∧ Operator.ofChar? c = none := by
  simp [isKnown, and_assoc]

/-! ## One request -/

/-- The lexical grammar: what a request to a scanner gives, and the scanner behind it. A literal is
the longest run of digits. -/
inductive Reads : Scanner → Item → Scanner → Prop
  | ending {blanks : List Char} {pos : ℕ} (hb : ∀ c ∈ blanks, Text.isBlank c = true) :
      Reads ⟨blanks, pos⟩ (.ok (.endAt (pos + blanks.length))) ⟨[], pos + blanks.length⟩
  | operator {blanks tail : List Char} {pos : ℕ} (op : Operator)
      (hb : ∀ c ∈ blanks, Text.isBlank c = true) :
      Reads ⟨blanks ++ op.toChar :: tail, pos⟩ (.ok (.operatorAt op (pos + blanks.length)))
        ⟨tail, pos + blanks.length + 1⟩
  | literal {blanks digits tail : List Char} {pos : ℕ} (hb : ∀ c ∈ blanks, Text.isBlank c = true)
      (hne : digits ≠ []) (hd : ∀ c ∈ digits, c.isDigit = true)
      (ht : tail.takeWhile Char.isDigit = []) :
      Reads ⟨blanks ++ (digits ++ tail), pos⟩
        (.ok (.literal (Nat.ofDigitChars 10 digits 0) (pos + blanks.length)))
        ⟨tail, pos + blanks.length + digits.length⟩
  | unknown {blanks tail : List Char} {c : Char} {pos : ℕ}
      (hb : ∀ c ∈ blanks, Text.isBlank c = true) (hc : isKnown c = false) :
      Reads ⟨blanks ++ c :: tail, pos⟩ (.error ⟨c, pos + blanks.length⟩)
        ⟨c :: tail, pos + blanks.length⟩

theorem takeWhile_dropWhile (p : Char → Bool) (cs : List Char) :
    (cs.dropWhile p).takeWhile p = [] := by
  have hhead := List.head?_dropWhile_not p cs
  cases hrest : cs.dropWhile p with
  | nil => rfl
  | cons c rest =>
    rw [hrest] at hhead
    simpa using hhead

/-- A text is the longest run of characters of a class in front, and the rest behind it. -/
theorem exists_eq_run_append (p : Char → Bool) (text : List Char) :
    ∃ run rest, text = run ++ rest ∧ (∀ c ∈ run, p c = true) ∧ rest.takeWhile p = [] := by
  refine ⟨text.takeWhile p, text.dropWhile p, ?_, ?_, takeWhile_dropWhile p text⟩
  · exact List.takeWhile_append_dropWhile.symm
  · exact fun c hc => List.mem_takeWhile_imp hc

theorem exists_eq_run_append_of_head {p : Char → Bool} {text : List Char}
    (h : ∃ c ∈ text.head?, p c = true) :
    ∃ run rest, text = run ++ rest ∧ run ≠ [] ∧ (∀ c ∈ run, p c = true) ∧
      rest.takeWhile p = [] := by
  obtain ⟨run, rest, rfl, hrun, hrest⟩ := exists_eq_run_append p text
  refine ⟨run, rest, rfl, ?_, hrun, hrest⟩
  rintro rfl
  obtain ⟨c, hc, hp⟩ := h
  obtain ⟨tail, rfl⟩ := List.head?_eq_some_iff.mp hc
  simp [hp] at hrest

theorem skipWhile_append {p : Char → Bool} {first rest : List Char} {pos : ℕ}
    (h : ∀ c ∈ first, p c = true) :
    skipWhile p ⟨first ++ rest, pos⟩ = skipWhile p ⟨rest, pos + first.length⟩ := by
  simp [skipWhile, List.takeWhile_append_of_pos h, List.dropWhile_append_of_pos h, Nat.add_assoc]

theorem skipWhile_of_takeWhile_nil {p : Char → Bool} {s : Scanner} (h : s.rest.takeWhile p = []) :
    s.skipWhile p = s := by
  have hsplit := List.takeWhile_append_dropWhile (p := p) (l := s.rest)
  rw [h, List.nil_append] at hsplit
  rw [skipWhile, h, hsplit]
  rfl

theorem skipWhile_all {p : Char → Bool} {cs : List Char} {pos : ℕ} (h : ∀ c ∈ cs, p c = true) :
    skipWhile p ⟨cs, pos⟩ = ⟨[], pos + cs.length⟩ := by
  rw [skipWhile, List.takeWhile_eq_self_iff.mpr h, List.dropWhile_eq_nil_iff.mpr h]

theorem next_of_reads {s s' : Scanner} {item : Item} (h : Reads s item s') :
    s.next = (item, s') := by
  cases h with
  | ending hb => rw [next, skipWhile_all hb, readToken]
  | operator op hb =>
    rw [next, skipWhile_append hb, skipWhile_of_takeWhile_nil (by simp), readToken]
    simp
  | @literal blanks digits tail pos hb hne hd ht =>
    obtain ⟨d, ds, rfl⟩ := List.exists_cons_of_ne_nil hne
    have hdigit : d.isDigit = true := hd d (by simp)
    have hskip : skipWhile Char.isDigit ⟨d :: ds ++ tail, pos + blanks.length⟩ =
        ⟨tail, pos + blanks.length + (d :: ds).length⟩ := by
      rw [skipWhile_append hd, skipWhile_of_takeWhile_nil ht]
    rw [next, skipWhile_append hb,
      skipWhile_of_takeWhile_nil (by simp [isBlank_of_isDigit hdigit])]
    rw [List.cons_append] at hskip ⊢
    simp only [readToken, ofChar?_of_isDigit hdigit, hdigit, if_true, hskip]
    rw [← List.cons_append, List.takeWhile_append_of_pos hd, ht, List.append_nil]
  | unknown hb hc =>
    obtain ⟨hblank, hdigit, hop⟩ := isKnown_eq_false.mp hc
    rw [next, skipWhile_append hb, skipWhile_of_takeWhile_nil (by simp [hblank]), readToken]
    simp [hop, hdigit]

/-- **Every request is a case of the lexical grammar.** -/
theorem reads_next (s : Scanner) : Reads s s.next.1 s.next.2 := by
  obtain ⟨rest, pos⟩ := s
  obtain ⟨blanks, tail, rfl, hb, htail⟩ := exists_eq_run_append Text.isBlank rest
  suffices h : ∃ item s', Reads ⟨blanks ++ tail, pos⟩ item s' by
    obtain ⟨item, s', h⟩ := h
    rwa [next_of_reads h]
  cases tail with
  | nil => exact ⟨_, _, by simpa using Reads.ending hb⟩
  | cons c tail =>
    have hblank : Text.isBlank c = false := by simpa using htail
    by_cases hdigit : c.isDigit = true
    · obtain ⟨digits, rest, heq, hne, hd, hrest⟩ :=
        @exists_eq_run_append_of_head Char.isDigit (c :: tail) ⟨c, rfl, hdigit⟩
      rw [heq]
      exact ⟨_, _, Reads.literal hb hne hd hrest⟩
    · cases hop : Operator.ofChar? c with
      | some op =>
        rw [Operator.ofChar?_eq_some_iff.mp hop]
        exact ⟨_, _, Reads.operator op hb⟩
      | none =>
        have hc : isKnown c = false := isKnown_eq_false.mpr ⟨hblank, by simpa using hdigit, hop⟩
        exact ⟨_, _, Reads.unknown hb hc⟩

/-! ## The last item -/

/-- Whether nothing new follows an item: the end of the line and an error are read for ever. -/
def isLast (item : Item) : Bool :=
  match item with
  | .ok t => t.isEnd
  | .error _ => true

@[simp] theorem isLast_ok (t : Token) : isLast (.ok t) = t.isEnd := rfl

@[simp] theorem isLast_error (e : ScanError) : isLast (.error e) = true := rfl

/-- A last item is read again and again. -/
theorem next_next_of_isLast {s : Scanner} (h : isLast s.next.1 = true) :
    s.next.2.next = s.next := by
  have hread := reads_next s
  generalize hs : s.next = r at h hread ⊢
  obtain ⟨item, s'⟩ := r
  apply next_of_reads
  cases hread with
  | ending hb => simpa using @Reads.ending [] _ (by simp)
  | operator op hb => simp at h
  | literal hb hne hd ht => simp at h
  | unknown hb hc => simpa using @Reads.unknown [] _ _ _ (by simp) hc

theorem last_or_token (s : Scanner) :
    isLast s.next.1 = true ∨
      isLast s.next.1 = false ∧ ∃ t : Token, s.next.1 = .ok t ∧ t.isEnd = false := by
  cases s.next.1 with
  | error e => exact .inl rfl
  | ok t => cases ht : t.isEnd <;> simp [ht]

/-- An item that is not last uses up some of the rest. -/
theorem rest_lt_of_not_isLast {s : Scanner} (h : isLast s.next.1 = false) :
    s.next.2.rest.length < s.rest.length := by
  rcases s.last_or_token with hlast | ⟨-, t, hitem, ht⟩
  · rw [hlast] at h
    exact absurd h (by decide)
  · exact rest_next_lt hitem ht

/-- Induction along what a scanner reads: up to the first last item. -/
@[elab_as_elim] theorem induction {P : Scanner → Prop}
    (step : ∀ s : Scanner, (isLast s.next.1 = false → P s.next.2) → P s) (s : Scanner) : P s := by
  induction hn : s.rest.length using Nat.strong_induction_on generalizing s with
  | _ n ih =>
    apply step
    intro h
    exact ih _ (hn ▸ rest_lt_of_not_isLast h) _ rfl

end Scanner
end Abacus
