import Abacus.Proofs.Numeral
import Abacus.Proofs.Places
import Abacus.Proofs.Trimming
import Abacus.Proofs.ViablePrefix
import Mathlib.Logic.Relation

/-!
# The layout of a line

Blanks that part no two digits and zeros in front of a run of digits belong to the layout of a line:
an `Edit` changes them, and lines are `Rearranged` if edits lead from one to the other.
`said_append` is what carries an edit through the text in front of it, and `outcome_of_rearranged`
is the result: layout has no influence but on the places that failures cite.
-/
namespace Abacus

/-- A change to the layout of a line. -/
inductive Edit : List Char → List Char → Prop
  /-- Blanks are replaced by others. -/
  | respace {blanks blanks' : List Char} (front back : List Char)
      (hne : blanks ≠ []) (hb : ∀ c ∈ blanks, Text.isBlank c = true)
      (hne' : blanks' ≠ []) (hb' : ∀ c ∈ blanks', Text.isBlank c = true) :
      Edit (front ++ (blanks ++ back)) (front ++ (blanks' ++ back))
  /-- Blanks are inserted at an end of the line, or where they part no two digits. -/
  | space {blanks front back : List Char} (hb : ∀ c ∈ blanks, Text.isBlank c = true)
      (hseparate : Separate front back) : Edit (front ++ back) (front ++ (blanks ++ back))
  /-- Zeros are inserted in front of a run of digits. -/
  | pad {front back : List Char} (n : ℕ) (hfront : ∀ c ∈ front.getLast?, c.isDigit = false)
      (hback : ∃ c ∈ back.head?, c.isDigit = true) :
      Edit (front ++ back) (front ++ (List.replicate n '0' ++ back))

/-- Any number of edits, each of them either way, lead from one line to the other. -/
def Rearranged : List Char → List Char → Prop := Relation.EqvGen Edit

namespace Scanner

/-! ## Blanks and zeros -/

theorem next_append_of_isBlank {blanks : List Char} (hb : ∀ c ∈ blanks, Text.isBlank c = true)
    (rest : List Char) (pos : ℕ) :
    next ⟨blanks ++ rest, pos⟩ = next ⟨rest, pos + blanks.length⟩ := by
  rw [next, skipWhile_append hb, ← next]

/-- Blanks in front of a text say nothing. -/
theorem said_append_of_isBlank {blanks : List Char} (hb : ∀ c ∈ blanks, Text.isBlank c = true)
    (text : List Char) : said (blanks ++ text) = said text := by
  have hitems := items_congr (next_append_of_isBlank hb text 0)
  rw [← items_map_unplaced ⟨blanks ++ text, 0⟩, hitems, items_map_unplaced]

/-- A text that starts with digits says their value first. -/
theorem said_digits_append {digits tail : List Char} (hne : digits ≠ [])
    (hd : ∀ c ∈ digits, c.isDigit = true) (ht : tail.takeWhile Char.isDigit = []) :
    said (digits ++ tail) = .ok (.literal (Nat.ofDigitChars 10 digits 0) 0) :: said tail := by
  have hnext := next_of_reads (@Reads.literal [] _ _ 0 (by simp) hne hd ht)
  exact said_cons hnext rfl

/-- Zeros in front of digits say nothing. -/
theorem said_replicate_append {text : List Char} (n : ℕ)
    (h : ∃ c ∈ text.head?, c.isDigit = true) :
    said (List.replicate n '0' ++ text) = said text := by
  obtain ⟨digits, tail, rfl, hne, hd, ht⟩ := exists_eq_run_append_of_head h
  have hzeros : ∀ c ∈ List.replicate n '0' ++ digits, c.isDigit = true := by
    refine List.forall_mem_append.mpr ⟨fun c hc => ?_, hd⟩
    rw [List.eq_of_mem_replicate hc]
    rfl
  rw [← List.append_assoc, said_digits_append (by simp [hne]) hzeros ht,
    said_digits_append hne hd ht, ofDigitChars_replicate_append]

/-! ## Behind other text -/

/-- **Texts that say the same say the same behind other text**, as long as no run of digits goes on
into either. -/
theorem said_append {front more more' : List Char} (h : Separate front more)
    (h' : Separate front more') (hsaid : said more = said more') :
    said (front ++ more) = said (front ++ more') := by
  suffices hscanner : ∀ s : Scanner, Separate s.rest more → Separate s.rest more' →
      said (s.rest ++ more) = said (s.rest ++ more') from hscanner (ofLine front) h h'
  intro s hmore hmore'
  induction s using Scanner.induction with
  | step s ih =>
    cases hending : isEnding s.next.1 with
    | true =>
      have hb := isBlank_of_isEnding hending
      rw [said_append_of_isBlank hb, said_append_of_isBlank hb, hsaid]
    | false =>
      have hnext := next_extend hmore hending
      have hnext' := next_extend hmore' hending
      cases hlast : isLast s.next.1 with
      | true => exact (said_last hnext hlast).trans (said_last hnext' hlast).symm
      | false =>
        have hrest := ih hlast (hmore.of_suffix (rest_next_suffix s))
          (hmore'.of_suffix (rest_next_suffix s))
        have hgoOn := said_cons hnext hlast
        exact hgoOn.trans ((congrArg _ hrest).trans (said_cons hnext' hlast).symm)

end Scanner

/-! ## Edits -/

/-- Text behind blanks starts with no digit, and without blanks if it starts with none itself. -/
theorem takeWhile_isDigit_append {blanks rest : List Char}
    (hb : ∀ c ∈ blanks, Text.isBlank c = true)
    (h : blanks = [] → rest.takeWhile Char.isDigit = []) :
    (blanks ++ rest).takeWhile Char.isDigit = [] := by
  cases blanks with
  | nil => exact h rfl
  | cons c blanks => simp [isDigit_of_isBlank (hb c List.mem_cons_self)]

theorem separate_of_isBlank {front blanks back : List Char} (hne : blanks ≠ [])
    (hb : ∀ c ∈ blanks, Text.isBlank c = true) : Separate front (blanks ++ back) :=
  .of_takeWhile_eq_nil (takeWhile_isDigit_append hb fun h => absurd h hne)

theorem Edit.said_eq {line line' : List Char} (h : Edit line line') :
    Scanner.said line = Scanner.said line' := by
  cases h with
  | @respace blanks blanks' front back hne hb hne' hb' =>
    refine Scanner.said_append (separate_of_isBlank hne hb) (separate_of_isBlank hne' hb') ?_
    rw [Scanner.said_append_of_isBlank hb, Scanner.said_append_of_isBlank hb']
  | @space blanks front back hb hseparate =>
    have hsaid := Scanner.said_append_of_isBlank hb back
    by_cases hne : blanks = []
    · rw [hne, List.nil_append]
    · exact Scanner.said_append hseparate (separate_of_isBlank hne hb) hsaid.symm
  | @pad front back n hfront hback =>
    exact Scanner.said_append (.inl hfront) (.inl hfront)
      (Scanner.said_replicate_append n hback).symm

/-- **Rearranged lines say the same.** -/
theorem Rearranged.said_eq {line line' : List Char} (h : Rearranged line line') :
    Scanner.said line = Scanner.said line' := by
  induction h with
  | rel line line' hedit => exact hedit.said_eq
  | refl line => rfl
  | symm line line' _ ih => exact ih.symm
  | trans line line' line'' _ _ ih ih' => exact ih.trans ih'

/-! ## Cutting blanks -/

/-- A line is rearranged when the blanks around it are cut. -/
theorem rearranged_trim (line : List Char) : Rearranged line (Text.trim line) := by
  obtain ⟨lead, trail, hlead, htrail, heq⟩ := Text.exists_eq_append_cutEnds Text.isBlank line
  rw [← Text.trim] at heq
  have hbehind : Edit (Text.trim line) (Text.trim line ++ trail) := by
    simpa using @Edit.space trail (Text.trim line) [] htrail (.inr (by simp))
  have hfront : Edit (Text.trim line ++ trail) (lead ++ (Text.trim line ++ trail)) :=
    @Edit.space lead [] (Text.trim line ++ trail) hlead (.inl (by simp))
  rw [← heq] at hfront
  exact .symm _ _ (.trans _ _ _ (.rel _ _ hbehind) (.rel _ _ hfront))

/-- **Layout has no influence but on places.** Rearranged lines have outcomes that agree, with the
same message if they are failures, and the same reductions; so they do when the blanks around one of
them are cut. -/
theorem outcome_of_rearranged {line line' : List Char} (h : Rearranged line line') :
    Agree (outcome line) (outcome line') ∧
      (outcome line).mapError Failure.message = (outcome line').mapError Failure.message ∧
      (evaluate line).steps = (evaluate line').steps ∧
      Agree (outcome line) (outcome (Text.trim line')) := by
  have htrim := (rearranged_trim line').said_eq
  obtain ⟨hagree, hsteps⟩ :=
    Progress.agree_finish .start (.ofLine line) (.ofLine line') h.said_eq
  exact ⟨hagree, hagree.message_eq, hsteps, hagree.trans (agree_outcome htrim)⟩

/-- A spared zero, a blank in front and a wide blank move the place of a character that is not
known, and nothing else. -/
theorem agree_of_spared_zero :
    Rearranged ['0', '7', '+', 'x'] [' ', '7', '+', '\u3000', 'x'] ∧
      outcome ['0', '7', '+', 'x'] = .error (.scan ⟨'x', 3⟩) ∧
      outcome [' ', '7', '+', '\u3000', 'x'] = .error (.scan ⟨'x', 4⟩) ∧
      Agree (outcome ['0', '7', '+', 'x']) (outcome [' ', '7', '+', '\u3000', 'x']) := by
  have hzero : Edit ['7', '+', 'x'] ['0', '7', '+', 'x'] :=
    @Edit.pad [] ['7', '+', 'x'] 1 (by simp) ⟨'7', rfl, by decide⟩
  have hblank : Edit ['7', '+', 'x'] [' ', '7', '+', 'x'] :=
    @Edit.space [' '] [] ['7', '+', 'x'] (List.forall_mem_singleton.mpr rfl) (.inl (by simp))
  have hwide : Edit [' ', '7', '+', 'x'] [' ', '7', '+', '\u3000', 'x'] :=
    @Edit.space ['\u3000'] [' ', '7', '+'] ['x'] (List.forall_mem_singleton.mpr rfl)
      (.inl (by simp))
  have h : Rearranged ['0', '7', '+', 'x'] [' ', '7', '+', '\u3000', 'x'] :=
    .trans _ _ _ (.symm _ _ (.rel _ _ hzero)) (.trans _ _ _ (.rel _ _ hblank) (.rel _ _ hwide))
  exact ⟨h, by decide +kernel, by decide +kernel, (outcome_of_rearranged h).1⟩

end Abacus
