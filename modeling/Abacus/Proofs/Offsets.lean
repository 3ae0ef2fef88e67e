import Abacus.Proofs.ItemStream

/-!
# Offsets

A scanner over a line is an offset into it: `On line s` says that the rest of `s` is what the line
has from that offset on. Reading keeps this, never moves the offset back, and leaves it behind the
item read: at the end of a token, at the end of the line, or at the offending character.
-/
namespace Abacus.Scanner

/-- The scanner stands in a line, at its offset. -/
structure On (line : List Char) (s : Scanner) : Prop where
  rest_eq : s.rest = line.drop s.pos
  pos_le : s.pos ≤ line.length

theorem on_ofLine (line : List Char) : On line (ofLine line) := ⟨rfl, Nat.zero_le _⟩

/-- The offset behind a token of a line. -/
def tokenEnd (line : List Char) (t : Token) : ℕ :=
  match t.kind with
  | .endOfInput => line.length
  | .operator _ => t.pos.toNat + 1
  | .integer => t.pos.toNat + ((line.drop t.pos.toNat).takeWhile Char.isDigit).length

theorem tokenEnd_literal (line : List Char) (value pos : ℕ) :
    tokenEnd line (.literal value pos) =
      pos + ((line.drop pos).takeWhile Char.isDigit).length := rfl

/-- The offset behind the last item read: at the start of the line if there is none, and at the
offending character of an error. -/
def offsetBehind (line : List Char) : Option Item → ℕ
  | none => 0
  | some (.ok t) => tokenEnd line t
  | some (.error e) => e.pos

/-- A scanner in a line, moved over some characters in front of it. -/
theorem On.drop {line first rest : List Char} {pos : ℕ} (h : On line ⟨first ++ rest, pos⟩) :
    On line ⟨rest, pos + first.length⟩ := by
  have hrest : first ++ rest = line.drop pos := h.rest_eq
  have hpos : pos ≤ line.length := h.pos_le
  have hlen := congrArg List.length hrest
  rw [List.length_append, List.length_drop] at hlen
  constructor
  · rw [← List.drop_drop, ← hrest, List.drop_left]
  · change pos + first.length ≤ line.length
    omega

theorem On.pos_eq_length {line : List Char} {pos : ℕ} (h : On line ⟨[], pos⟩) :
    pos = line.length := by
  have hpos : pos ≤ line.length := h.pos_le
  have hlen := congrArg List.length (show [] = line.drop pos from h.rest_eq)
  rw [List.length_nil, List.length_drop] at hlen
  omega

/-- **What one request does to the offset.** -/
theorem On.next {line : List Char} {s : Scanner} (h : On line s) :
    On line s.next.2 ∧ s.next.2.pos = offsetBehind line (some s.next.1) ∧
      s.pos ≤ s.next.2.pos ∧ (isLast s.next.1 = false → s.pos < s.next.2.pos) := by
  have hread := reads_next s
  rcases hnext : s.next with ⟨item, s'⟩
  rw [hnext] at hread
  cases hread with
  | @ending blanks pos hb =>
    have hon : On line ⟨[], pos + blanks.length⟩ := by
      simpa using @On.drop line blanks [] pos (by simpa using h)
    exact ⟨hon, hon.pos_eq_length, by simp, by simp⟩
  | @operator blanks tail pos op hb =>
    have hon : On line ⟨tail, pos + blanks.length + 1⟩ :=
      @On.drop line [op.toChar] tail _ h.drop
    refine ⟨hon, rfl, ?_, ?_⟩
    · change pos ≤ pos + blanks.length + 1
      omega
    · intro _
      change pos < pos + blanks.length + 1
      omega
  | @literal blanks digits tail pos hb hne hd ht =>
    have hstart := h.drop
    have hpos := List.length_pos_iff.mpr hne
    have hrun : (line.drop (pos + blanks.length)).takeWhile Char.isDigit = digits := by
      rw [← hstart.rest_eq, List.takeWhile_append_of_pos hd, ht, List.append_nil]
    refine ⟨hstart.drop, ?_, ?_, ?_⟩
    · have hstop := tokenEnd_literal line (Nat.ofDigitChars 10 digits 0) (pos + blanks.length)
      rw [hrun] at hstop
      exact hstop.symm
    · change pos ≤ pos + blanks.length + digits.length
      omega
    · intro _
      change pos < pos + blanks.length + digits.length
      omega
  | unknown hb hc => exact ⟨h.drop, rfl, by simp, by simp⟩

theorem On.skip {line : List Char} {s : Scanner} (h : On line s) (n : ℕ) : On line (s.skip n) := by
  induction n generalizing s with
  | zero => exact h
  | succ n ih => exact ih h.next.1

theorem On.pos_le_skip {line : List Char} {s : Scanner} (h : On line s) (n : ℕ) :
    s.pos ≤ (s.skip n).pos := by
  induction n generalizing s with
  | zero => exact Nat.le_refl _
  | succ n ih => exact Nat.le_trans h.next.2.2.1 (ih h.next.1)

/-- Behind some items of a line the offset is the one behind the last of them. -/
theorem pos_skip_succ (line : List Char) (n : ℕ) :
    ((ofLine line).skip (n + 1)).pos = offsetBehind line (some ((ofLine line).item n)) := by
  rw [← next_skip]
  exact ((on_ofLine line).skip n).next.2.1

end Abacus.Scanner
