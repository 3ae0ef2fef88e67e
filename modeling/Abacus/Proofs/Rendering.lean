import Abacus.Proofs.Layout
import Abacus.Proofs.Tiling
import Mathlib.Data.List.Chain

/-!
# Writing tokens down and reading them back

`render` writes tokens one after the other, with blanks between them, and `placed` puts each of them
where its text stands. As long as no literal touches another one (`Spaced`), exactly these tokens
are read back (`tokenize_render`). In the other direction `Spells.text_eq` says what the text of a
token has to do with the characters that it was read from: they are the same, save that a literal
loses the zeros that it can spare. `render_tokenize_inverse` puts the two directions together.
-/
namespace Abacus

/-- A token that has a text: a literal or an operator, with the value that its kind has. -/
def Token.IsWord (t : Token) : Prop :=
  (∃ n : ℕ, t.label = (.integer, some (n : ℤ))) ∨ ∃ op, t.label = (.operator op, none)

theorem Token.IsWord.isEnd_eq_false {t : Token} (h : t.IsWord) : t.isEnd = false := by
  rcases h with ⟨n, hlabel⟩ | ⟨op, hlabel⟩
  · simp [isEnd, show t.kind = .integer from congrArg Prod.fst hlabel]
  · simp [isEnd, show t.kind = .operator op from congrArg Prod.fst hlabel]

/-- A token and the blanks behind it. -/
structure Piece where
  token : Token
  blanks : List Char

/-- The text of tokens with the blanks behind each of them, behind leading blanks. -/
def render (lead : List Char) (pieces : List Piece) : List Char :=
  lead ++ pieces.flatMap fun piece => piece.token.text.toList ++ piece.blanks

/-- The tokens of a text that starts at an offset, each where its own text stands. -/
def placed (pos : ℕ) (lead : List Char) (pieces : List Piece) : List Token :=
  pieces.mapIdx fun k piece =>
    { piece.token with pos := (pos + (render lead (pieces.take k)).length : ℕ) }

/-- Only blanks are around the tokens, and some are between a literal and another one. -/
structure Spaced (lead : List Char) (pieces : List Piece) : Prop where
  lead : ∀ c ∈ lead, Text.isBlank c = true
  behind : ∀ piece ∈ pieces, ∀ c ∈ piece.blanks, Text.isBlank c = true
  apart : pieces.IsChain fun piece next =>
    piece.token.kind = .integer → next.token.kind = .integer → piece.blanks ≠ []

/-! ## Reading back what has been written -/

@[simp] theorem render_nil (lead : List Char) : render lead [] = lead := List.append_nil lead

theorem render_cons (lead : List Char) (piece : Piece) (pieces : List Piece) :
    render lead (piece :: pieces) =
      lead ++ (piece.token.text.toList ++ render piece.blanks pieces) := by
  simp [render]

theorem placed_cons (pos : ℕ) (lead : List Char) (piece : Piece) (pieces : List Piece) :
    placed pos lead (piece :: pieces) =
      { piece.token with pos := (pos + lead.length : ℕ) } ::
        placed (pos + lead.length + piece.token.text.toList.length) piece.blanks pieces := by
  have hpos : ∀ k, pos + (render lead ((piece :: pieces).take (k + 1))).length =
      pos + lead.length + piece.token.text.toList.length +
        (render piece.blanks (pieces.take k)).length := by
    intro k
    rw [List.take_succ_cons, render_cons]
    simp only [List.length_append]
    omega
  rw [placed, List.mapIdx_cons]
  simp only [hpos, List.take_zero, render_nil]
  rfl

theorem Spaced.tail {lead : List Char} {piece : Piece} {pieces : List Piece}
    (h : Spaced lead (piece :: pieces)) : Spaced piece.blanks pieces where
  lead := h.behind piece List.mem_cons_self
  behind := fun next hnext => h.behind next (List.mem_cons_of_mem _ hnext)
  apart := h.apart.of_cons

theorem text_of_operator {t : Token} {op : Operator} (h : t.kind = .operator op) :
    t.text.toList = [op.toChar] := by
  simp [Token.text, h, Operator.text]

theorem text_of_integer {t : Token} {n : ℕ} (h : t.label = (.integer, some (n : ℤ))) :
    t.text.toList = Nat.toDigits 10 n := by
  obtain ⟨hkind, hvalue⟩ := Prod.mk.inj h
  rw [← toList_toString_natCast]
  simp [Token.text, Token.valueText, hkind, hvalue]

/-- Behind a literal no digit is written. -/
theorem Spaced.takeWhile_eq_nil {lead : List Char} {piece : Piece} {pieces : List Piece}
    (h : Spaced lead (piece :: pieces)) (hwords : ∀ next ∈ pieces, next.token.IsWord)
    (hkind : piece.token.kind = .integer) :
    (render piece.blanks pieces).takeWhile Char.isDigit = [] := by
  refine takeWhile_isDigit_append (h.behind piece List.mem_cons_self) fun hnone => ?_
  cases pieces with
  | nil => rfl
  | cons next pieces =>
    rcases hwords next List.mem_cons_self with ⟨n, hlabel⟩ | ⟨op, hlabel⟩
    · have hnext : next.token.kind = .integer := congrArg Prod.fst hlabel
      exact absurd hnone ((List.isChain_cons_cons.mp h.apart).1 hkind hnext)
    · rw [List.flatMap_cons, text_of_operator (congrArg Prod.fst hlabel)]
      simp

namespace Scanner

/-- A token is read back from its text. -/
theorem next_text {lead rest : List Char} {t : Token} (hlead : ∀ c ∈ lead, Text.isBlank c = true)
    (hword : t.IsWord) (hrest : t.kind = .integer → rest.takeWhile Char.isDigit = []) (pos : ℕ) :
    next ⟨lead ++ (t.text.toList ++ rest), pos⟩ =
      (.ok { t with pos := (pos + lead.length : ℕ) },
        ⟨rest, pos + lead.length + t.text.toList.length⟩) := by
  obtain ⟨kind, value, place⟩ := t
  rcases hword with ⟨n, hlabel⟩ | ⟨op, hlabel⟩
  · obtain ⟨rfl, rfl⟩ := Prod.mk.inj hlabel
    rw [text_of_integer hlabel]
    exact next_toDigits hlead (hrest rfl) n pos
  · obtain ⟨rfl, rfl⟩ := Prod.mk.inj hlabel
    rw [text_of_operator rfl]
    exact next_of_reads (Reads.operator op hlead)

/-- **The tokens that have been written are read back**, each from the place where it stands. -/
theorem drain_render {lead : List Char} {pieces : List Piece}
    (hwords : ∀ piece ∈ pieces, piece.token.IsWord) (h : Spaced lead pieces) (pos : ℕ) :
    drain ⟨render lead pieces, pos⟩ =
      ⟨placed pos lead pieces, none, ⟨[], pos + (render lead pieces).length⟩⟩ := by
  induction pieces generalizing lead pos with
  | nil =>
    have hnext := next_of_reads (@Reads.ending lead pos h.lead)
    rw [render_nil, drain_of_isLast (by rw [hnext]; rfl), hnext]
    rfl
  | cons piece pieces ih =>
    have hwords' : ∀ next ∈ pieces, next.token.IsWord :=
      fun next hnext => hwords next (List.mem_cons_of_mem _ hnext)
    have hword := hwords piece List.mem_cons_self
    have hnext := next_text h.lead hword (h.takeWhile_eq_nil hwords') pos
    rw [← render_cons] at hnext
    have hitem : (next ⟨render lead (piece :: pieces), pos⟩).1 =
        .ok { piece.token with pos := (pos + lead.length : ℕ) } := by rw [hnext]
    rw [drain_of_token hitem hword.isEnd_eq_false, hnext]
    simp only [ih hwords' h.tail]
    rw [placed_cons, render_cons]
    simp only [List.length_append, Nat.add_assoc]

end Scanner

theorem tokenize_render {lead : List Char} {pieces : List Piece}
    (hwords : ∀ piece ∈ pieces, piece.token.IsWord) (h : Spaced lead pieces) :
    tokenize (render lead pieces) =
      .ok (placed 0 lead pieces ++ [.endAt (render lead pieces).length]) := by
  rw [tokenize, Scanner.ofLine, Scanner.drain_render hwords h 0]
  simp

theorem map_label_placed (pos : ℕ) (lead : List Char) (pieces : List Piece) :
    (placed pos lead pieces).map Token.label = (pieces.map Piece.token).map Token.label := by
  induction pieces generalizing pos lead with
  | nil => rfl
  | cons piece pieces ih =>
    rw [placed_cons, List.map_cons, ih]
    rfl

/-! ## Writing down what has been read -/

/-- The characters of a line from an offset up to another. -/
def slice (line : List Char) (start stop : ℕ) : List Char := (line.drop start).take (stop - start)

namespace Spells
variable {line : List Char} {t : Token} {start stop : ℕ}

theorem isWord (h : Spells line t start stop) : t.IsWord := by
  cases h with
  | @operator op _ h => exact .inr ⟨op, rfl⟩
  | literal hlt hrun hbefore hbehind => exact .inl ⟨_, rfl⟩

/-- The digits of a literal, as a slice of the line. -/
theorem slice_of_digits (hlt : start < stop) (hrun : ∀ i, start ≤ i → i < stop → DigitAt line i) :
    slice line start stop ≠ [] ∧ ∀ c ∈ slice line start stop, c.isDigit = true := by
  constructor
  · obtain ⟨c, hc, -⟩ := hrun start (Nat.le_refl start) hlt
    have hindex := (List.getElem?_eq_some_iff.mp hc).1
    apply List.ne_nil_of_length_pos
    rw [slice, List.length_take, List.length_drop]
    omega
  · intro c hc
    obtain ⟨i, hi, hget⟩ := List.mem_take_iff_getElem.mp hc
    obtain ⟨d, hd, hdigit⟩ := hrun (start + i) (by omega) (by omega)
    rw [← List.getElem?_drop] at hd
    obtain ⟨hindex, hdrop⟩ := List.getElem?_eq_some_iff.mp hd
    rwa [← hget, hdrop]

/-- **The text of a token and the characters it was read from**: a literal loses the zeros that it
can spare, an operator is its own text. -/
theorem text_eq (h : Spells line t start stop) :
    (t.kind = .integer → t.text.toList = stripZeros (slice line start stop)) ∧
      (t.kind ≠ .integer → t.text.toList = slice line start stop) := by
  cases h with
  | @operator op _ hop =>
    refine ⟨fun hkind => absurd hkind (by simp [Token.operatorAt]), fun _ => ?_⟩
    obtain ⟨hindex, hget⟩ := List.getElem?_eq_some_iff.mp hop
    rw [@text_of_operator _ op rfl, slice, List.drop_eq_getElem_cons hindex, hget]
    simp
  | literal hlt hrun hbefore hbehind =>
    obtain ⟨hne, hdigits⟩ := slice_of_digits hlt hrun
    refine ⟨fun _ => ?_, fun hkind => absurd rfl hkind⟩
    rw [text_of_integer rfl]
    exact toDigits_ofDigitChars hne hdigits

end Spells

/-- **Writing tokens down and reading them are inverse.** Tokens that are written with enough blanks
between them are read back, each from the offset where its text stands. The tokens that are read
from any line have the texts that they were read from, spared zeros apart, and when they are written
with enough blanks between them the same kinds and values are read again. -/
theorem render_tokenize_inverse :
    (∀ lead pieces, (∀ piece ∈ pieces, piece.token.IsWord) → Spaced lead pieces →
      tokenize (render lead pieces) =
        .ok (placed 0 lead pieces ++ [.endAt (render lead pieces).length])) ∧
    ∀ line tokens, tokenize line = .ok tokens →
      ∃ front, tokens = front ++ [.endAt line.length] ∧
        (∀ t ∈ front, ∃ start stop, Spells line t start stop ∧
          (t.kind = .integer → t.text.toList = stripZeros (slice line start stop)) ∧
          (t.kind ≠ .integer → t.text.toList = slice line start stop)) ∧
        ∀ lead pieces, pieces.map Piece.token = front → Spaced lead pieces →
          ∃ again, tokenize (render lead pieces) =
              .ok (again ++ [.endAt (render lead pieces).length]) ∧
            again.map Token.label = front.map Token.label := by
  refine ⟨fun lead pieces hwords h => tokenize_render hwords h, fun line tokens hread => ?_⟩
  obtain ⟨front, heq, hspelled, -⟩ :=
    ((Scanner.tokenize_eq_ok_iff_tiling line tokens).mp hread).ends
  refine ⟨front, heq, ?_, ?_⟩
  · intro t ht
    obtain ⟨start, stop, h⟩ := hspelled t ht
    exact ⟨start, stop, h, h.text_eq⟩
  · rintro lead pieces rfl h
    have hwords : ∀ piece ∈ pieces, piece.token.IsWord := by
      intro piece hpiece
      obtain ⟨start, stop, hspells⟩ := hspelled piece.token (List.mem_map_of_mem hpiece)
      exact hspells.isWord
    exact ⟨_, tokenize_render hwords h, map_label_placed 0 lead pieces⟩

/-- Two literals with a wide blank between them and an operator that needs none are read back; a
literal with zeros in front is written without them, and reads the same. -/
theorem render_tokenize_inverse_literals :
    tokenize (render [' ']
        [⟨.literal 7 0, ['\u2003']⟩, ⟨.literal 12 0, []⟩, ⟨.operatorAt .plus 0, []⟩]) =
      .ok [.literal 7 1, .literal 12 3, .operatorAt .plus 5, .endAt 6] ∧
      tokenize ['0', '0', '7', '+'] = .ok [.literal 7 0, .operatorAt .plus 3, .endAt 4] ∧
      ∃ again, tokenize ['7', '+'] = .ok (again ++ [.endAt 2]) ∧
        again.map Token.label = [(.integer, some 7), (.operator .plus, none)] := by
  have hread : tokenize ['0', '0', '7', '+'] =
      .ok [.literal 7 0, .operatorAt .plus 3, .endAt 4] := by decide
  obtain ⟨hwrite, hagain⟩ := render_tokenize_inverse
  refine ⟨hwrite _ _ ?_ ⟨List.forall_mem_singleton.mpr rfl, ?_, ?_⟩, hread, ?_⟩
  · simp only [List.forall_mem_cons]
    exact ⟨.inl ⟨7, rfl⟩, .inl ⟨12, rfl⟩, .inr ⟨.plus, rfl⟩, by simp⟩
  · have hwide : Text.isBlank '\u2003' = true := rfl
    simpa using hwide
  · simp [Token.literal, Token.operatorAt]
  · obtain ⟨front, hfront, -, hsame⟩ := hagain _ _ hread
    have heq : [.literal 7 0, .operatorAt .plus 3] ++ [Token.endAt 4] =
        front ++ [.endAt 4] := hfront
    obtain ⟨rfl, -⟩ := List.append_inj' heq rfl
    exact hsame [] [⟨.literal 7 0, []⟩, ⟨.operatorAt .plus 3, []⟩] rfl
      ⟨by simp, by simp, by simp [Token.literal, Token.operatorAt]⟩

end Abacus
