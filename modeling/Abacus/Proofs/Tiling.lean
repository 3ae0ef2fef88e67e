import Abacus.Proofs.Offsets
import Mathlib.Data.List.Sort

/-!
# The tokens of a line tile it

`Spells` says which characters of a line write a token: an operator its own character, a literal a
run of digits that goes on neither to the left nor to the right. `Tiling` is the lexical grammar of
a whole line in these terms, without a scanner: tokens in the order of their offsets that share out
all characters but the blanks. Two tokens that share a character are the same
(`Spells.eq_of_overlap`), so a line has at most one tiling; every scanner reads one
(`drain_tiles`), and `tokenize_iff` puts both together with the lines that have none.
-/
namespace Abacus

/-- A digit stands at an index of a line. -/
def DigitAt (cs : List Char) (i : ℕ) : Prop := ∃ c, cs[i]? = some c ∧ c.isDigit = true

/-- The characters from `start` up to `stop` of a line write a token. -/
inductive Spells (cs : List Char) : Token → ℕ → ℕ → Prop
  /-- An operator is written by one character. -/
  | operator {op : Operator} {start : ℕ} (h : cs[start]? = some op.toChar) :
      Spells cs (.operatorAt op start) start (start + 1)
  /-- A literal is written by a longest run of digits, which is its value in base ten. -/
  | literal {start stop : ℕ} (hlt : start < stop)
      (hrun : ∀ i, start ≤ i → i < stop → DigitAt cs i)
      (hbefore : ∀ i, i + 1 = start → ¬DigitAt cs i) (hbehind : ¬DigitAt cs stop) :
      Spells cs
        (.literal (Nat.ofDigitChars 10 ((cs.drop start).take (stop - start)) 0) start) start stop

/-- The character at an index is one of those that write a token. -/
def Covers (cs : List Char) (t : Token) (i : ℕ) : Prop :=
  ∃ start stop, Spells cs t start stop ∧ start ≤ i ∧ i < stop

/-- A list is the tokens of a line: they come in the order of their offsets, the last one is the end
of the line, and the others share out the characters that are not blank. -/
structure Tiling (cs : List Char) (tokens : List Token) : Prop where
  increasing : tokens.Pairwise fun t u => t.pos < u.pos
  ends : ∃ front, tokens = front ++ [.endAt cs.length] ∧
    (∀ t ∈ front, ∃ start stop, Spells cs t start stop) ∧
    ∀ i c, cs[i]? = some c →
      (Text.isBlank c = false → ∃! t, t ∈ front ∧ Covers cs t i) ∧
      (Text.isBlank c = true → ∀ t ∈ front, ¬Covers cs t i)

namespace Spells
variable {cs : List Char} {t u : Token} {start stop i : ℕ}

/-! ## The characters of one token -/

theorem lt (h : Spells cs t start stop) : start < stop := by
  cases h with
  | operator h => exact Nat.lt_succ_self start
  | literal hlt hrun hbefore hbehind => exact hlt

theorem pos_eq (h : Spells cs t start stop) : t.pos = start := by
  cases h <;> rfl

theorem covers (h : Spells cs t start stop) : Covers cs t start :=
  ⟨start, stop, h, Nat.le_refl start, h.lt⟩

/-- The characters of a token are an operator or digits. -/
theorem getElem? (h : Spells cs t start stop) (hstart : start ≤ i) (hstop : i < stop) :
    (∃ op pos, t = .operatorAt op pos ∧ cs[i]? = some op.toChar) ∨
      (∃ value pos, t = .literal value pos) ∧ DigitAt cs i := by
  cases h with
  | @operator op _ h =>
    obtain rfl : i = start := by omega
    exact .inl ⟨op, i, rfl, h⟩
  | literal hlt hrun hbefore hbehind => exact .inr ⟨⟨_, _, rfl⟩, hrun i hstart hstop⟩

theorem exists_getElem? (h : Spells cs t start stop) (hstart : start ≤ i) (hstop : i < stop) :
    ∃ c, cs[i]? = some c := by
  rcases h.getElem? hstart hstop with ⟨op, pos, -, hop⟩ | ⟨-, c, hc, hdigit⟩
  · exact ⟨_, hop⟩
  · exact ⟨c, hc⟩

theorem le_length (h : Spells cs t start stop) : stop ≤ cs.length := by
  have hlt := h.lt
  obtain ⟨c, hc⟩ := h.exists_getElem? (i := stop - 1) (by omega) (by omega)
  have hindex := (List.getElem?_eq_some_iff.mp hc).1
  omega

theorem isBlank_eq_false {c : Char} (h : Covers cs t i) (hc : cs[i]? = some c) :
    Text.isBlank c = false := by
  obtain ⟨start, stop, h, hstart, hstop⟩ := h
  rcases h.getElem? hstart hstop with ⟨op, pos, -, hop⟩ | ⟨-, d, hd, hdigit⟩
  · obtain rfl : c = op.toChar := Option.some.inj (hc.symm.trans hop)
    exact Operator.isBlank_toChar op
  · obtain rfl : c = d := Option.some.inj (hc.symm.trans hd)
    exact isBlank_of_isDigit hdigit

theorem isKnown_eq_true {c : Char} (h : Covers cs t i) (hc : cs[i]? = some c) :
    Scanner.isKnown c = true := by
  obtain ⟨start, stop, h, hstart, hstop⟩ := h
  rcases h.getElem? hstart hstop with ⟨op, pos, -, hop⟩ | ⟨-, d, hd, hdigit⟩
  · obtain rfl : c = op.toChar := Option.some.inj (hc.symm.trans hop)
    exact Scanner.isKnown_toChar op
  · obtain rfl : c = d := Option.some.inj (hc.symm.trans hd)
    simp [Scanner.isKnown, hdigit]

theorem not_digitAt_of_operator {op : Operator} (h : cs[i]? = some op.toChar) :
    ¬DigitAt cs i := by
  rintro ⟨c, hc, hdigit⟩
  obtain rfl : op.toChar = c := Option.some.inj (h.symm.trans hc)
  simp at hdigit

/-- **Two tokens that share a character are the same.** -/
theorem eq_of_overlap (ht : Covers cs t i) (hu : Covers cs u i) : t = u := by
  obtain ⟨start, stop, ht, hstart, hstop⟩ := ht
  obtain ⟨start', stop', hu, hstart', hstop'⟩ := hu
  cases ht with
  | @operator op _ hop =>
    obtain rfl : i = start := by omega
    cases hu with
    | @operator op' _ hop' =>
      obtain rfl : i = start' := by omega
      have hchars : some (some op) = some (some op') := by
        simpa using congrArg (Option.map Operator.ofChar?) (hop.symm.trans hop')
      obtain rfl : op = op' := Option.some.inj (Option.some.inj hchars)
      rfl
    | literal hlt hrun hbefore hbehind =>
      exact absurd (hrun i hstart' hstop') (not_digitAt_of_operator hop)
  | literal hlt hrun hbefore hbehind =>
    cases hu with
    | @operator op' _ hop' =>
      obtain rfl : i = start' := by omega
      exact absurd (hrun i hstart hstop) (not_digitAt_of_operator hop')
    | literal hlt' hrun' hbefore' hbehind' =>
      -- A run that starts or stops inside another one would have a digit next to it.
      have hstarts : start = start' := by
        rcases Nat.lt_trichotomy start start' with hless | heq | hmore
        · exact absurd (hrun (start' - 1) (by omega) (by omega))
            (hbefore' (start' - 1) (by omega))
        · exact heq
        · exact absurd (hrun' (start - 1) (by omega) (by omega)) (hbefore (start - 1) (by omega))
      have hstops : stop = stop' := by
        rcases Nat.lt_trichotomy stop stop' with hless | heq | hmore
        · exact absurd (hrun' stop (by omega) hless) hbehind
        · exact heq
        · exact absurd (hrun stop' (by omega) hmore) hbehind'
      rw [hstarts, hstops]

end Spells

namespace Tiling
variable {cs : List Char} {tokens tokens' : List Token}

/-- A token that spells characters of the line is one of the tokens of a tiling. -/
theorem mem_front {front : List Token} {t : Token} {start stop : ℕ}
    (hcovered : ∀ i c, cs[i]? = some c → Text.isBlank c = false →
      ∃ u ∈ front, Covers cs u i)
    (h : Spells cs t start stop) : t ∈ front := by
  obtain ⟨c, hc⟩ := h.exists_getElem? (Nat.le_refl start) h.lt
  obtain ⟨u, hu, hcover⟩ := hcovered start c hc (Spells.isBlank_eq_false h.covers hc)
  rwa [Spells.eq_of_overlap h.covers hcover]

/-- **A line has at most one tiling.** -/
theorem eq (h : Tiling cs tokens) (h' : Tiling cs tokens') : tokens = tokens' := by
  obtain ⟨hincreasing, front, rfl, hspelled, hshared⟩ := h
  obtain ⟨hincreasing', front', rfl, hspelled', hshared'⟩ := h'
  have hirrefl : Std.Irrefl fun t u : Token => t.pos < u.pos := ⟨fun t => lt_irrefl t.pos⟩
  have hantisymm : Std.Antisymm fun t u : Token => t.pos < u.pos :=
    ⟨fun t u htu hut => absurd htu hut.not_gt⟩
  congr 1
  refine List.Subset.antisymm_of_pairwise (List.pairwise_append.mp hincreasing).1
    (List.pairwise_append.mp hincreasing').1 ?_ ?_
  · intro t ht
    obtain ⟨start, stop, h⟩ := hspelled t ht
    exact mem_front (fun i c hc hb => ((hshared' i c hc).1 hb).exists) h
  · intro t ht
    obtain ⟨start, stop, h⟩ := hspelled' t ht
    exact mem_front (fun i c hc hb => ((hshared i c hc).1 hb).exists) h

/-- Only known characters stand in a line that has a tiling. -/
theorem isKnown (h : Tiling cs tokens) : ∀ c ∈ cs, Scanner.isKnown c = true := by
  obtain ⟨-, front, -, -, hshared⟩ := h
  intro c hc
  obtain ⟨i, hi⟩ := List.getElem?_of_mem hc
  cases hb : Text.isBlank c with
  | true => simp [Scanner.isKnown, hb]
  | false =>
    obtain ⟨t, -, hcover⟩ := ((hshared i c hi).1 hb).exists
    exact Spells.isKnown_eq_true hcover hi

end Tiling

namespace Scanner

/-! ## What a scanner reads -/

/-- No run of digits goes on across an offset. -/
def Uncut (cs : List Char) (pos : ℕ) : Prop :=
  ∀ i, i + 1 = pos → DigitAt cs i → ¬DigitAt cs pos

theorem uncut_zero (cs : List Char) : Uncut cs 0 := fun i hi => by omega

theorem On.getElem? {cs : List Char} {s : Scanner} (h : On cs s) (j : ℕ) :
    cs[s.pos + j]? = s.rest[j]? := by
  rw [h.rest_eq, List.getElem?_drop]

/-- The characters in front of a scanner in a line, by their indices there. -/
theorem On.getElem?_first {cs first rest : List Char} {pos i : ℕ}
    (h : On cs ⟨first ++ rest, pos⟩) (hlo : pos ≤ i) (hhi : i < pos + first.length) :
    ∃ c ∈ first, cs[i]? = some c := by
  obtain ⟨j, rfl⟩ := Nat.exists_eq_add_of_le hlo
  have hj : j < first.length := by omega
  refine ⟨first[j], List.getElem_mem hj, ?_⟩
  rw [h.getElem? j, List.getElem?_append_left hj, List.getElem?_eq_getElem hj]

theorem On.forall_first {p : Char → Bool} {cs first rest : List Char} {pos : ℕ}
    (h : On cs ⟨first ++ rest, pos⟩) (hp : ∀ c ∈ first, p c = true) (i : ℕ) (c : Char)
    (hlo : pos ≤ i) (hhi : i < pos + first.length) (hc : cs[i]? = some c) : p c = true := by
  obtain ⟨d, hd, hi⟩ := h.getElem?_first hlo hhi
  obtain rfl : c = d := Option.some.inj (hc.symm.trans hi)
  exact hp c hd

theorem On.not_digitAt {cs rest : List Char} {pos : ℕ} (h : On cs ⟨rest, pos⟩)
    (hrest : rest.takeWhile Char.isDigit = []) : ¬DigitAt cs pos := by
  rintro ⟨c, hc, hdigit⟩
  have hget := h.getElem? 0
  cases rest with
  | nil =>
    rw [show cs[pos + 0]? = some c from hc] at hget
    exact absurd hget (by simp)
  | cons d rest =>
    obtain rfl : c = d := by
      rw [show cs[pos + 0]? = some c from hc] at hget
      simpa using hget
    simp [hdigit] at hrest

/-- In front of the digit behind the blanks that are skipped there is no other one. -/
theorem On.not_digitAt_before {cs blanks rest : List Char} {pos : ℕ}
    (hon : On cs ⟨blanks ++ rest, pos⟩) (hcut : Uncut cs pos)
    (hb : ∀ c ∈ blanks, Text.isBlank c = true) (hbehind : DigitAt cs (pos + blanks.length)) {i : ℕ}
    (hi : i + 1 = pos + blanks.length) : ¬DigitAt cs i := by
  intro hdigit
  by_cases hblank : pos ≤ i
  · obtain ⟨c, hc, hisDigit⟩ := hdigit
    have hisBlank := hon.forall_first hb i c hblank (by omega) hc
    rw [isBlank_of_isDigit hisDigit] at hisBlank
    exact absurd hisBlank (by decide)
  · -- Without blanks the run starts where the scanner stands.
    have hlen : pos + blanks.length = pos := by omega
    rw [hlen] at hi hbehind
    exact hcut i hi hdigit hbehind

/-- **What one request reads** is written by the characters behind the blanks, and the offset moves
behind them. -/
theorem On.spells_next {cs : List Char} {s : Scanner} {t : Token} (hon : On cs s)
    (hcut : Uncut cs s.pos) (h : s.next.1 = .ok t) (ht : t.isEnd = false) :
    ∃ start, Spells cs t start s.next.2.pos ∧ s.pos ≤ start ∧
      (∀ i c, s.pos ≤ i → i < start → cs[i]? = some c → Text.isBlank c = true) ∧
      Uncut cs s.next.2.pos := by
  have hread := reads_next s
  rcases hnext : s.next with ⟨item, s'⟩
  rw [hnext] at h hread
  subst h
  cases hread with
  | ending hb => simp at ht
  | @operator blanks tail pos op hb =>
    have hop : cs[pos + blanks.length]? = some op.toChar := by
      simpa using hon.drop.getElem? 0
    refine ⟨pos + blanks.length, .operator hop, Nat.le_add_right _ _, hon.forall_first hb, ?_⟩
    intro i hi hdigit
    obtain rfl : i = pos + blanks.length := Nat.succ.inj hi
    exact absurd hdigit (Spells.not_digitAt_of_operator hop)
  | @literal blanks digits tail pos hb hne hd htail =>
    have hblanks := hon.forall_first hb
    have hstart : On cs ⟨digits ++ tail, pos + blanks.length⟩ := hon.drop
    have hbehind := hstart.drop.not_digitAt htail
    have hpos := List.length_pos_iff.mpr hne
    have hrun : ∀ i, pos + blanks.length ≤ i → i < pos + blanks.length + digits.length →
        DigitAt cs i := by
      intro i hlo hhi
      obtain ⟨c, hc, hi⟩ := hstart.getElem?_first hlo hhi
      exact ⟨c, hi, hd c hc⟩
    have hbefore : ∀ i, i + 1 = pos + blanks.length → ¬DigitAt cs i :=
      fun i => hon.not_digitAt_before hcut hb (hrun _ (by omega) (by omega))
    have hdigits : digits = (cs.drop (pos + blanks.length)).take
        (pos + blanks.length + digits.length - (pos + blanks.length)) := by
      rw [← hstart.rest_eq, Nat.add_sub_cancel_left]
      exact List.take_left.symm
    refine ⟨pos + blanks.length, ?_, Nat.le_add_right _ _, hblanks, fun i _ _ => hbehind⟩
    have hspells := Spells.literal (Nat.lt_add_of_pos_right hpos) hrun hbefore hbehind
    rwa [← hdigits] at hspells

/-- In front of the end of a line of known characters there are blanks only. -/
theorem On.isBlank_of_isLast {cs : List Char} {s : Scanner} (hon : On cs s)
    (hknown : ∀ c ∈ cs, isKnown c = true) (h : isLast s.next.1 = true) {i : ℕ} {c : Char}
    (hi : s.pos ≤ i) (hc : cs[i]? = some c) : Text.isBlank c = true := by
  have hmem : c ∈ s.rest := by
    obtain ⟨j, rfl⟩ := Nat.exists_eq_add_of_le hi
    rw [hon.getElem? j] at hc
    exact List.mem_of_getElem? hc
  have hrest : ∀ d ∈ s.rest, isKnown d = true := by
    intro d hd
    rw [hon.rest_eq] at hd
    exact hknown d (List.mem_of_mem_drop hd)
  have hread := reads_next s
  rcases hnext : s.next with ⟨item, s'⟩
  rw [hnext] at h hread
  cases hread with
  | ending hb => exact hb c hmem
  | operator op hb => simp at h
  | literal hb hne hd ht => simp at h
  | @unknown blanks tail d pos hb hd =>
    rw [hrest d (by simp)] at hd
    exact absurd hd (by decide)

/-- **What a scanner reads to the end of its line** are tokens in the order of their offsets that
cover all characters in front of it but the blanks. -/
theorem drain_tiles {cs : List Char} {s : Scanner} (hon : On cs s) (hcut : Uncut cs s.pos)
    (hknown : ∀ c ∈ cs, isKnown c = true) :
    (∀ t ∈ s.drain.tokens, ∃ start stop, Spells cs t start stop ∧ s.pos ≤ start) ∧
      (s.drain.tokens.Pairwise fun t u => t.pos < u.pos) ∧
      ∀ i c, s.pos ≤ i → cs[i]? = some c → Text.isBlank c = false →
        ∃ t ∈ s.drain.tokens, Covers cs t i := by
  induction s using Scanner.induction with
  | step s ih =>
    rcases s.last_or_token with hlast | ⟨hlast, t, hitem, ht⟩
    · rw [drain_of_isLast hlast]
      refine ⟨by simp, List.Pairwise.nil, ?_⟩
      intro i c hi hc hb
      rw [hon.isBlank_of_isLast hknown hlast hi hc] at hb
      exact absurd hb (by decide)
    · obtain ⟨start, hspells, hstart, hblanks, hcut'⟩ := hon.spells_next hcut hitem ht
      obtain ⟨hspelled, hincreasing, hcovered⟩ :=
        ih hlast hon.next.1 hcut'
      rw [drain_of_token hitem ht]
      refine ⟨?_, ?_, ?_⟩
      · intro u hu
        rcases List.mem_cons.mp hu with rfl | hu
        · exact ⟨start, _, hspells, hstart⟩
        · obtain ⟨start', stop', hu, hle⟩ := hspelled u hu
          have hlt := hspells.lt
          exact ⟨start', stop', hu, by omega⟩
      · refine List.pairwise_cons.mpr ⟨?_, hincreasing⟩
        intro u hu
        obtain ⟨start', stop', hu, hle⟩ := hspelled u hu
        have hlt := hspells.lt
        rw [hspells.pos_eq, hu.pos_eq]
        omega
      · intro i c hi hc hb
        by_cases hbefore : i < start
        · rw [hblanks i c hi hbefore hc] at hb
          exact absurd hb (by decide)
        by_cases hbehind : i < s.next.2.pos
        · exact ⟨t, List.mem_cons_self, start, _, hspells, by omega, hbehind⟩
        · obtain ⟨u, hu, hcover⟩ := hcovered i c (by omega) hc hb
          exact ⟨u, List.mem_cons_of_mem t hu, hcover⟩

theorem isKnown_of_lineEnd {line : List Char} {t : Token} (h : lineEnd line = .ok t) :
    ∀ c ∈ line, isKnown c = true := by
  rcases known_or_unknown line with hknown | ⟨before, c, after, rfl, hbefore, hc⟩
  · exact hknown
  · rw [lineEnd_of_unknown hbefore hc] at h
    exact absurd h (by simp)

/-- A line of known characters is tiled by the tokens that are read from it. -/
theorem tiling_drain {line : List Char} (h : ∀ c ∈ line, isKnown c = true) :
    Tiling line ((ofLine line).drain.tokens ++ [.endAt line.length]) := by
  obtain ⟨hspelled, hincreasing, hcovered⟩ := drain_tiles (on_ofLine line) (uncut_zero line) h
  constructor
  · refine List.pairwise_append.mpr ⟨hincreasing, List.pairwise_singleton _ _, ?_⟩
    intro t ht u hu
    obtain ⟨start, stop, hspells, -⟩ := hspelled t ht
    obtain rfl := List.mem_singleton.mp hu
    rw [hspells.pos_eq]
    exact Int.ofNat_lt.mpr (hspells.lt.trans_le hspells.le_length)
  · refine ⟨_, rfl, ?_, ?_⟩
    · intro t ht
      obtain ⟨start, stop, hspells, -⟩ := hspelled t ht
      exact ⟨start, stop, hspells⟩
    · intro i c hc
      constructor
      · intro hb
        obtain ⟨t, ht, hcover⟩ := hcovered i c (Nat.zero_le i) hc hb
        exact ⟨t, ⟨ht, hcover⟩, fun u hu => Spells.eq_of_overlap hu.2 hcover⟩
      · intro hb t ht hcover
        rw [Spells.isBlank_eq_false hcover hc] at hb
        exact absurd hb (by decide)

/-- The lines whose tokens are read are those that have a tiling, and the tokens are the tiling. -/
theorem tokenize_eq_ok_iff_tiling (line : List Char) (tokens : List Token) :
    tokenize line = .ok tokens ↔ Tiling line tokens := by
  constructor
  · intro h
    obtain ⟨t, hend, rfl⟩ := tokenize_eq_ok_iff.mp h
    obtain rfl := lineEnd_eq_ok hend
    exact tiling_drain (isKnown_of_lineEnd hend)
  · intro h
    have htiling := tiling_drain h.isKnown
    rw [h.eq htiling]
    exact tokenize_eq_ok_iff.mpr ⟨_, lineEnd_of_known h.isKnown, rfl⟩

/-- A line whose tokens are not read has a first character that is not known, and fails there. -/
theorem tokenize_eq_error_iff_unknown (line : List Char) (e : ScanError) :
    tokenize line = .error e ↔
      ∃ before after, line = before ++ e.char :: after ∧ e.pos = before.length ∧
        (∀ c ∈ before, isKnown c = true) ∧ isKnown e.char = false := by
  rw [tokenize_eq]
  constructor
  · intro h
    rcases known_or_unknown line with hknown | ⟨before, c, after, rfl, hbefore, hc⟩
    · rw [lineEnd_of_known hknown] at h
      exact absurd h (by simp)
    · rw [lineEnd_of_unknown hbefore hc] at h
      obtain rfl : ⟨c, before.length⟩ = e := Except.error.inj h
      exact ⟨before, after, rfl, rfl, hbefore, hc⟩
  · rintro ⟨before, after, rfl, hpos, hbefore, hc⟩
    rw [lineEnd_of_unknown hbefore hc, ← hpos]

/-- A character that can stand in no line is neither a blank nor a digit nor an operator. -/
theorem isKnown_eq_false_iff {c : Char} :
    isKnown c = false ↔
      Text.isBlank c = false ∧ c.isDigit = false ∧ c ∉ ['+', '-', '*', '/'] := by
  have hop : Operator.ofChar? c = none ↔ c ∉ ['+', '-', '*', '/'] := by
    rw [Option.eq_none_iff_forall_ne_some]
    simp only [ne_eq, Operator.ofChar?_eq_some_iff, List.mem_cons, List.not_mem_nil, or_false,
      not_or]
    constructor
    · exact fun h => ⟨h .plus, h .minus, h .multiply, h .divide⟩
    · rintro ⟨hplus, hminus, hmultiply, hdivide⟩ op
      cases op <;> assumption
  rw [isKnown_eq_false, hop]

end Scanner

/-- **The lexical grammar.** Reading the tokens of a line fails just when a character of it is
neither a blank nor a digit nor an operator, and then at the first such character. Of any other line
the tokens are its only tiling. -/
theorem tokenize_iff (line : List Char) :
    ((∃ e, tokenize line = .error e) ↔
      ∃ c ∈ line, Text.isBlank c = false ∧ c.isDigit = false ∧ c ∉ ['+', '-', '*', '/']) ∧
    (∀ e, tokenize line = .error e ↔
      ∃ before after, line = before ++ e.char :: after ∧ e.pos = before.length ∧
        (∀ c ∈ before, Scanner.isKnown c = true) ∧ Scanner.isKnown e.char = false) ∧
    ∀ tokens, tokenize line = .ok tokens ↔ Tiling line tokens := by
  refine ⟨?_, Scanner.tokenize_eq_error_iff_unknown line, Scanner.tokenize_eq_ok_iff_tiling line⟩
  simp only [← Scanner.isKnown_eq_false_iff, Scanner.tokenize_eq_error_iff_unknown]
  constructor
  · rintro ⟨e, before, after, rfl, -, -, hc⟩
    exact ⟨e.char, by simp, hc⟩
  · rintro ⟨c, hmem, hc⟩
    rcases Scanner.known_or_unknown line with hknown | ⟨before, d, after, rfl, hbefore, hd⟩
    · rw [hknown c hmem] at hc
      exact absurd hc (by decide)
    · exact ⟨⟨d, before.length⟩, before, after, rfl, rfl, hbefore, hd⟩

/-- A blank of any script is one, and zeros in front belong to a literal. -/
example : tokenize ['\u2003', '0', '0', '7', '+'] =
    .ok [.literal 7 1, .operatorAt .plus 4, .endAt 5] := by decide

end Abacus
