import Abacus.Proofs.Scanning

/-!
# The stream of items

`Scanner.item s k` is the item behind `k` others, for every `k`. `Scanner.items s` is the part of
this stream that says something: the tokens up to the end of the line or to an error, and that last
item. `item_eq_getD` puts the two together: behind its items a scanner repeats the last one.

`drain_stop` and `drain_tokens_known` say where the stream ends, in terms of the line alone: at
the first character that is not known, the tokens being those of the text before it.
-/
namespace Abacus.Scanner

/-- The scanner behind a number of items. -/
def skip : ℕ → Scanner → Scanner
  | 0, s => s
  | n + 1, s => skip n s.next.2

/-- The item behind a number of items. -/
def item (s : Scanner) (n : ℕ) : Item := (s.skip n).next.1

@[simp] theorem skip_zero (s : Scanner) : s.skip 0 = s := rfl

theorem skip_succ (s : Scanner) (n : ℕ) : s.skip (n + 1) = s.next.2.skip n := rfl

@[simp] theorem item_zero (s : Scanner) : s.item 0 = s.next.1 := rfl

theorem item_succ (s : Scanner) (n : ℕ) : s.item (n + 1) = s.next.2.item n := rfl

theorem skip_skip (s : Scanner) (m n : ℕ) : (s.skip m).skip n = s.skip (m + n) := by
  induction m generalizing s with
  | zero => simp
  | succ m ih => rw [skip_succ, ih, Nat.succ_add_eq_add_succ, Nat.add_succ, skip_succ]

theorem next_skip (s : Scanner) (n : ℕ) : (s.skip n).next.2 = s.skip (n + 1) :=
  skip_skip s n 1

/-- Behind a last item nothing changes any more. -/
theorem skip_of_isLast {s : Scanner} (h : isLast s.next.1 = true) (n : ℕ) :
    s.skip (n + 1) = s.next.2 := by
  induction n with
  | zero => rfl
  | succ n ih => rw [← next_skip, ih, next_next_of_isLast h]

theorem item_of_isLast {s : Scanner} (h : isLast s.next.1 = true) (n : ℕ) :
    s.item n = s.next.1 := by
  cases n with
  | zero => rfl
  | succ n => rw [item, skip_of_isLast h, next_next_of_isLast h]

/-! ## Runs of a scanner -/

/-- What stopped a run: its error, or else the end of the line. -/
def Pull.last (p : Pull) : Item :=
  match p.error with
  | some e => .error e
  | none => .ok (.endAt p.scanner.pos)

/-- The error of an item. -/
def errorOf : Item → Option ScanError
  | .ok _ => none
  | .error e => some e

/-- A run that meets a last item stops there. -/
theorem take_of_isLast {s : Scanner} (h : isLast s.next.1 = true) (n : ℕ) :
    s.take (n + 1) = ⟨[], errorOf s.next.1, s.next.2⟩ := by
  rw [take]
  rcases hnext : s.next with ⟨e | t, s'⟩
  · rfl
  · have ht : t.isEnd = true := by simpa [hnext] using h
    simp [ht, errorOf]

theorem take_of_token {s : Scanner} {t : Token} (h : s.next.1 = .ok t) (ht : t.isEnd = false)
    (n : ℕ) :
    s.take (n + 1) =
      ⟨t :: (s.next.2.take n).tokens, (s.next.2.take n).error, (s.next.2.take n).scanner⟩ := by
  have hnext : s.next = (.ok t, s.next.2) := Prod.ext h rfl
  rw [take, hnext]
  simp [ht]

theorem take_last_of_isLast {s : Scanner} (h : isLast s.next.1 = true) (n : ℕ) :
    (s.take (n + 1)).last = s.next.1 := by
  have hread := reads_next s
  rw [take_of_isLast h]
  generalize s.next = r at h hread ⊢
  obtain ⟨item, s'⟩ := r
  cases hread with
  | ending hb => rfl
  | operator op hb => simp at h
  | literal hb hne hd ht => simp at h
  | unknown hb hc => rfl

/-- Two runs that may both read more tokens than the rest has characters are the same. -/
theorem take_eq_take {s : Scanner} {m n : ℕ} (hm : s.rest.length < m) (hn : s.rest.length < n) :
    s.take m = s.take n := by
  induction s using Scanner.induction generalizing m n with
  | step s ih =>
    obtain ⟨m, rfl⟩ := Nat.exists_eq_add_one_of_ne_zero (Nat.ne_zero_of_lt hm)
    obtain ⟨n, rfl⟩ := Nat.exists_eq_add_one_of_ne_zero (Nat.ne_zero_of_lt hn)
    rcases s.last_or_token with h | ⟨h, t, hitem, ht⟩
    · rw [take_of_isLast h, take_of_isLast h]
    · have hlt := rest_lt_of_not_isLast h
      rw [take_of_token hitem ht, take_of_token hitem ht,
        ih h (show s.next.2.rest.length < m by omega) (show s.next.2.rest.length < n by omega)]

theorem drain_of_isLast {s : Scanner} (h : isLast s.next.1 = true) :
    s.drain = ⟨[], errorOf s.next.1, s.next.2⟩ :=
  take_of_isLast h _

theorem drain_last_of_isLast {s : Scanner} (h : isLast s.next.1 = true) :
    s.drain.last = s.next.1 :=
  take_last_of_isLast h _

theorem drain_of_token {s : Scanner} {t : Token} (h : s.next.1 = .ok t) (ht : t.isEnd = false) :
    s.drain = ⟨t :: s.next.2.drain.tokens, s.next.2.drain.error, s.next.2.drain.scanner⟩ := by
  have hlt := rest_next_lt h ht
  have heq : s.next.2.take s.rest.length = s.next.2.drain :=
    take_eq_take hlt (Nat.lt_succ_self _)
  rw [drain, take_of_token h ht, heq]

theorem drain_last_of_token {s : Scanner} {t : Token} (h : s.next.1 = .ok t)
    (ht : t.isEnd = false) : s.drain.last = s.next.2.drain.last := by
  rw [drain_of_token h ht]
  rfl

/-! ## The items of a scanner -/

/-- All items of a scanner up to the first last one. -/
def items (s : Scanner) : List Item := s.drain.tokens.map .ok ++ [s.drain.last]

theorem items_of_isLast {s : Scanner} (h : isLast s.next.1 = true) : s.items = [s.next.1] := by
  rw [items, drain_last_of_isLast h, drain_of_isLast h]
  rfl

theorem items_of_token {s : Scanner} {t : Token} (h : s.next.1 = .ok t) (ht : t.isEnd = false) :
    s.items = s.next.1 :: s.next.2.items := by
  rw [items, drain_last_of_token h ht, drain_of_token h ht, h]
  rfl

theorem items_of_not_isLast {s : Scanner} (h : isLast s.next.1 = false) :
    s.items = s.next.1 :: s.next.2.items := by
  rcases s.last_or_token with hlast | ⟨-, t, hitem, ht⟩
  · rw [hlast] at h
    exact absurd h (by decide)
  · exact items_of_token hitem ht

/-- Scanners with the same next item and the same scanner behind it have the same items. -/
theorem items_congr {s s' : Scanner} (h : s.next = s'.next) : s.items = s'.items := by
  cases hlast : isLast s.next.1 with
  | true =>
    have hlast' : isLast s'.next.1 = true := h ▸ hlast
    rw [items_of_isLast hlast, items_of_isLast hlast', h]
  | false =>
    have hlast' : isLast s'.next.1 = false := h ▸ hlast
    rw [items_of_not_isLast hlast, items_of_not_isLast hlast', h]

theorem exists_items_eq_cons (s : Scanner) : ∃ rest, s.items = s.next.1 :: rest := by
  rcases s.last_or_token with h | ⟨-, t, hitem, ht⟩
  · exact ⟨[], items_of_isLast h⟩
  · exact ⟨_, items_of_token hitem ht⟩

/-- **A scanner reads its items in order and then repeats the last one.** -/
theorem item_eq_getD (s : Scanner) (n : ℕ) : s.item n = s.items.getD n s.drain.last := by
  induction s using Scanner.induction generalizing n with
  | step s ih =>
    rcases s.last_or_token with h | ⟨h, t, hitem, ht⟩
    · rw [item_of_isLast h, items_of_isLast h, drain_last_of_isLast h]
      cases n <;> simp
    · rw [items_of_token hitem ht, drain_last_of_token hitem ht]
      cases n with
      | zero => rfl
      | succ n => rw [item_succ, ih h, List.getD_cons_succ]

theorem length_items_le (s : Scanner) : s.items.length ≤ s.rest.length + 1 := by
  induction s using Scanner.induction with
  | step s ih =>
    rcases s.last_or_token with h | ⟨h, t, hitem, ht⟩
    · simp [items_of_isLast h]
    · have hlt := rest_lt_of_not_isLast h
      have hle := ih h
      rw [items_of_token hitem ht, List.length_cons]
      omega

/-! ## Where the stream ends -/

theorem isKnown_of_isBlank {cs : List Char} (h : ∀ c ∈ cs, Text.isBlank c = true) :
    ∀ c ∈ cs, isKnown c = true := by
  intro c hc
  simp [isKnown, h c hc]

theorem isKnown_of_isDigit {cs : List Char} (h : ∀ c ∈ cs, c.isDigit = true) :
    ∀ c ∈ cs, isKnown c = true := by
  intro c hc
  simp [isKnown, h c hc]

@[simp] theorem isKnown_toChar (op : Operator) : isKnown op.toChar = true := by
  simp [isKnown]

/-- The last item of a scanner that stands at the end of the line or at a character that is not
known. -/
def stopItem (s : Scanner) : Item :=
  match s.rest with
  | [] => .ok (.endAt s.pos)
  | c :: _ => .error ⟨c, s.pos⟩

/-- A last item is read where the known characters end. -/
theorem next_of_isLast {s : Scanner} (h : isLast s.next.1 = true) :
    s.next = (stopItem (s.skipWhile isKnown), s.skipWhile isKnown) := by
  have hread := reads_next s
  rcases hnext : s.next with ⟨item, s'⟩
  rw [hnext] at h hread
  cases hread with
  | ending hb =>
    rw [skipWhile_all (isKnown_of_isBlank hb)]
    rfl
  | operator op hb => simp at h
  | literal hb hne hd ht => simp at h
  | unknown hb hc =>
    rw [skipWhile_append (isKnown_of_isBlank hb), skipWhile_of_takeWhile_nil (by simp [hc])]
    rfl

/-- A token other than the end of the line holds known characters only, so what is behind the
known characters of a text is the same before the token and behind it. -/
theorem skipWhile_isKnown_next {s : Scanner} (h : isLast s.next.1 = false) :
    s.next.2.skipWhile isKnown = s.skipWhile isKnown := by
  have hread := reads_next s
  rcases hnext : s.next with ⟨item, s'⟩
  rw [hnext] at h hread
  cases hread with
  | ending hb => simp at h
  | @operator blanks tail pos op hb =>
    have hall : ∀ c ∈ blanks ++ [op.toChar], isKnown c = true := by
      simpa [or_imp, forall_and] using isKnown_of_isBlank hb
    have hskip := @skipWhile_append isKnown _ tail pos hall
    simpa [Nat.add_assoc] using hskip.symm
  | @literal blanks digits tail pos hb hne hd ht =>
    have hall : ∀ c ∈ blanks ++ digits, isKnown c = true :=
      List.forall_mem_append.mpr ⟨isKnown_of_isBlank hb, isKnown_of_isDigit hd⟩
    have hskip := @skipWhile_append isKnown _ tail pos hall
    simpa [Nat.add_assoc] using hskip.symm
  | unknown hb hc => simp at h

/-- **Reading all tokens ends at the first character that is not known.** -/
theorem drain_stop (s : Scanner) :
    s.drain.last = stopItem (s.skipWhile isKnown) ∧ s.drain.scanner = s.skipWhile isKnown := by
  induction s using Scanner.induction with
  | step s ih =>
    rcases s.last_or_token with h | ⟨h, t, hitem, ht⟩
    · rw [drain_last_of_isLast h, drain_of_isLast h, next_of_isLast h]
      exact ⟨rfl, rfl⟩
    · rw [drain_last_of_token hitem ht, drain_of_token hitem ht, ← skipWhile_isKnown_next h]
      exact ih h

/-- The scanner that sees no more than the known characters in front of it. -/
def known (s : Scanner) : Scanner := ⟨s.rest.takeWhile isKnown, s.pos⟩

theorem takeWhile_takeWhile_nil {p q : Char → Bool} {cs : List Char} (h : cs.takeWhile p = []) :
    (cs.takeWhile q).takeWhile p = [] := by
  cases cs with
  | nil => rfl
  | cons c cs =>
    have hc : p c = false := by simpa using h
    by_cases hq : q c = true
    · simp [hq, hc]
    · simp [hq]

theorem next_known {s : Scanner} (h : isLast s.next.1 = false) :
    s.known.next = (s.next.1, s.next.2.known) := by
  have hread := reads_next s
  rcases hnext : s.next with ⟨item, s'⟩
  rw [hnext] at h hread
  apply next_of_reads
  cases hread with
  | ending hb => simp at h
  | operator op hb =>
    rw [known, List.takeWhile_append_of_pos (isKnown_of_isBlank hb),
      List.takeWhile_cons_of_pos (isKnown_toChar op)]
    exact Reads.operator op hb
  | literal hb hne hd ht =>
    rw [known, List.takeWhile_append_of_pos (isKnown_of_isBlank hb),
      List.takeWhile_append_of_pos (isKnown_of_isDigit hd)]
    exact Reads.literal hb hne hd (takeWhile_takeWhile_nil ht)
  | unknown hb hc => simp at h

theorem isLast_next_known {s : Scanner} (h : isLast s.next.1 = true) :
    isLast s.known.next.1 = true := by
  have hread := reads_next s
  rcases hnext : s.next with ⟨item, s'⟩
  rw [hnext] at h hread
  cases hread with
  | ending hb =>
    rw [known, List.takeWhile_eq_self_iff.mpr (isKnown_of_isBlank hb),
      next_of_reads (Reads.ending hb)]
    rfl
  | operator op hb => simp at h
  | literal hb hne hd ht => simp at h
  | unknown hb hc =>
    rw [known, List.takeWhile_append_of_pos (isKnown_of_isBlank hb),
      List.takeWhile_cons_of_neg (by simp [hc]), List.append_nil, next_of_reads (Reads.ending hb)]
    rfl

/-- The tokens of a line are those of the known characters in front. -/
theorem drain_tokens_known (s : Scanner) : s.known.drain.tokens = s.drain.tokens := by
  induction s using Scanner.induction with
  | step s ih =>
    rcases s.last_or_token with h | ⟨h, t, hitem, ht⟩
    · rw [drain_of_isLast h, drain_of_isLast (isLast_next_known h)]
    · have hknown : s.known.next = (.ok t, s.next.2.known) := by rw [next_known h, hitem]
      have hfirst : s.known.next.1 = .ok t := by rw [hknown]
      rw [drain_of_token hitem ht, drain_of_token hfirst ht, hknown]
      simp only [ih h]

/-- A token is the end of the line, a literal or an operator, each with the value that its kind
has. -/
theorem token_of_next {s : Scanner} {t : Token} (h : s.next.1 = .ok t) :
    (∃ pos, t = .endAt pos) ∨ (∃ value pos, t = .literal value pos) ∨
      ∃ op pos, t = .operatorAt op pos := by
  have hread := reads_next s
  rw [h] at hread
  generalize s.next.2 = s' at hread
  cases hread with
  | ending hb => exact .inl ⟨_, rfl⟩
  | operator op hb => exact .inr (.inr ⟨op, _, rfl⟩)
  | literal hb hne hd ht => exact .inr (.inl ⟨_, _, rfl⟩)

theorem mem_drain_tokens {s : Scanner} {t : Token} (h : t ∈ s.drain.tokens) :
    (∃ value pos, t = .literal value pos) ∨ ∃ op pos, t = .operatorAt op pos := by
  induction s using Scanner.induction with
  | step s ih =>
    rcases s.last_or_token with hlast | ⟨hlast, u, hitem, hu⟩
    · simp [drain_of_isLast hlast] at h
    · rw [drain_of_token hitem hu] at h
      rcases List.mem_cons.mp h with rfl | h
      · rcases token_of_next hitem with ⟨pos, rfl⟩ | h
        · simp at hu
        · exact h
      · exact ih hlast h

/-! ## Whole lines -/

/-- The item that ends a line: the first character that is not known, or else the end. -/
def lineEnd (line : List Char) : Item := stopItem ((ofLine line).skipWhile isKnown)

theorem lineEnd_of_known {line : List Char} (h : ∀ c ∈ line, isKnown c = true) :
    lineEnd line = .ok (.endAt line.length) := by
  rw [lineEnd, ofLine, skipWhile_all h]
  simp [stopItem]

theorem lineEnd_of_unknown {before after : List Char} {c : Char}
    (h : ∀ d ∈ before, isKnown d = true) (hc : isKnown c = false) :
    lineEnd (before ++ c :: after) = .error ⟨c, before.length⟩ := by
  rw [lineEnd, ofLine, skipWhile_append h, skipWhile_of_takeWhile_nil (by simp [hc])]
  simp [stopItem]

/-- A line consists of known characters, or else it has a first one that is not known. -/
theorem known_or_unknown (line : List Char) :
    (∀ c ∈ line, isKnown c = true) ∨
      ∃ before c after, line = before ++ c :: after ∧ (∀ d ∈ before, isKnown d = true) ∧
        isKnown c = false := by
  obtain ⟨before, rest, rfl, hbefore, hrest⟩ := exists_eq_run_append isKnown line
  cases rest with
  | nil => exact .inl (by simpa using hbefore)
  | cons c after => exact .inr ⟨before, c, after, rfl, hbefore, by simpa using hrest⟩

@[simp] theorem isLast_lineEnd (line : List Char) : isLast (lineEnd line) = true := by
  rw [lineEnd, stopItem]
  split <;> rfl

theorem lineEnd_eq_ok {line : List Char} {t : Token} (h : lineEnd line = .ok t) :
    t = .endAt line.length := by
  rcases known_or_unknown line with hknown | ⟨before, c, after, rfl, hbefore, hc⟩
  · rw [lineEnd_of_known hknown] at h
    exact (Except.ok.inj h).symm
  · rw [lineEnd_of_unknown hbefore hc] at h
    exact absurd h (by simp)

theorem items_ofLine (line : List Char) :
    (ofLine line).items = (ofLine line).drain.tokens.map .ok ++ [lineEnd line] := by
  rw [items, (drain_stop (ofLine line)).1, lineEnd]

theorem tokenize_eq (line : List Char) :
    tokenize line =
      match lineEnd line with
      | .ok t => .ok ((ofLine line).drain.tokens ++ [t])
      | .error e => .error e := by
  rw [lineEnd, ← (drain_stop (ofLine line)).1, tokenize, Pull.last]
  cases (ofLine line).drain.error <;> rfl

theorem tokenize_eq_ok_iff {line : List Char} {tokens : List Token} :
    tokenize line = .ok tokens ↔
      ∃ t, lineEnd line = .ok t ∧ tokens = (ofLine line).drain.tokens ++ [t] := by
  rw [tokenize_eq]
  cases lineEnd line <;> simp [eq_comm]

end Abacus.Scanner
