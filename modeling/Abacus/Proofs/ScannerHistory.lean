import Abacus.Proofs.Offsets
import Abacus.Proofs.Progress
import Mathlib.Data.List.GetD

/-!
# A scanner in use

A scanner can be asked for tokens one by one, iterated over to the end or for a while, handed to an
evaluation and set to a new line, in any order. `History` keeps, next to the scanner, the line it
was last set to and all items pulled from it since. `Pulls` says that some items are read one behind
the other; every operation pulls its items so (`pulls_operation`), hence a whole history does
(`pulls_history`), and `history_reads_one_stream` follows: all operations share one stream of items,
which `StreamOf` describes in terms of the line alone, and the offset is a function of the last item
pulled.
-/
namespace Abacus.Scanner

/-! ## The stream of a line -/

/-- The stream of a line. If the line scans, it is its tokens, and then its end for ever; otherwise
it is the tokens in front of the first character that is not known, and then the error at this
character for ever. -/
structure StreamOf (line : List Char) (stream : ℕ → Item) : Prop where
  scans : ∀ tokens, tokenize line = .ok tokens →
    ∀ n, stream n = .ok (tokens.getD n (.endAt line.length))
  fails : ∀ e, tokenize line = .error e →
    ∃ before after tokens, line = before ++ e.char :: after ∧ e.pos = before.length ∧
      (∀ c ∈ before, isKnown c = true) ∧ isKnown e.char = false ∧
      tokenize before = .ok (tokens ++ [.endAt before.length]) ∧
      ∀ n, stream n = (tokens.map .ok).getD n (.error e)

theorem getD_append_singleton {α : Type} (xs : List α) (last : α) (n : ℕ) :
    (xs ++ [last]).getD n last = xs.getD n last := by
  by_cases h : n < xs.length
  · rw [List.getD_append _ _ _ _ h]
  · have hle : xs.length ≤ n := by omega
    rw [List.getD_append_right _ _ _ _ hle, List.getD_eq_default xs _ hle]
    cases n - xs.length <;> rfl

theorem item_ofLine (line : List Char) (n : ℕ) :
    (ofLine line).item n = ((ofLine line).drain.tokens.map .ok).getD n (lineEnd line) := by
  rw [item_eq_getD, items_ofLine, (drain_stop (ofLine line)).1]
  exact getD_append_singleton _ _ n

theorem streamOf_item (line : List Char) : StreamOf line (ofLine line).item := by
  constructor
  · intro tokens h n
    obtain ⟨t, hend, rfl⟩ := tokenize_eq_ok_iff.mp h
    obtain rfl := lineEnd_eq_ok hend
    rw [item_ofLine, hend, List.getD_map, getD_append_singleton]
  · intro e h
    rw [tokenize_eq] at h
    rcases known_or_unknown line with hknown | ⟨before, c, after, rfl, hbefore, hc⟩
    · rw [lineEnd_of_known hknown] at h
      exact absurd h (by simp)
    · rw [lineEnd_of_unknown hbefore hc] at h
      obtain rfl : ⟨c, before.length⟩ = e := Except.error.inj h
      refine ⟨before, after, (ofLine (before ++ c :: after)).drain.tokens, rfl, rfl, hbefore, hc,
        ?_, ?_⟩
      · -- The tokens in front are those of the text before the character, which scans.
        have hfront : (ofLine (before ++ c :: after)).known = ofLine before := by
          rw [known, ofLine, List.takeWhile_append_of_pos hbefore,
            List.takeWhile_cons_of_neg (by simp [hc]), List.append_nil]
          rfl
        rw [← drain_tokens_known, hfront]
        exact tokenize_eq_ok_iff.mpr ⟨_, lineEnd_of_known hbefore, rfl⟩
      · intro n
        rw [item_ofLine, lineEnd_of_unknown hbefore hc]

/-! ## Operations -/

/-- What a scanner in use can be asked for. -/
inductive Operation
  /-- One token. -/
  | next
  /-- All tokens up to the end of the line. -/
  | drain
  /-- All tokens, given up after a number of them. -/
  | take (limit : ℕ)
  /-- The evaluation of the rest of the line. -/
  | parse
  /-- A new line. -/
  | reset (line : List Char)

namespace Operation

/-- The scanner behind an operation. -/
def scanner : Operation → Scanner → Scanner
  | next, s => s.next.2
  | drain, s => s.drain.scanner
  | take limit, s => (s.take limit).scanner
  | parse, s => (evaluateFrom s).scanner
  | reset line, _ => ofLine line

/-- The items that an operation pulls. An iteration pulls the item that ends it as well, unless it
is given up before. -/
def pulled : Operation → Scanner → List Item
  | next, s => [s.next.1]
  | drain, s => s.drain.tokens.map .ok ++ [s.drain.last]
  | take limit, s =>
    (s.take limit).tokens.map .ok ++
      if (s.take limit).tokens.length < limit then [(s.take limit).last] else []
  | parse, s => (Progress.start.course s.items).items
  | reset _, _ => []

/-- Whether an operation sets the scanner to a new line. -/
def isReset : Operation → Bool
  | reset _ => true
  | _ => false

end Operation

/-- Items read one behind the other, and the scanner behind them. -/
inductive Pulls : Scanner → List Item → Scanner → Prop
  | nil (s : Scanner) : Pulls s [] s
  | cons {s s' : Scanner} {items : List Item} (h : Pulls s.next.2 items s') :
      Pulls s (s.next.1 :: items) s'

theorem Pulls.append {s s' s'' : Scanner} {xs ys : List Item} (hx : Pulls s xs s')
    (hy : Pulls s' ys s'') : Pulls s (xs ++ ys) s'' := by
  induction hx with
  | nil s => exact hy
  | cons h ih => exact .cons (ih hy)

theorem Pulls.eq_skip {s s' : Scanner} {items : List Item} (h : Pulls s items s') :
    s' = s.skip items.length := by
  induction h with
  | nil s => rfl
  | cons h ih => exact ih

theorem Pulls.getElem? {s s' : Scanner} {items : List Item} (h : Pulls s items s') {n : ℕ}
    (hn : n < items.length) : items[n]? = some (s.item n) := by
  induction h generalizing n with
  | nil s => exact absurd hn (by simp)
  | cons h ih =>
    cases n with
    | zero => rfl
    | succ n => simpa [item_succ] using ih (by simpa using hn)

theorem pulls_drain (s : Scanner) : Pulls s s.items s.drain.scanner := by
  induction s using Scanner.induction with
  | step s ih =>
    rcases s.last_or_token with h | ⟨h, t, hitem, ht⟩
    · rw [items_of_isLast h, drain_of_isLast h]
      exact .cons (.nil _)
    · rw [items_of_token hitem ht, drain_of_token hitem ht]
      exact .cons (ih h)

theorem pulls_take (s : Scanner) (limit : ℕ) :
    Pulls s (Operation.pulled (.take limit) s) (s.take limit).scanner := by
  induction limit generalizing s with
  | zero => exact .nil s
  | succ limit ih =>
    rcases s.last_or_token with h | ⟨-, t, hitem, ht⟩
    · have hlast := take_last_of_isLast h limit
      rw [take_of_isLast h] at hlast
      simp only [Operation.pulled, take_of_isLast h, hlast, List.map_nil, List.length_nil,
        Nat.succ_pos, if_true, List.nil_append]
      exact .cons (.nil _)
    · have hrest := Pulls.cons (ih s.next.2)
      rw [hitem] at hrest
      simpa [Operation.pulled, take_of_token hitem ht, Pull.last] using hrest

theorem pulls_course (p : Progress) (s : Scanner) :
    Pulls s (p.course s.items).items (p.finish s).scanner := by
  induction s using Scanner.induction generalizing p with
  | step s ih =>
    cases hmove : p.move s.next.1 with
    | stop outcome =>
      rw [Progress.course_items_of_stop hmove, Progress.finish_eq, hmove]
      exact .cons (.nil _)
    | goOn steps q =>
      rw [Progress.course_items_of_goOn hmove, Progress.finish_eq, hmove]
      exact .cons (ih (Progress.isLast_of_goOn hmove) q)

/-- Every operation on the line in hand pulls its items one behind the other. -/
theorem pulls_operation (s : Scanner) {op : Operation} (h : op.isReset = false) :
    Pulls s (op.pulled s) (op.scanner s) := by
  cases op with
  | next => exact .cons (.nil _)
  | drain => exact pulls_drain s
  | take limit => exact pulls_take s limit
  | parse => exact pulls_course .start s
  | reset line => exact absurd h (by simp [Operation.isReset])

theorem length_pulled_take_le (s : Scanner) (limit : ℕ) :
    (Operation.pulled (.take limit) s).length ≤ s.rest.length + 1 := by
  induction limit generalizing s with
  | zero => simp [Operation.pulled, take]
  | succ limit ih =>
    rcases s.last_or_token with h | ⟨-, t, hitem, ht⟩
    · simp [Operation.pulled, take_of_isLast h]
    · have hlt := rest_next_lt hitem ht
      have hle := ih s.next.2
      simp only [Operation.pulled, take_of_token hitem ht, Pull.last, List.map_cons,
        List.cons_append, List.length_cons, Nat.add_lt_add_iff_right] at hle ⊢
      omega

/-- No operation goes on for ever: each reads at most one item for every character of the rest, and
the last one. -/
theorem length_pulled_le (s : Scanner) (op : Operation) :
    (op.pulled s).length ≤ s.rest.length + 1 := by
  cases op with
  | next => simp [Operation.pulled]
  | drain => exact length_items_le s
  | take limit => exact length_pulled_take_le s limit
  | parse =>
    exact Nat.le_trans (Progress.course_items_prefix .start s.items).length_le (length_items_le s)
  | reset line => simp [Operation.pulled]

/-! ## Histories -/

/-- A scanner in use: the line it was last set to, where it stands, and the items pulled from it
since. -/
structure History where
  line : List Char
  scanner : Scanner
  items : List Item

namespace History

/-- A scanner set to a line. -/
def start (line : List Char) : History := ⟨line, ofLine line, []⟩

/-- The history with one more operation. -/
def perform (h : History) : Operation → History
  | .reset line => start line
  | op => ⟨h.line, op.scanner h.scanner, h.items ++ op.pulled h.scanner⟩

/-- The history of a scanner made for a line. -/
def run (line : List Char) (ops : List Operation) : History := ops.foldl perform (start line)

theorem perform_of_not_isReset (h : History) {op : Operation} (hop : op.isReset = false) :
    h.perform op = ⟨h.line, op.scanner h.scanner, h.items ++ op.pulled h.scanner⟩ := by
  cases op with
  | reset line => exact absurd hop (by simp [Operation.isReset])
  | _ => rfl

/-- **One operation** keeps the items one behind the other. -/
theorem pulls_perform {h : History} (hp : Pulls (ofLine h.line) h.items h.scanner)
    (op : Operation) :
    Pulls (ofLine (h.perform op).line) (h.perform op).items (h.perform op).scanner := by
  cases hop : op.isReset with
  | false =>
    rw [perform_of_not_isReset h hop]
    exact hp.append (pulls_operation h.scanner hop)
  | true =>
    cases op with
    | reset line => exact .nil _
    | _ => exact absurd hop (by simp [Operation.isReset])

/-- **All operations** since the last new line have read its items one behind the other. -/
theorem pulls_history (line : List Char) (ops : List Operation) :
    Pulls (ofLine (run line ops).line) (run line ops).items (run line ops).scanner := by
  -- The operations may also go on from any other history that keeps its items in order.
  suffices h : ∀ h : History, Pulls (ofLine h.line) h.items h.scanner →
      Pulls (ofLine (ops.foldl perform h).line) (ops.foldl perform h).items
        (ops.foldl perform h).scanner from h (start line) (.nil _)
  induction ops with
  | nil => exact fun h hp => hp
  | cons op ops ih => exact fun h hp => ih (h.perform op) (pulls_perform hp op)

/-- The laws of a scanner in use. -/
structure Law (h : History) : Prop where
  /-- The items pulled are the first ones of the stream of the line. -/
  one_stream : ∃ stream, StreamOf h.line stream ∧
    h.items = (List.range h.items.length).map stream
  /-- The rest of the scanner is what the line has from its offset on. -/
  on_line : On h.line h.scanner
  /-- The offset is the one behind the last item pulled. -/
  offset : h.scanner.pos = offsetBehind h.line h.items.getLast?
  /-- A token other than the end of the line moves the offset on. -/
  advances : ∀ n t, h.items[n]? = some (.ok t) → t.isEnd = false →
    offsetBehind h.line (h.items.take n).getLast? < tokenEnd h.line t
  /-- Only a new line moves the offset back. -/
  never_back : ∀ op : Operation, op.isReset = false →
    h.scanner.pos ≤ (op.scanner h.scanner).pos
  /-- Every iteration and every evaluation ends. -/
  ends : ∀ op : Operation,
    (op.pulled h.scanner).length ≤ h.line.length - h.scanner.pos + 1
  /-- The items that an evaluation pulls settle its outcome. -/
  settles : (Progress.start.course (Operation.parse.pulled h.scanner)).outcome =
    some (evaluateFrom h.scanner).outcome

/-- The offset behind the first items of a history. -/
theorem offsetBehind_take {line : List Char} {items : List Item} {s : Scanner}
    (hp : Pulls (ofLine line) items s) {n : ℕ} (hn : n ≤ items.length) :
    offsetBehind line (items.take n).getLast? = ((ofLine line).skip n).pos := by
  cases n with
  | zero => rfl
  | succ n =>
    have hlast : (items.take (n + 1)).getLast? = some ((ofLine line).item n) := by
      rw [List.take_add_one, hp.getElem? (by omega)]
      simp
    rw [hlast, pos_skip_succ]

theorem law_of_pulls {h : History} (hp : Pulls (ofLine h.line) h.items h.scanner) : h.Law := by
  have hskip := hp.eq_skip
  have hon : On h.line h.scanner := hskip ▸ (on_ofLine h.line).skip _
  constructor
  · refine ⟨_, streamOf_item h.line, List.ext_getElem? fun n => ?_⟩
    by_cases hn : n < h.items.length
    · rw [hp.getElem? hn]
      simp [hn]
    · simp [hn]
  · exact hon
  · have hall := offsetBehind_take hp (Nat.le_refl _)
    rw [List.take_length] at hall
    rw [hall, ← hskip]
  · intro n t hitem ht
    have hn : n < h.items.length := (List.getElem?_eq_some_iff.mp hitem).1
    have hread : ((ofLine h.line).skip n).next.1 = .ok t :=
      Option.some.inj ((hp.getElem? hn).symm.trans hitem)
    obtain ⟨-, hpos, -, hadvance⟩ := ((on_ofLine h.line).skip n).next
    rw [hread] at hpos hadvance
    have hlt := hadvance ht
    rw [hpos] at hlt
    rw [offsetBehind_take hp (by omega)]
    exact hlt
  · intro op hop
    rw [(pulls_operation h.scanner hop).eq_skip]
    exact hon.pos_le_skip _
  · intro op
    have hle := length_pulled_le h.scanner op
    rw [hon.rest_eq, List.length_drop] at hle
    exact hle
  · have hcourse := (Progress.finish_course .start h.scanner).1
    rw [Operation.pulled, Progress.course_items_course]
    exact hcourse

end History

/-- **Whatever is asked of a scanner, it reads one stream.** After any operations in any order the
laws hold for the line it was last set to, and a new line makes it a new scanner. -/
theorem history_reads_one_stream (line : List Char) (ops : List Operation) :
    (History.run line ops).Law ∧
      ∀ line' ops', History.run line (ops ++ .reset line' :: ops') = History.run line' ops' := by
  refine ⟨History.law_of_pulls (History.pulls_history line ops), ?_⟩
  intro line' ops'
  rw [History.run, List.foldl_append]
  rfl

end Abacus.Scanner
