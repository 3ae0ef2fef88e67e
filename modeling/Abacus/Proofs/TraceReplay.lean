import Abacus.Proofs.LineGrammar
import Abacus.Proofs.LoggedEvaluation
import Abacus.Proofs.ScannerHistory
import Abacus.Proofs.SessionLog
import Abacus.Proofs.StoppingPlace

/-!
# The trace of an evaluation

At the least severe level the log of an evaluation tells its reductions one by one. `Replays` says
that reductions replay a stream of items: the first takes up the first literal and each later one
the result of the one before, each with the next operator and literal of the stream, and each result
is that of the operation. `debug_log_replays` says that the log tells such reductions and, if there
is no value, the failure behind them; and how many they are: one for each operator of a line with a
value, and one for each pair in front of the item that fails.
-/
namespace Abacus
open Scanner (Item)

/-- Reductions that replay the items of a stream. -/
structure Replays (stream : ℕ → Item) (steps : List Reduction) : Prop where
  first : ∀ r, steps[0]? = some r →
    ∃ n, Scanner.integerOf (stream 0) = some n ∧ r.lhs = .integer n
  chained : ∀ j r next, steps[j]? = some r → steps[j + 1]? = some next → next.lhs = r.result
  operands : ∀ j r, steps[j]? = some r →
    Scanner.operatorOf (stream (2 * j + 1)) = some r.op ∧
      ∃ n, Scanner.integerOf (stream (2 * j + 2)) = some n ∧ r.rhs = .integer n
  results : ∀ r ∈ steps, r.lhs.apply (.operator r.op) r.rhs = .ok r.result

section Stream
variable {stream : ℕ → Item} {steps : List Reduction} {count : ℕ}

theorem reductionAt_of_getElem? (h : steps.map some = (List.range count).map (reductionAt stream))
    {j : ℕ} {r : Reduction} (hr : steps[j]? = some r) : reductionAt stream j = some r := by
  have hmapped : (steps.map some)[j]? = some (some r) := by simp [hr]
  rw [h, List.getElem?_map] at hmapped
  obtain ⟨i, hi, hreduction⟩ := Option.map_eq_some_iff.mp hmapped
  obtain ⟨hlt, hij⟩ := List.getElem?_eq_some_iff.mp hi
  rw [List.getElem_range] at hij
  rw [hij]
  exact hreduction

/-- The reductions of the first pairs of a stream replay it. -/
theorem replays_of_map_some (h : steps.map some = (List.range count).map (reductionAt stream)) :
    Replays stream steps := by
  constructor
  · intro r hr
    obtain ⟨hlhs, -⟩ := reductionAt_eq_some_iff.mp (reductionAt_of_getElem? h hr)
    obtain ⟨n, hn, hacc⟩ := Option.map_eq_some_iff.mp hlhs
    exact ⟨n, hn, hacc.symm⟩
  · intro j r next hr hnext
    obtain ⟨-, -, -, hresult⟩ := reductionAt_eq_some_iff.mp (reductionAt_of_getElem? h hr)
    obtain ⟨hlhs, -⟩ := reductionAt_eq_some_iff.mp (reductionAt_of_getElem? h hnext)
    exact Option.some.inj (hlhs.symm.trans hresult)
  · intro j r hr
    obtain ⟨-, hop, hrhs, -⟩ := reductionAt_eq_some_iff.mp (reductionAt_of_getElem? h hr)
    exact ⟨hop, hrhs⟩
  · intro r hr
    obtain ⟨j, hj⟩ := List.mem_iff_getElem?.mp hr
    obtain ⟨hlhs, hop, ⟨n, hn, hrhs⟩, hresult⟩ :=
      reductionAt_eq_some_iff.mp (reductionAt_of_getElem? h hj)
    rw [runningResult_succ hlhs hop hn, ← hrhs] at hresult
    cases hv : r.lhs.apply (.operator r.op) r.rhs with
    | error e => rw [hv] at hresult; cases hresult
    | ok v => rw [hv] at hresult; exact congrArg Except.ok (Option.some.inj hresult)

/-- The last of the reductions of some pairs has the running result behind them. -/
theorem getLast?_result (h : steps.map some = (List.range count).map (reductionAt stream))
    (hpos : 0 < count) : steps.getLast?.map Reduction.result = runningResult stream count := by
  obtain ⟨j, rfl⟩ := Nat.exists_eq_add_one_of_ne_zero hpos.ne'
  have hlength : steps.length = j + 1 := by simpa using congrArg List.length h
  have hlast : steps[j]? = some steps[j] := List.getElem?_eq_getElem _
  obtain ⟨-, -, -, hresult⟩ := reductionAt_eq_some_iff.mp (reductionAt_of_getElem? h hlast)
  rw [List.getLast?_eq_getElem?, hlength, Nat.add_sub_cancel, hlast, hresult, Option.map_some]

end Stream

/-! ## The operators of a line -/

/-- Whether a token is an operator. -/
def Token.isOperator (t : Token) : Bool :=
  match t.kind with
  | .operator _ => true
  | _ => false

theorem countP_isOperator_lineLabels (first : ℤ) (pairs : List (Operator × ℤ)) :
    (lineLabels first pairs).countP
        (fun label => (Token.mk label.1 label.2 0).isOperator) = pairs.length := by
  rw [lineLabels, List.countP_cons_of_neg (by simp [Token.isOperator])]
  induction pairs with
  | nil => rfl
  | cons pair pairs ih =>
    obtain ⟨op, n⟩ := pair
    rw [pairLabels_cons, List.countP_cons_of_pos rfl, List.countP_cons_of_neg (by
      simp [Token.isOperator]), ih, List.length_cons]

theorem length_lineLabels (first : ℤ) (pairs : List (Operator × ℤ)) :
    (lineLabels first pairs).length = 2 * pairs.length + 1 := by
  rw [lineLabels, List.length_cons, pairLabels, List.length_flatMap]
  simp [Nat.mul_comm]

/-- The tokens of a line that spell an integer and pairs have as many operators as pairs. -/
theorem countP_isOperator {tokens : List Token} {first : ℤ} {pairs : List (Operator × ℤ)}
    (h : tokens.map Token.label = lineLabels first pairs) :
    tokens.countP Token.isOperator = pairs.length := by
  rw [← countP_isOperator_lineLabels first pairs, ← h, List.countP_map]
  rfl

/-- The first last item of a line stands behind its tokens. -/
theorem eq_length_of_isLast {line : List Char} {k : ℕ}
    (hlast : Scanner.isLast ((Scanner.ofLine line).item k) = true)
    (hbefore : ∀ j < k, Scanner.isLast ((Scanner.ofLine line).item j) = false) :
    k = (Scanner.ofLine line).drain.tokens.length := by
  rcases Nat.lt_trichotomy k (Scanner.ofLine line).drain.tokens.length with hlt | heq | hlt
  · have hitem : (Scanner.ofLine line).item k = .ok (Scanner.ofLine line).drain.tokens[k] := by
      rw [Scanner.item_ofLine]
      simp [hlt]
    rw [hitem, Scanner.isLast_ok] at hlast
    rcases Scanner.mem_drain_tokens (List.getElem_mem hlt) with ⟨value, pos, ht⟩ | ⟨op, pos, ht⟩ <;>
      simp [ht] at hlast
  · exact heq
  · have hend := hbefore _ hlt
    rw [Scanner.item_ofLine, List.getD_eq_default _ _ (by simp), Scanner.isLast_lineEnd] at hend
    cases hend

/-- A line with a value ends behind as many pairs as it has operators. -/
theorem pairsBefore_of_value {line : List Char} {v : Number} {k : ℕ} (hv : outcome line = .ok v)
    (hend : EndsAt (Scanner.ofLine line).item k)
    (hbefore : ∀ j < k, Scanner.isLast ((Scanner.ofLine line).item j) = false) :
    ∃ tokens, tokenize line = .ok tokens ∧ pairsBefore k = tokens.countP Token.isOperator := by
  obtain ⟨tokens, first, pairs, htokens, hlabels, -, -⟩ := (outcome_eq_ok_iff line v).mp hv
  refine ⟨_, htokens, ?_⟩
  obtain ⟨last, -, hsplit⟩ := Scanner.tokenize_eq_ok_iff.mp htokens
  obtain ⟨rfl, -⟩ := List.append_inj' hsplit rfl
  obtain ⟨-, -, t, hitem, hkind⟩ := hend
  have hplace := eq_length_of_isLast (by rw [hitem]; simp [Token.isEnd, hkind]) hbefore
  have hlength := congrArg List.length hlabels
  rw [List.length_map, length_lineLabels, ← hplace] at hlength
  rw [List.countP_append, countP_isOperator hlabels, hlength, pairsBefore]
  simp [Token.isOperator, Token.endAt]

/-! ## The trace -/

/-- **The log of an evaluation at the least severe level replays it.** It tells one reduction after
the other and, if there is no value, the failure at its end, all as the calculator reports it. A
line with a value has a reduction for each of its operators, the last of which gives the value; a
line without one has the reductions of the pairs in front of the item that fails, and no others. -/
theorem debug_log_replays (line : List Char) :
    let e := evaluateLogging .debug line
    e.outcome = outcome line ∧ ∃ steps,
      Replays (Scanner.ofLine line).item steps ∧
      e.log.map Record.told =
        steps.map (fun r => (.debug, "linecalc",
          s!"reduced {r.lhs.text} {r.op.text} {r.rhs.text} -> {r.result.text}")) ++
        (match outcome line with
          | .ok _ => []
          | .error cause => [(.debug, "linecalc",
              s!"evaluation of {Text.quoted line} failed: {cause.message}")]) ∧
      (∀ v, outcome line = .ok v →
        (∃ tokens, tokenize line = .ok tokens ∧
          steps.length = tokens.countP Token.isOperator) ∧
        steps.getLast?.map Reduction.result = some v) ∧
      ∀ cause, outcome line = .error cause →
        ∃ k, FirstFault (Scanner.ofLine line).item k cause ∧ steps.length = pairsBefore k := by
  intro e
  have he : e = ⟨outcome line, (evaluate line).scanner,
      ((evaluate line).records line).filter fun r => Level.debug.shows r.level⟩ :=
    evaluateLogging_eq .debug line
  have hlog : e.log = (evaluate line).records line := by
    rw [he]
    exact List.filter_eq_self.mpr fun r _ => by cases r <;> rfl
  obtain ⟨k, hsettled, hbefore, hsteps, -⟩ := exists_stop_evaluateFrom (.ofLine line)
  change SettledAt (Scanner.ofLine line).item k (outcome line) at hsettled
  change (evaluate line).steps.map some = _ at hsteps
  refine ⟨by rw [he], (evaluate line).steps, replays_of_map_some hsteps, ?_, ?_, ?_⟩
  · rw [hlog, Evaluation.records, List.map_append, List.map_map, outcome]
    cases (evaluate line).outcome <;> rfl
  · intro v hv
    rw [hv] at hsettled
    obtain ⟨hend, hresult⟩ := hsettled
    obtain ⟨tokens, htokens, hcount⟩ := pairsBefore_of_value hv hend hbefore
    refine ⟨⟨tokens, htokens, (length_of_map_some hsteps).trans hcount⟩, ?_⟩
    have hpos : 0 < pairsBefore k := by
      obtain ⟨-, hthree, -⟩ := hend
      rw [pairsBefore]
      omega
    rw [getLast?_result hsteps hpos, hresult]
  · intro cause hcause
    rw [hcause] at hsettled
    exact ⟨k, hsettled, length_of_map_some hsteps⟩

/-- The reductions in front of a division by zero are told, and the division is not. -/
example : (evaluateLogging .debug ['1', '+', '2', '/', '0', '-', '4']).log.map Record.message =
    ["reduced 1 + 2 -> 3", "evaluation of '1+2/0-4' failed: division by zero: 3 / 0"] := by
  decide +kernel

end Abacus
