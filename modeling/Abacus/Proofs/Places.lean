import Abacus.Proofs.Progress

/-!
# Evaluations and places

A token, an error and a failure cite a place in the line. Nothing is decided by it: an evaluation
over items at other places makes the same moves and cites those places (`course_relocate`), and a
scanner that starts further right reads the same items further right (`items_shift`).

`said` is what a text says, its items without their places. `agree_outcome` says that lines that say
the same have outcomes that agree: the same number, or failures that differ in the place they cite
at most.
-/
namespace Abacus
open Scanner (Item)

/-! ## At other places -/

/-- The token at the place that a function gives for its own. -/
def Token.relocate (f : ℕ → ℕ) (t : Token) : Token := { t with pos := f t.pos.toNat }

/-- The error at the place that a function gives for its own. -/
def ScanError.relocate (f : ℕ → ℕ) (e : ScanError) : ScanError := { e with pos := f e.pos }

/-- The item at the place that a function gives for its own. -/
def Scanner.relocateItem (f : ℕ → ℕ) : Item → Item
  | .ok t => .ok (t.relocate f)
  | .error e => .error (e.relocate f)

/-- The failure at the place that a function gives for the one it cites. -/
def Failure.relocate (f : ℕ → ℕ) : Failure → Failure
  | scan e => scan (e.relocate f)
  | grammar expected found => grammar expected (found.relocate f)
  | arithmetic e => arithmetic e

/-- The move to which an item at another place leads. -/
def Move.relocate (f : ℕ → ℕ) : Move → Move
  | goOn steps p => goOn steps p
  | stop outcome => stop (outcome.mapError (Failure.relocate f))

/-- The course of an evaluation over items at other places. -/
def Progress.Course.relocate (f : ℕ → ℕ) (c : Progress.Course) : Progress.Course :=
  ⟨c.items.map (Scanner.relocateItem f), c.steps,
    c.outcome.map (Except.mapError (Failure.relocate f))⟩

section Relocation
variable (f : ℕ → ℕ)

@[simp] theorem mapError_ok {ε ε' α : Type} (g : ε → ε') (a : α) :
    (Except.ok a : Except ε α).mapError g = .ok a := rfl

@[simp] theorem mapError_error {ε ε' α : Type} (g : ε → ε') (e : ε) :
    (Except.error e : Except ε α).mapError g = .error (g e) := rfl

@[simp] theorem relocate_literal (value pos : ℕ) :
    (Token.literal value pos).relocate f = .literal value (f pos) := rfl

@[simp] theorem relocate_operatorAt (op : Operator) (pos : ℕ) :
    (Token.operatorAt op pos).relocate f = .operatorAt op (f pos) := rfl

/-- The message of a failure does not tell its place. -/
@[simp] theorem message_relocate (e : Failure) : (e.relocate f).message = e.message := by
  cases e <;> rfl

theorem expectInteger_relocate (t : Token) :
    (t.relocate f).expectInteger = t.expectInteger.mapError (Failure.relocate f) := by
  obtain ⟨kind, value, pos⟩ := t
  cases kind <;> cases value <;> rfl

theorem expectOperator_relocate (t : Token) :
    (t.relocate f).expectOperator = t.expectOperator.mapError (Failure.relocate f) := by
  obtain ⟨kind, value, pos⟩ := t
  cases kind <;> rfl

/-- **An item at another place leads to the same move**, which cites the other place if it cites
any. -/
theorem move_relocate (p : Progress) (item : Item) :
    p.move (Scanner.relocateItem f item) = (p.move item).relocate f := by
  cases item with
  | error e => rfl
  | ok t =>
    simp only [Scanner.relocateItem, Progress.move]
    cases p with
    | start =>
      simp only [Progress.moveToken, expectInteger_relocate]
      cases t.expectInteger <;> rfl
    | afterValue acc reduced =>
      have hend : (t.relocate f).isEnd = t.isEnd := rfl
      simp only [Progress.moveToken, expectOperator_relocate, hend]
      cases reduced && t.isEnd
      · cases t.expectOperator <;> rfl
      · rfl
    | afterOperator acc op =>
      simp only [Progress.moveToken, expectInteger_relocate]
      cases t.expectInteger with
      | error e => rfl
      | ok n =>
        simp only [mapError_ok]
        cases acc.operate op (.integer n) <;> rfl

/-- **Over items at other places an evaluation takes the same course.** -/
theorem course_relocate (p : Progress) (items : List Item) :
    p.course (items.map (Scanner.relocateItem f)) = (p.course items).relocate f := by
  induction items generalizing p with
  | nil => rfl
  | cons item rest ih =>
    have hmove := move_relocate f p item
    rw [List.map_cons]
    cases h : p.move item with
    | stop outcome =>
      rw [h, Move.relocate] at hmove
      rw [Progress.course_of_stop hmove, Progress.course_of_stop h]
      rfl
    | goOn steps q =>
      rw [h, Move.relocate] at hmove
      rw [Progress.course_of_goOn hmove, Progress.course_of_goOn h, ih q]
      rfl

end Relocation

/-! ## Scanners further right -/

namespace Scanner

/-- The scanner of the same rest, so much further right. -/
def shift (d : ℕ) (s : Scanner) : Scanner := ⟨s.rest, s.pos + d⟩

theorem skipWhile_shift (p : Char → Bool) (d : ℕ) (s : Scanner) :
    (s.shift d).skipWhile p = (s.skipWhile p).shift d := by
  simp only [skipWhile, shift, Nat.add_right_comm]

theorem readToken_shift (d : ℕ) (s : Scanner) :
    (s.shift d).readToken = (relocateItem (· + d) s.readToken.1, s.readToken.2.shift d) := by
  obtain ⟨rest, pos⟩ := s
  cases rest with
  | nil => rfl
  | cons c rest =>
    simp only [readToken, skipWhile_shift]
    cases hop : Operator.ofChar? c with
    | some op => simp [shift, hop, relocateItem, Nat.add_right_comm]
    | none =>
      cases hdigit : c.isDigit <;> simp [shift, hop, hdigit, relocateItem, ScanError.relocate]

/-- **A scanner further right reads the same item further right.** -/
theorem next_shift (d : ℕ) (s : Scanner) :
    (s.shift d).next = (relocateItem (· + d) s.next.1, s.next.2.shift d) := by
  rw [next, skipWhile_shift, readToken_shift, next]

theorem isLast_relocateItem (f : ℕ → ℕ) (item : Item) :
    isLast (relocateItem f item) = isLast item := by
  cases item <;> rfl

/-- **A scanner further right has the same items further right.** -/
theorem items_shift (d : ℕ) (s : Scanner) :
    (s.shift d).items = s.items.map (relocateItem (· + d)) := by
  induction s using Scanner.induction with
  | step s ih =>
    have hnext := next_shift d s
    cases hlast : isLast s.next.1 with
    | true =>
      have hshifted : isLast (s.shift d).next.1 = true := by
        rw [hnext, isLast_relocateItem, hlast]
      rw [items_of_isLast hlast, items_of_isLast hshifted, hnext]
      rfl
    | false =>
      have hshifted : isLast (s.shift d).next.1 = false := by
        rw [hnext, isLast_relocateItem, hlast]
      rw [items_of_not_isLast hlast, items_of_not_isLast hshifted, hnext, List.map_cons, ih hlast]

/-! ## What a text says -/

/-- An item without its place. -/
def unplaced : Item → Item := relocateItem fun _ => 0

@[simp] theorem unplaced_relocateItem (f : ℕ → ℕ) (item : Item) :
    unplaced (relocateItem f item) = unplaced item := by
  cases item <;> rfl

/-- What a text says: its items without their places. -/
def said (text : List Char) : List Item := (ofLine text).items.map unplaced

/-- What a scanner reads, its places apart, is what its rest says. -/
theorem items_map_unplaced (s : Scanner) : s.items.map unplaced = said s.rest := by
  have hshift : (ofLine s.rest).shift s.pos = s := by simp [ofLine, shift]
  rw [← hshift, items_shift, List.map_map, said]
  exact List.map_congr_left fun item _ => unplaced_relocateItem _ item

theorem said_last {s s' : Scanner} {item : Item} (h : s.next = (item, s'))
    (hlast : isLast item = true) : said s.rest = [unplaced item] := by
  rw [← items_map_unplaced, items_of_isLast (by rw [h]; exact hlast), h]
  rfl

theorem said_cons {s s' : Scanner} {item : Item} (h : s.next = (item, s'))
    (hlast : isLast item = false) : said s.rest = unplaced item :: said s'.rest := by
  rw [← items_map_unplaced, items_of_not_isLast (by rw [h]; exact hlast), h, List.map_cons,
    items_map_unplaced]

end Scanner

/-! ## Outcomes that agree -/

/-- A failure without the place it cites. -/
def Failure.unplaced : Failure → Failure := relocate fun _ => 0

/-- Two outcomes are the same number, or failures that differ in the place they cite at most. -/
def Agree (r r' : Except Failure Number) : Prop :=
  r.mapError Failure.unplaced = r'.mapError Failure.unplaced

theorem Agree.trans {r r' r'' : Except Failure Number} (h : Agree r r') (h' : Agree r' r'') :
    Agree r r'' :=
  Eq.trans h h'

/-- Outcomes that agree give the same message if they are failures. -/
theorem Agree.message_eq {r r' : Except Failure Number} (h : Agree r r') :
    r.mapError Failure.message = r'.mapError Failure.message := by
  have hmessage : ∀ o : Except Failure Number,
      (o.mapError Failure.unplaced).mapError Failure.message = o.mapError Failure.message := by
    intro o
    cases o with
    | ok v => rfl
    | error e => exact congrArg Except.error (message_relocate _ e)
  rw [← hmessage r, h, hmessage r']

namespace Progress

/-- **What the rest of a line says settles its evaluation**, the cited place apart: the reductions
are the same, and the outcomes agree. -/
theorem agree_finish (p : Progress) (s s' : Scanner)
    (h : Scanner.said s.rest = Scanner.said s'.rest) :
    Agree (p.finish s).outcome (p.finish s').outcome ∧
      (p.finish s).steps = (p.finish s').steps := by
  obtain ⟨houtcome, hsteps, -⟩ := p.finish_course s
  obtain ⟨houtcome', hsteps', -⟩ := p.finish_course s'
  have hcourse : (p.course s.items).relocate (fun _ => 0) =
      (p.course s'.items).relocate (fun _ => 0) := by
    rw [← course_relocate, ← course_relocate]
    change p.course (s.items.map Scanner.unplaced) = p.course (s'.items.map Scanner.unplaced)
    rw [Scanner.items_map_unplaced, Scanner.items_map_unplaced, h]
  constructor
  · have hmapped := congrArg Course.outcome hcourse
    simp only [Course.relocate, houtcome, houtcome', Option.map_some, Option.some.injEq] at hmapped
    exact hmapped
  · rw [← hsteps, ← hsteps']
    simpa only [Course.relocate] using congrArg Course.steps hcourse

end Progress

theorem agree_outcome {line line' : List Char} (h : Scanner.said line = Scanner.said line') :
    Agree (outcome line) (outcome line') :=
  (Progress.agree_finish .start (.ofLine line) (.ofLine line') h).1

end Abacus
