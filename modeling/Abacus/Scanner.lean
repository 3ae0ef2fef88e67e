import Abacus.Text.Blank
import Abacus.Token

/-!
# Scanning a line

A scanner is the unread rest of a line and its offset. `Scanner.next` skips blanks and reads one
token: the longest run of digits, an operator or the end of the line, which can be read again and
again. At any other character it fails and stays there, so it fails in the same way again.

`Scanner.rest_next_lt` says that every token but the end of the line uses up some of it; reading
all tokens and evaluating a line end for that reason.
-/

namespace Abacus

/-- A character that no token starts with, and its offset. -/
structure ScanError where
  char : Char
  pos : Nat
  deriving DecidableEq

/-- The wording of a scanning error. -/
def ScanError.message (e : ScanError) : String := s!"cannot parse input {e.char}"

/-- The unread rest of a line and the offset at which it starts. -/
structure Scanner where
  rest : List Char
  pos : Nat
  deriving DecidableEq

namespace Scanner

/-- A scanner at the start of a line. -/
def ofLine (line : List Char) : Scanner := ⟨line, 0⟩

/-- The scanner behind the leading characters that have a property. -/
def skipWhile (p : Char → Bool) (s : Scanner) : Scanner :=
  ⟨s.rest.dropWhile p, s.pos + (s.rest.takeWhile p).length⟩

/-- Read the token that starts at the scanner, where no blank is left. -/
def readToken (s : Scanner) : Except ScanError Token × Scanner :=
  match s.rest with
  | [] => (.ok (.endAt s.pos), s)
  | c :: rest =>
    match Operator.ofChar? c with
    | some op => (.ok (.operatorAt op s.pos), ⟨rest, s.pos + 1⟩)
    | none =>
      if c.isDigit then
        let digits := s.rest.takeWhile Char.isDigit
        (.ok (.literal (Nat.ofDigitChars 10 digits 0) s.pos), s.skipWhile Char.isDigit)
      else (.error ⟨c, s.pos⟩, s)

/-- Skip blanks and read one token. -/
def next (s : Scanner) : Except ScanError Token × Scanner :=
  (s.skipWhile Text.isBlank).readToken

theorem length_dropWhile_le (p : Char → Bool) (cs : List Char) :
    (cs.dropWhile p).length ≤ cs.length :=
  (List.dropWhile_sublist p).length_le

theorem rest_readToken_le (s : Scanner) : s.readToken.2.rest.length ≤ s.rest.length := by
  unfold readToken
  split
  · exact Nat.le_refl _
  · next c rest h =>
    split
    · simp [h]
    · split
      · exact length_dropWhile_le _ _
      · exact Nat.le_refl _

theorem rest_readToken_lt {s : Scanner} {t : Token} (h : s.readToken.1 = .ok t)
    (ht : t.isEnd = false) : s.readToken.2.rest.length < s.rest.length := by
  unfold readToken at h ⊢
  split at h
  · cases h; cases ht
  · next c rest hs =>
    split at h
    · next op hop => simp [hs]
    · next hop =>
      split at h
      · next hc =>
        simp only [hs, hc, if_true, skipWhile, List.dropWhile_cons, List.length_cons]
        exact Nat.lt_succ_of_le (length_dropWhile_le _ _)
      · cases h

/-- Reading never lengthens the rest. -/
theorem rest_next_le (s : Scanner) : s.next.2.rest.length ≤ s.rest.length :=
  Nat.le_trans (rest_readToken_le _) (length_dropWhile_le _ _)

/-- A token other than the end of the line uses up some of the rest. -/
theorem rest_next_lt {s : Scanner} {t : Token} (h : s.next.1 = .ok t) (ht : t.isEnd = false) :
    s.next.2.rest.length < s.rest.length :=
  Nat.lt_of_lt_of_le (rest_readToken_lt h ht) (length_dropWhile_le _ _)

/-- What a run of a scanner reads: tokens before the end of the line, the error that stopped the
run if one did, and the scanner behind them. -/
structure Pull where
  tokens : List Token
  error : Option ScanError
  scanner : Scanner

/-- Read up to a number of tokens, stopping at the end of the line and at an error. -/
def take : Nat → Scanner → Pull
  | 0, s => ⟨[], none, s⟩
  | n + 1, s =>
    match s.next with
    | (.error e, s') => ⟨[], some e, s'⟩
    | (.ok t, s') =>
      if t.isEnd then ⟨[], none, s'⟩
      else
        let rest := take n s'
        { rest with tokens := t :: rest.tokens }

/-- Read all tokens before the end of the line. -/
def drain (s : Scanner) : Pull := s.take (s.rest.length + 1)

end Scanner

/-- All tokens of a line, the end of the line included. -/
def tokenize (line : List Char) : Except ScanError (List Token) :=
  let pull := (Scanner.ofLine line).drain
  match pull.error with
  | some e => .error e
  | none => .ok (pull.tokens ++ [.endAt pull.scanner.pos])

end Abacus
