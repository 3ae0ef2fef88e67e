import Abacus.Proofs.FaithfulDisplay
import Abacus.Proofs.OutputLines

/-!
# The listing of tokens

A listing shows the kind of a token, the value of a literal and the place, with commas in between.
No comma is in any of them, so that a listing can be taken apart at its first commas: tokens that
are listed alike are the same (`Token.eq_of_listing_eq`), if just the literals have values. A
listing is one line, so the output of a run that lists tokens has one line for each of them, and
`listing_faithful` says that it determines all tokens of the expression.
-/
namespace Abacus

/-! ## Parts of a listing -/

/-- A number is read off its numeral. -/
theorem toString_int_injective : Function.Injective (toString : ℤ → String) := by
  intro m n h
  have hread := congrArg Number.readBack? h
  rw [Number.readBack?_toString_int, Number.readBack?_toString_int] at hread
  exact_mod_cast Worth.rational.inj (Option.some.inj hread)

theorem comma_notMem_toString_int (n : ℤ) : ',' ∉ (toString n).toList :=
  fun h => absurd (isNumeric_toString_int h) (by decide)

/-- There is one way only to take a text apart at its first comma. -/
theorem eq_of_comma_eq {a a' b b' : String} (ha : ',' ∉ a.toList) (ha' : ',' ∉ a'.toList)
    (h : a ++ ", " ++ b = a' ++ ", " ++ b') : a = a' ∧ b = b' := by
  have hlist : a.toList ++ ',' :: ' ' :: b.toList = a'.toList ++ ',' :: ' ' :: b'.toList := by
    simpa using congrArg String.toList h
  have hcut := congrArg (cutAt ',') hlist
  rw [cutAt_append_cons ha, cutAt_append_cons ha'] at hcut
  simpa [String.toList_inj] using hcut

namespace TokenKind

/-- The kind with a name. -/
def ofName? (name : String) : Option TokenKind :=
  [endOfInput, integer, operator .plus, operator .minus, operator .multiply,
    operator .divide].find? fun kind => kind.name == name

theorem ofName?_self (kind : TokenKind) : ofName? kind.name = some kind := by
  rcases kind with _ | _ | op
  · decide
  · decide
  · cases op <;> decide

theorem name_injective : Function.Injective name := by
  intro a b h
  have hkind := congrArg ofName? h
  rwa [ofName?_self, ofName?_self, Option.some_inj] at hkind

theorem comma_notMem_name (kind : TokenKind) : ',' ∉ kind.name.toList := by
  rcases kind with _ | _ | op
  · decide
  · decide
  · cases op <;> decide

end TokenKind

/-! ## One token -/

namespace Token

/-- A token has a value just when it is an integer literal. -/
def IsProper (t : Token) : Prop := t.value.isSome = true ↔ t.kind = .integer

/-- What a listing shows last: the place of the token. -/
def placeText (t : Token) : String := "pos=" ++ toString t.pos ++ ")"

/-- What a listing shows behind the kind: the value of an integer literal, and the place. -/
def details (t : Token) : String :=
  match t.kind with
  | .integer => t.valueText ++ ", " ++ t.placeText
  | _ => t.placeText

theorem details_of_integer {t : Token} (h : t.kind = .integer) :
    t.details = t.valueText ++ ", " ++ t.placeText := by
  rw [details, h]

theorem details_of_ne {t : Token} (h : t.kind ≠ .integer) : t.details = t.placeText := by
  rw [details]
  split
  · next hkind => exact absurd hkind h
  · rfl

theorem listing_eq (t : Token) : t.listing = "Token(" ++ (t.kind.name ++ ", " ++ t.details) := by
  obtain ⟨kind, value, pos⟩ := t
  apply String.toList_injective
  cases kind <;> simp [listing, details, placeText, toString]

theorem pos_eq_of_placeText_eq {t u : Token} (h : t.placeText = u.placeText) : t.pos = u.pos := by
  rw [placeText, placeText, String.append_left_inj, String.append_right_inj] at h
  exact toString_int_injective h

theorem IsProper.exists_value {t : Token} (ht : t.IsProper) (h : t.kind = .integer) :
    ∃ n : ℤ, t.value = some n ∧ t.valueText = toString n := by
  obtain ⟨n, hn⟩ := Option.isSome_iff_exists.mp (ht.mpr h)
  exact ⟨n, hn, by rw [valueText, hn]⟩

theorem IsProper.value_eq_none {t : Token} (ht : t.IsProper) (h : t.kind ≠ .integer) :
    t.value = none := by
  rw [← Option.not_isSome_iff_eq_none]
  exact mt ht.mp h

/-- Tokens of one kind with the same details are the same. -/
theorem eq_of_details_eq {t u : Token} (ht : t.IsProper) (hu : u.IsProper)
    (hkind : t.kind = u.kind) (h : t.details = u.details) : t = u := by
  have hrest : t.value = u.value ∧ t.placeText = u.placeText := by
    by_cases hint : t.kind = .integer
    · have hint' : u.kind = .integer := hkind ▸ hint
      obtain ⟨m, hm, hmtext⟩ := ht.exists_value hint
      obtain ⟨n, hn, hntext⟩ := hu.exists_value hint'
      rw [details_of_integer hint, details_of_integer hint', hmtext, hntext] at h
      obtain ⟨htext, hplace⟩ := eq_of_comma_eq (comma_notMem_toString_int m)
        (comma_notMem_toString_int n) h
      exact ⟨by rw [hm, hn, toString_int_injective htext], hplace⟩
    · have hint' : u.kind ≠ .integer := hkind ▸ hint
      rw [details_of_ne hint, details_of_ne hint'] at h
      exact ⟨by rw [ht.value_eq_none hint, hu.value_eq_none hint'], h⟩
  have hpos := pos_eq_of_placeText_eq hrest.2
  cases t
  cases u
  rw [Token.mk.injEq]
  exact ⟨hkind, hrest.1, hpos⟩

/-- **Tokens that are listed alike are the same.** -/
theorem eq_of_listing_eq {t u : Token} (ht : t.IsProper) (hu : u.IsProper)
    (h : t.listing = u.listing) : t = u := by
  rw [listing_eq, listing_eq, String.append_right_inj] at h
  obtain ⟨hname, hdetails⟩ := eq_of_comma_eq t.kind.comma_notMem_name u.kind.comma_notMem_name h
  exact eq_of_details_eq ht hu (TokenKind.name_injective hname) hdetails

/-- **A listing is one line**, whatever the token. -/
theorem unbroken_listing (t : Token) : Unbroken t.listing := by
  have hcomma : Unbroken ", " := .of_all (by decide)
  have hplace : Unbroken t.placeText := by
    have hopen : Unbroken "pos=" := .of_all (by decide)
    have hclose : Unbroken ")" := .of_all (by decide)
    exact (hopen.append (.of_isNumeric fun c => isNumeric_toString_int)).append hclose
  have hdetails : Unbroken t.details := by
    by_cases hint : t.kind = .integer
    · rw [details_of_integer hint]
      exact (t.unbroken_valueText.append hcomma).append hplace
    · rw [details_of_ne hint]
      exact hplace
  have hstart : Unbroken "Token(" := .of_all (by decide)
  rw [listing_eq]
  exact hstart.append ((t.kind.unbroken_name.append hcomma).append hdetails)

end Token

/-! ## Listings of expressions -/

theorem Spells.isProper {cs : List Char} {t : Token} {start stop : ℕ}
    (h : Spells cs t start stop) : t.IsProper := by
  cases h <;> simp [Token.IsProper, Token.operatorAt, Token.literal]

/-- All tokens of an expression are proper. -/
theorem isProper_of_tokenize {line : List Char} {ts : List Token} (h : tokenize line = .ok ts) :
    ∀ t ∈ ts, t.IsProper := by
  obtain ⟨front, rfl, hspelled, -⟩ := ((Scanner.tokenize_eq_ok_iff_tiling line ts).mp h).ends
  rw [List.forall_mem_append, List.forall_mem_singleton]
  refine ⟨fun t ht => ?_, by simp [Token.IsProper, Token.endAt]⟩
  obtain ⟨start, stop, hspells⟩ := hspelled t ht
  exact hspells.isProper

/-- Tokens in a row are determined by their listings. -/
theorem eq_of_map_listing_eq {ts us : List Token} (hts : ∀ t ∈ ts, t.IsProper)
    (hus : ∀ u ∈ us, u.IsProper)
    (h : ts.map (fun t => t.listing.toList) = us.map fun u => u.listing.toList) : ts = us := by
  induction ts generalizing us with
  | nil => exact (List.map_eq_nil_iff.mp h.symm).symm
  | cons t ts ih =>
    obtain ⟨u, us, rfl, hu, hrest⟩ := List.map_eq_cons_iff.mp h.symm
    obtain ⟨ht, hts⟩ := List.forall_mem_cons.mp hts
    obtain ⟨hu', hus⟩ := List.forall_mem_cons.mp hus
    rw [Token.eq_of_listing_eq ht hu' (String.toList_inj.mp hu.symm), ih hts hus hrest.symm]

namespace Program

/-- What a run writes to the output when it lists the tokens of an expression. -/
def listed (line : List Char) : String :=
  String.join (Effect.writesOn .out (runExpression line true).effects)

theorem listed_of_tokenize {line : List Char} {ts : List Token} (h : tokenize line = .ok ts) :
    listed line = String.join (ts.map fun t => t.listing ++ "\n") := by
  have hresult : resultOf Failure.message line true =
      .ok (String.join (ts.map fun t => t.listing ++ "\n")) := by
    rw [resultOf, if_pos rfl, h]
  exact ((delivers_runLine _ line true).succeeds _ hresult).2.1

/-- The lines of a listing are the listings of the tokens. -/
theorem splitLines_listed {line : List Char} {ts : List Token} (h : tokenize line = .ok ts) :
    Text.splitLines (listed line).toList = ts.map fun t => t.listing.toList := by
  rw [listed_of_tokenize h]
  exact splitLines_join fun t _ => t.unbroken_listing

/-- **Nothing is lost in a listing.** A token is determined by its listing, which is one line. So
expressions that have tokens are listed alike if and only if they have the same tokens, and there
are as many lines as tokens, the end of the line being one of them. -/
theorem listing_faithful :
    (∀ t u : Token, t.IsProper → u.IsProper → (t.listing = u.listing ↔ t = u)) ∧
    (∀ t : Token, ∀ c ∈ t.listing.toList, Text.isLineBreak c = false) ∧
    ∀ line line' ts ts', tokenize line = .ok ts → tokenize line' = .ok ts' →
      (listed line = listed line' ↔ ts = ts') ∧
      (Text.splitLines (listed line).toList).length = ts.length := by
  refine ⟨fun t u ht hu => ⟨Token.eq_of_listing_eq ht hu, congrArg Token.listing⟩,
    Token.unbroken_listing, ?_⟩
  intro line line' ts ts' h h'
  refine ⟨⟨fun heq => ?_, ?_⟩, by rw [splitLines_listed h, List.length_map]⟩
  · apply eq_of_map_listing_eq (isProper_of_tokenize h) (isProper_of_tokenize h')
    rw [← splitLines_listed h, ← splitLines_listed h', heq]
  · rintro rfl
    rw [listed_of_tokenize h, listed_of_tokenize h']

/-- A digit that is moved from the value to the place is seen, and so is a blank in a numeral. -/
theorem listing_faithful_digits :
    let t : Token := ⟨.integer, some (-12), 0⟩
    let u : Token := ⟨.integer, some (-1), 20⟩
    let line := "12+3".toList
    let line' := "1 2+3".toList
    t.IsProper ∧ u.IsProper ∧ t.listing ≠ u.listing ∧
      tokenize line = .ok [.literal 12 0, .operatorAt .plus 2, .literal 3 3, .endAt 4] ∧
      listed line ≠ listed line' ∧ (Text.splitLines (listed line).toList).length = 4 := by
  intro t u line line'
  obtain ⟨htokens, -, hlines⟩ := listing_faithful
  have ht : t.IsProper := by simp [Token.IsProper, t]
  have hu : u.IsProper := by simp [Token.IsProper, u]
  have h : tokenize line = .ok [.literal 12 0, .operatorAt .plus 2, .literal 3 3, .endAt 4] := by
    decide +kernel
  have h' : tokenize line' =
      .ok [.literal 1 0, .literal 2 2, .operatorAt .plus 3, .literal 3 4, .endAt 5] := by
    decide +kernel
  obtain ⟨halike, hcount⟩ := hlines line line' _ _ h h'
  exact ⟨ht, hu, mt (htokens t u ht hu).mp (by decide), h, mt halike.mp (by decide), hcount⟩

end Program
end Abacus
