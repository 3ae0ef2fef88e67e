import Abacus.Text.Blank
import Mathlib.Data.List.DropRight

/-!
# Cutting blanks

What is left of a list when the blanks at its ends are cut, whatever counts as blank: a middle part
with blanks around it and none at its own ends, so that cutting once is enough. It is empty just
when all is blank.
-/
namespace Abacus.Text

variable {α : Type} {blank : α → Bool} {cs : List α}

/-- What is cut from a list is blank. -/
theorem exists_eq_append_cutEnds (blank : α → Bool) (cs : List α) :
    ∃ lead trail, (∀ c ∈ lead, blank c = true) ∧ (∀ c ∈ trail, blank c = true) ∧
      cs = lead ++ (cutEnds blank cs ++ trail) := by
  refine ⟨cs.takeWhile blank, (cs.dropWhile blank).rtakeWhile blank,
    fun c hc => List.mem_takeWhile_imp hc, fun c hc => List.mem_rtakeWhile_imp hc, ?_⟩
  have hbehind :
      cutEnds blank cs ++ (cs.dropWhile blank).rtakeWhile blank = cs.dropWhile blank :=
    List.rdropWhile_append_rtakeWhile
  rw [hbehind, List.takeWhile_append_dropWhile]

theorem cutEnds_eq_nil_iff : cutEnds blank cs = [] ↔ ∀ c ∈ cs, blank c = true := by
  constructor
  · intro h
    obtain ⟨lead, trail, hlead, htrail, heq⟩ := exists_eq_append_cutEnds blank cs
    rw [heq, h, List.nil_append]
    exact List.forall_mem_append.mpr ⟨hlead, htrail⟩
  · intro h
    rw [cutEnds, List.dropWhile_eq_nil_iff.mpr h]
    rfl

theorem dropWhile_eq_self (h : ∀ c, cs.head? = some c → blank c = false) :
    cs.dropWhile blank = cs := by
  cases cs with
  | nil => rfl
  | cons c cs => rw [List.dropWhile_cons_of_neg (by simp [h c rfl])]

/-- A list without blanks at its two ends has none to cut. -/
theorem cutEnds_eq_self (hhead : ∀ c, cs.head? = some c → blank c = false)
    (hlast : ∀ c, cs.getLast? = some c → blank c = false) : cutEnds blank cs = cs := by
  have hreverse : cs.reverse.dropWhile blank = cs.reverse :=
    dropWhile_eq_self fun c hc => hlast c (by rwa [List.head?_reverse] at hc)
  rw [cutEnds, dropWhile_eq_self hhead, cutEnd, hreverse, List.reverse_reverse]

/-- No blank is left in front. -/
theorem eq_false_of_head?_cutEnds {c : α} (h : (cutEnds blank cs).head? = some c) :
    blank c = false := by
  obtain ⟨rest, hrest⟩ := List.head?_eq_some_iff.mp h
  obtain ⟨trail, heq⟩ : cutEnds blank cs <+: cs.dropWhile blank :=
    List.rdropWhile_prefix _ _
  have hnot := List.head?_dropWhile_not blank cs
  simpa [← heq, hrest] using hnot

/-- No blank is left at the end. -/
theorem eq_false_of_getLast?_cutEnds {c : α} (h : (cutEnds blank cs).getLast? = some c) :
    blank c = false := by
  rw [cutEnds, cutEnd, List.getLast?_reverse] at h
  have hnot := List.head?_dropWhile_not blank (cs.dropWhile blank).reverse
  simpa [h] using hnot

/-- **Cutting once is enough.** -/
theorem cutEnds_cutEnds : cutEnds blank (cutEnds blank cs) = cutEnds blank cs :=
  cutEnds_eq_self (fun _ => eq_false_of_head?_cutEnds) fun _ => eq_false_of_getLast?_cutEnds

end Abacus.Text
