import Mathlib.Data.List.DropRight
import Workflow.Text.Blank

/-!
# Trimming

A text that was trimmed neither begins nor ends with a blank, and such a text is left as it is by
trimming. So trimming twice is trimming once (`trimmed_trimmed`). A blank more at an end makes no
difference, and nothing is left of blanks alone (`trim_eq_nil_iff`).
-/

namespace Workflow.Text

variable {cs : List Char}

theorem trimStart_eq_self (h : ∀ c ∈ cs.head?, isBlank c = false) : trimStart cs = cs := by
  cases cs with
  | nil => rfl
  | cons c rest => exact List.dropWhile_cons_of_neg (Bool.eq_false_iff.mp (h c rfl))

theorem trimEnd_eq_self (h : ∀ c ∈ cs.getLast?, isBlank c = false) : trimEnd cs = cs := by
  refine List.rdropWhile_eq_self_iff.mpr fun hne => Bool.eq_false_iff.mp (h _ ?_)
  exact List.getLast?_eq_some_getLast hne

/-- A text without blanks at its ends is left as it is. -/
theorem trim_eq_self (hfirst : ∀ c ∈ cs.head?, isBlank c = false)
    (hlast : ∀ c ∈ cs.getLast?, isBlank c = false) : trim cs = cs := by
  rw [trim, trimStart_eq_self hfirst, trimEnd_eq_self hlast]

theorem not_isBlank_head (cs : List Char) : ∀ c ∈ (trimStart cs).head?, isBlank c = false := by
  intro c hc
  have hnot := List.head?_dropWhile_not isBlank cs
  rw [trimStart] at hc
  rw [Option.mem_def.mp hc] at hnot
  simpa using hnot

/-- What was trimmed does not begin with a blank. -/
theorem not_isBlank_head_trim (cs : List Char) : ∀ c ∈ (trim cs).head?, isBlank c = false := by
  intro c hc
  obtain ⟨rest, hrest⟩ := List.head?_eq_some_iff.mp hc
  obtain ⟨tail, htail⟩ := List.rdropWhile_prefix isBlank (l := trimStart cs)
  refine not_isBlank_head cs c ?_
  rw [← htail]
  change c ∈ (trim cs ++ tail).head?
  rw [hrest]
  rfl

/-- What was trimmed does not end with a blank. -/
theorem not_isBlank_last_trim (cs : List Char) : ∀ c ∈ (trim cs).getLast?, isBlank c = false := by
  intro c hc
  have hne : trim cs ≠ [] := fun hnil => by
    rw [hnil] at hc
    cases hc
  have hlast := List.rdropWhile_last_not isBlank (trimStart cs) hne
  rw [Option.mem_def, List.getLast?_eq_some_getLast hne] at hc
  obtain rfl := Option.some.inj hc
  exact Bool.eq_false_iff.mpr hlast

theorem trim_trim (cs : List Char) : trim (trim cs) = trim cs :=
  trim_eq_self (not_isBlank_head_trim cs) (not_isBlank_last_trim cs)

/-- **Trimming twice is trimming once.** -/
theorem trimmed_trimmed (s : String) : trimmed (trimmed s) = trimmed s := by
  rw [trimmed, trimmed, String.toList_ofList, trim_trim]

/-! ## Blanks at the ends -/

theorem trim_cons_blank {c : Char} (h : isBlank c = true) (cs : List Char) :
    trim (c :: cs) = trim cs := by
  rw [trim, trimStart, List.dropWhile_cons_of_pos h]
  rfl

theorem trim_snoc_blank {c : Char} (h : isBlank c = true) (cs : List Char) :
    trim (cs ++ [c]) = trim cs := by
  rw [trim, trim, trimStart, trimStart, List.dropWhile_append]
  split
  · next hnone =>
    rw [List.isEmpty_iff.mp hnone, List.dropWhile_cons_of_pos h]
    rfl
  · exact List.rdropWhile_concat_pos _ _ _ h

/-- What is trimmed away entirely is blank. -/
theorem trim_eq_nil_iff {cs : List Char} : trim cs = [] ↔ cs.all isBlank = true := by
  rw [List.all_eq_true]
  constructor
  · intro hnil
    have hblank : ∀ c ∈ trimStart cs, isBlank c = true := List.rdropWhile_eq_nil_iff.mp hnil
    refine List.dropWhile_eq_nil_iff.mp ?_
    cases hstart : cs.dropWhile isBlank with
    | nil => rfl
    | cons c rest =>
      have hfirst := not_isBlank_head cs c (by rw [trimStart, hstart]; rfl)
      rw [hblank c (by rw [trimStart, hstart]; exact List.mem_cons_self)] at hfirst
      cases hfirst
  · intro hblank
    rw [trim, trimStart, List.dropWhile_eq_nil_iff.mpr hblank]
    rfl

end Workflow.Text
