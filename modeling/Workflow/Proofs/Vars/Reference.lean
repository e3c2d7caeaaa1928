import Workflow.Proofs.Vars.Store

/-!
# References

A reference names a key up to its first colon, and a path behind it. So no key that a reference
names has a colon, and folding does not bring one in (`colon_mem_normalize`). A value may be set
under a key with a colon all the same; no reference leads to it (`resolve?_set_colon`).
-/

namespace Workflow

/-! ## Colons in keys -/

/-- A colon comes only of a colon. -/
theorem Text.eq_colon_of_lowered {c : Char} (h : ':' ∈ lowerChar c) : c = ':' := by
  have hc := lowers_lowerChar c
  revert hc h
  generalize lowerChar c = lowered
  rintro h (hd | _ | ⟨hrow, hd⟩ | _)
  · obtain rfl := List.mem_singleton.mp h
    exact absurd hd (by decide)
  · exact absurd h (by decide)
  · -- small letters of the table are not in ASCII, but for one, and that is a letter
    obtain rfl := List.mem_singleton.mp h
    obtain ⟨hlow, hhigh⟩ := small_mem_range hrow
    have hletters := (of_isLetters (of_caseRow? hrow).1).1
    rw [← hd] at hlow hhigh
    have hcolon : (':' : Char).toNat = 58 := rfl
    omega
  · exact (List.mem_singleton.mp h).symm

namespace Key

theorem colon_mem_foldChars {started owed : Bool} {cs : List Char} :
    ':' ∈ foldChars started owed cs ↔ ':' ∈ cs := by
  induction cs generalizing started owed with
  | nil => rfl
  | cons c cs ih =>
    rw [foldChars, List.mem_cons]
    split
    · next hseparator =>
      have hne : ':' ≠ c := by
        rintro rfl
        exact absurd hseparator (by decide)
      rw [ih, or_iff_right hne]
    · have howed : ':' ∉ if owed then ['_'] else [] := by
        cases owed <;> decide
      rw [List.mem_append, List.mem_append, or_iff_right howed, ih]
      refine or_congr_left ⟨fun h => (Text.eq_colon_of_lowered h).symm, ?_⟩
      rintro rfl
      decide

/-- Trimming loses no colon. -/
theorem colon_mem_trim {cs : List Char} : ':' ∈ Text.trim cs ↔ ':' ∈ cs := by
  have hblank : ¬Text.isBlank ':' = true := by decide
  have hstart : ':' ∈ Text.trimStart cs ↔ ':' ∈ cs := by
    conv_rhs => rw [← List.takeWhile_append_dropWhile (p := Text.isBlank) (l := cs)]
    exact ⟨List.mem_append_right _,
      fun h => (List.mem_append.mp h).resolve_left (mt List.mem_takeWhile_imp hblank)⟩
  rw [← hstart, Text.trim]
  conv_rhs => rw [← List.rdropWhile_append_rtakeWhile (p := Text.isBlank) (l := Text.trimStart cs)]
  exact ⟨List.mem_append_left _,
    fun h => (List.mem_append.mp h).resolve_right (mt List.mem_rtakeWhile_imp hblank)⟩

/-- **Folding neither brings a colon in nor loses one.** -/
theorem colon_mem_normalize {key : String} :
    ':' ∈ (normalize key).toList ↔ ':' ∈ key.toList := by
  rw [normalize, String.toList_ofList, colon_mem_foldChars, colon_mem_trim]

end Key

namespace Vars

variable {vars : Vars} {key : String} {front path : List Char}

/-! ## What references lead to -/

/-- A reference without a colon is a key. -/
theorem resolve?_key (h : ':' ∉ key.toList) : vars.resolve? key = vars.get? key := by
  have hdrop : key.toList.dropWhile (· ≠ ':') = [] :=
    List.dropWhile_eq_nil_iff.mpr fun c hc => decide_eq_true fun heq => h (heq ▸ hc)
  rw [resolve?, hdrop]

/-- A reference with a colon is a key and a path. -/
theorem resolve?_path (h : ':' ∉ front) :
    vars.resolve? (String.ofList (front ++ ':' :: path)) =
      vars.getPath? (String.ofList front) (some (String.ofList path)) := by
  have hfront : ∀ c ∈ front, decide (c ≠ ':') = true :=
    fun c hc => decide_eq_true fun heq => h (heq ▸ hc)
  rw [resolve?, String.toList_ofList, List.takeWhile_append_of_pos hfront,
    List.dropWhile_append_of_pos hfront]
  exact congrArg (vars.getPath? · _) (congrArg String.ofList (List.append_nil front))

/-- A reference is a key, or a key and a path. -/
theorem key_or_path (reference : String) : ':' ∉ reference.toList ∨
    ∃ front path, ':' ∉ front ∧ reference = String.ofList (front ++ ':' :: path) := by
  by_cases h : ':' ∈ reference.toList
  · obtain ⟨front, path, heq, hfront⟩ := List.eq_append_cons_of_mem h
    exact Or.inr ⟨front, path, hfront, by rw [← heq, String.ofList_toList]⟩
  · exact Or.inl h

/-- **No reference leads to a value under a key with a colon**, so setting one makes no difference
to what references lead to. -/
theorem resolve?_set_colon (h : ':' ∈ key.toList) (value : Json) (reference : String) :
    (vars.set key value).resolve? reference = vars.resolve? reference := by
  have hget : ∀ other : String, ':' ∉ other.toList →
      (vars.set key value).get? other = vars.get? other := by
    intro other hother
    rw [get?_set, if_neg]
    intro heq
    rw [← Key.colon_mem_normalize, heq, Key.colon_mem_normalize] at h
    exact hother h
  rcases key_or_path reference with hplain | ⟨front, path, hfront, rfl⟩
  · rw [resolve?_key hplain, resolve?_key hplain, hget reference hplain]
  · rw [resolve?_path hfront, resolve?_path hfront, getPath?, getPath?,
      hget _ (by rwa [String.toList_ofList])]

end Vars

end Workflow
