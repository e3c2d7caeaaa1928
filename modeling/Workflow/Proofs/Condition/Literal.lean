import Mathlib.Data.Bool.AllAny
import Workflow.Condition.Literal
import Workflow.Proofs.Text.Blank

/-!
# What literals are read as

Text in quotes is the text between them, whatever it looks like (`sniff_quoted`). Text that ends in
a closing parenthesis is no word, no number and not in quotes, so it is itself (`sniff_closed`). No
literal is a text longer than what was written (`length_le_of_sniff`).
-/

namespace Workflow

/-! ## Characters of numbers -/

namespace Decimal

/-- The characters that numbers are written with. -/
def IsNumeral (c : Char) : Prop := isDigit c = true ∨ c ∈ ['.', 'e', 'E', '+', '-']

/-- What digits leave nothing of is all digits. -/
theorem isNumeral_of_dropWhile {cs : List Char} (h : cs.dropWhile isDigit = []) :
    ∀ c ∈ cs, IsNumeral c :=
  fun c hc => Or.inl (List.dropWhile_eq_nil_iff.mp h c hc)

theorem isNumeral_of_scanExponent {cs : List Char} {e : Int}
    (h : scanExponent cs = some (e, [])) : ∀ c ∈ cs, IsNumeral c := by
  cases cs with
  | nil => exact fun _ hc => absurd hc List.not_mem_nil
  | cons mark rest =>
    unfold scanExponent at h
    dsimp only at h
    split at h
    · next hmark =>
      have hfirst : IsNumeral mark := by
        rw [Bool.or_eq_true, decide_eq_true_iff, decide_eq_true_iff] at hmark
        rcases hmark with rfl | rfl <;> exact Or.inr (by decide)
      -- the digits stand behind the sign, if there is one
      have hdigits : ∀ (ds : List Char) (n : Int),
          (if (ds.takeWhile isDigit).isEmpty then none else some (n, ds.dropWhile isDigit)) =
            some (e, []) → ∀ c ∈ ds, IsNumeral c := by
        intro ds n heq
        split at heq
        · cases heq
        · exact isNumeral_of_dropWhile (congrArg Prod.snd (Option.some.inj heq))
      refine List.forall_mem_cons.mpr ⟨hfirst, ?_⟩
      split at h
      · exact List.forall_mem_cons.mpr ⟨Or.inr (by decide), hdigits _ _ h⟩
      · exact List.forall_mem_cons.mpr ⟨Or.inr (by decide), hdigits _ _ h⟩
      · exact hdigits _ _ h
    · cases h

/-- A text that is a magnitude as a whole holds nothing else. -/
theorem isNumeral_of_scan {cs : List Char} {s : Scanned} (h : scan cs = some (s, [])) :
    ∀ c ∈ cs, IsNumeral c := by
  have hdigits : ∀ ds : List Char, ∀ c ∈ ds.takeWhile isDigit, IsNumeral c :=
    fun ds c hc => Or.inl (List.mem_takeWhile_imp hc)
  have hexponent : ∀ rest (f : Int × List Char → Scanned),
      (scanExponent rest).map (fun x => (f x, x.2)) = some (s, []) → ∀ c ∈ rest, IsNumeral c := by
    intro rest f heq
    obtain ⟨⟨e, left⟩, hscan, heq⟩ := Option.map_eq_some_iff.mp heq
    obtain rfl : left = [] := congrArg Prod.snd heq
    exact isNumeral_of_scanExponent hscan
  rw [← List.takeWhile_append_dropWhile (p := isDigit) (l := cs), List.forall_mem_append]
  refine ⟨hdigits cs, ?_⟩
  unfold scan at h
  dsimp only at h
  split at h
  · next r hpoint =>
    rw [hpoint, List.forall_mem_cons]
    refine ⟨Or.inr (by decide), ?_⟩
    rw [← List.takeWhile_append_dropWhile (p := isDigit) (l := r), List.forall_mem_append]
    split at h
    · cases h
    · exact ⟨hdigits r, hexponent _ _ h⟩
  · split at h
    · cases h
    · exact hexponent _ _ h

theorem not_isNumeral_closing : ¬IsNumeral ')' := by
  unfold IsNumeral
  decide

theorem closing_mem_lower {cs : List Char} (h : ')' ∈ cs) :
    ')' ∈ (String.ofList (cs.map Char.toLower)).toList := by
  rw [String.toList_ofList]
  exact List.mem_map.mpr ⟨')', h, by decide⟩

/-- No number is written with a parenthesis, nor is the name of one. -/
theorem read?_closing {s : String} (h : ')' ∈ s.toList) : read? s = none := by
  unfold read?
  dsimp only
  split
  case' h_1 r hsign | h_2 r hsign =>
    rw [hsign] at h
    replace h : ')' ∈ r := List.mem_of_ne_of_mem (by decide) h
  -- with a sign or without it, what is left holds the parenthesis
  all_goals
    have hlower := closing_mem_lower h
    rw [Option.map_eq_none_iff]
    split
    · next heq => exact absurd (heq ▸ hlower) (by decide)
    · next heq => exact absurd (heq ▸ hlower) (by decide)
    · next heq => exact absurd (heq ▸ hlower) (by decide)
    · split
      · next hscan => exact absurd (isNumeral_of_scan hscan _ h) not_isNumeral_closing
      · rfl

end Decimal

/-! ## Quotes -/

namespace Literal

variable {mark : Char} {cs inner : List Char}

theorem between_marks (mark : Char) (cs : List Char) :
    between mark (mark :: (cs ++ [mark])) = some cs := by
  rw [between, if_pos rfl, List.reverse_append, List.reverse_singleton, List.singleton_append]
  dsimp only
  rw [if_pos rfl, List.reverse_reverse]

/-- What stands between marks is what the marks stand around. -/
theorem eq_of_between (h : between mark cs = some inner) : cs = mark :: (inner ++ [mark]) := by
  unfold between at h
  split at h
  · next c rest =>
    split at h
    · next hfirst =>
      split at h
      · next d before hreverse =>
        split at h
        · next hlast =>
          obtain rfl := Option.some.inj h
          rw [hfirst, ← hlast, ← List.reverse_cons, ← hreverse, List.reverse_reverse]
        · cases h
      · cases h
    · cases h
  · cases h

theorem not_isBlank_of_mem_quoteMarks (h : mark ∈ quoteMarks) : Text.isBlank mark = false := by
  have hall : ∀ mark ∈ quoteMarks, Text.isBlank mark = false := List.all_iff_forall_prop.mp rfl
  exact hall mark h

theorem unquote?_marks (h : mark ∈ quoteMarks) (cs : List Char) :
    unquote? (mark :: (cs ++ [mark])) = some cs := by
  rw [unquote?]
  have hfound : (quoteMarks.findSome? fun m => between m (mark :: (cs ++ [mark]))).isSome :=
    List.findSome?_isSome_iff.mpr ⟨mark, h, by rw [between_marks]; rfl⟩
  obtain ⟨inner, hinner⟩ := Option.isSome_iff_exists.mp hfound
  rw [hinner]
  -- whichever mark was found is the first character, and so is the mark itself
  obtain ⟨other, -, hother⟩ := List.exists_of_findSome?_eq_some hinner
  have heq := eq_of_between hother
  obtain rfl := (List.cons.inj heq).1
  rw [between_marks] at hother
  exact hother.symm

theorem eq_of_unquote? (h : unquote? cs = some inner) :
    ∃ mark ∈ quoteMarks, cs = mark :: (inner ++ [mark]) := by
  obtain ⟨mark, hmark, hbetween⟩ := List.exists_of_findSome?_eq_some h
  exact ⟨mark, hmark, eq_of_between hbetween⟩

/-! ## What is read -/

theorem trim_quoted (h : mark ∈ quoteMarks) (cs : List Char) :
    Text.trim (mark :: (cs ++ [mark])) = mark :: (cs ++ [mark]) := by
  have hblank := not_isBlank_of_mem_quoteMarks h
  refine Text.trim_eq_self (fun c hc => ?_) (fun c hc => ?_)
  · obtain rfl := Option.some.inj hc
    exact hblank
  · rw [← List.cons_append, List.getLast?_concat] at hc
    obtain rfl := Option.some.inj hc
    exact hblank

/-- **Text in quotes is the text between them.** -/
theorem sniff_quoted (h : mark ∈ quoteMarks) (cs : List Char) :
    sniff (String.ofList (mark :: (cs ++ [mark]))) = .text (String.ofList cs) := by
  rw [sniff, String.toList_ofList, trim_quoted h, unquote?_marks h]

/-- Text that ends in a closing parenthesis is not in quotes. -/
theorem unquote?_closed (front : List Char) : unquote? (front ++ [')']) = none := by
  cases hinner : unquote? (front ++ [')']) with
  | none => rfl
  | some inner =>
    obtain ⟨mark, hmark, heq⟩ := eq_of_unquote? hinner
    have hlast := congrArg List.getLast? heq
    rw [← List.cons_append, List.getLast?_concat, List.getLast?_concat] at hlast
    obtain rfl := Option.some.inj hlast
    exact absurd hmark (by decide)

/-- **Text that ends in a closing parenthesis is that text.** -/
theorem sniff_closed {front : List Char} (htrim : Text.trim (front ++ [')']) = front ++ [')']) :
    sniff (String.ofList (front ++ [')'])) = .text (String.ofList (front ++ [')'])) := by
  have hmem : ')' ∈ (String.ofList (front ++ [')'])).toList := by
    rw [String.toList_ofList]
    exact List.mem_append_right _ (List.mem_singleton_self _)
  have hlower : ')' ∈ (Text.asciiLowered (String.ofList (front ++ [')']))).toList := by
    rw [Text.asciiLowered, String.toList_ofList]
    exact List.mem_map.mpr ⟨')', hmem, by decide⟩
  rw [sniff, String.toList_ofList, htrim, unquote?_closed]
  dsimp only
  split
  case h_6 => rw [Decimal.read?_closing hmem]
  all_goals next heq => exact absurd (heq ▸ hlower) (by decide)

theorem length_trim_le (cs : List Char) : (Text.trim cs).length ≤ cs.length :=
  (List.rdropWhile_prefix Text.isBlank _).length_le.trans (List.length_dropWhile_le ..)

/-- No literal is a text longer than what was written. -/
theorem length_le_of_sniff {raw s : String} (h : sniff raw = .text s) :
    s.toList.length ≤ raw.toList.length := by
  have htrim := length_trim_le raw.toList
  unfold sniff at h
  dsimp only at h
  split at h
  · next inner hinner =>
    obtain rfl := Literal.text.inj h
    obtain ⟨mark, -, heq⟩ := eq_of_unquote? hinner
    rw [heq, List.length_cons, List.length_append] at htrim
    rw [String.toList_ofList]
    omega
  · have hself : ∀ t, Literal.text (String.ofList (Text.trim raw.toList)) = .text t →
        t.toList.length ≤ raw.toList.length := by
      intro t heq
      rw [← Literal.text.inj heq, String.toList_ofList]
      exact htrim
    split at h
    case h_6 =>
      split at h
      · split at h
        · cases h
        · exact hself s h
      · exact hself s h
    all_goals cases h

end Literal

end Workflow
