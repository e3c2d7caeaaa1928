import Workflow.Vars.Key

/-!
# Small letters

Lower-casing a character gives characters that stay as they are when they are lower-cased again
(`lowerChar_lowered`), and no separator of keys unless it was given one (`not_isSeparator_lowered`).
So a text in lower case stays as it is as well (`lowered_lowered`): none of its characters looks at
what it stands beside, for it has no capital sigma.

Both are facts about the table of capitals. It is looked at row by row: the small letters of a row
lie between two code points, and that range must keep clear of every row of capitals, or hit only
the gaps of one that has every other code point (`CaseRow.isClear`).
-/

namespace Workflow.Text

/-! ## The table -/

namespace CaseRow

/-- The first small letter of a row. -/
def low (r : CaseRow) : Nat := (r.first + r.shift).toNat

/-- The last small letter of a row. -/
def high (r : CaseRow) : Nat := (r.last + r.shift).toNat

/-- Whether the small letters of a row are no capitals of another: they lie beside it, or both rows
have every other code point and the one starts in a gap of the other. -/
def isClear (r q : CaseRow) : Bool :=
  r.high.blt q.first || q.last.blt r.low ||
    ((r.step.beq 2 || r.first.beq r.last) && q.step.beq 2 && ((r.low + q.first) % 2).beq 1)

/-- Whether a range of small letters keeps clear of a range of code points. -/
def avoids (r : CaseRow) (first last : Nat) : Bool := r.high.blt first || last.blt r.low

/-- Whether the small letters of a row are characters beyond ASCII, or the one letter that the
Kelvin sign has there. -/
def isLetters (r : CaseRow) : Bool :=
  ((r.low.beq 0x6B && r.high.beq 0x6B) || Nat.blt 0xA0 r.low) && r.avoids 0xD800 0xDFFF &&
    r.high.blt 0x110000 && r.avoids 0x130 0x130 && r.avoids 0x1680 0x1680 &&
    r.avoids 0x2000 0x205F && r.avoids 0x3000 0x3000

end CaseRow

theorem isLetters_caseRows : caseRows.all CaseRow.isLetters = true := by decide +kernel

theorem isClear_caseRows : (caseRows.all fun r => caseRows.all r.isClear) = true := by
  decide +kernel

/-! ## Small letters of a row -/

section Rows

variable {n : Nat} {r : CaseRow}

theorem of_caseRow? (h : caseRow? n = some r) :
    r ∈ caseRows ∧ r.first ≤ n ∧ n ≤ r.last ∧ (n - r.first) % r.step = 0 := by
  have hrow := List.find?_some h
  simp only [Bool.and_eq_true, decide_eq_true_eq] at hrow
  exact ⟨List.mem_of_find?_eq_some h, hrow.1.1, hrow.1.2, hrow.2⟩

theorem of_isLetters (h : r ∈ caseRows) :
    (r.low = 0x6B ∧ r.high = 0x6B ∨ 0xA0 < r.low) ∧ (r.high < 0xD800 ∨ 0xDFFF < r.low) ∧
      r.high < 0x110000 ∧ (r.high < 0x130 ∨ 0x130 < r.low) ∧ (r.high < 0x1680 ∨ 0x1680 < r.low) ∧
      (r.high < 0x2000 ∨ 0x205F < r.low) ∧ (r.high < 0x3000 ∨ 0x3000 < r.low) := by
  have hrow := List.all_eq_true.mp isLetters_caseRows r h
  simpa only [CaseRow.isLetters, CaseRow.avoids, Nat.blt_eq, Bool.and_eq_true, Bool.or_eq_true,
    Nat.beq_eq, and_assoc] using hrow

theorem of_isClear {q : CaseRow} (hr : r ∈ caseRows) (hq : q ∈ caseRows) :
    r.high < q.first ∨ q.last < r.low ∨
      (r.step = 2 ∨ r.first = r.last) ∧ q.step = 2 ∧ (r.low + q.first) % 2 = 1 := by
  have hpair := List.all_eq_true.mp (List.all_eq_true.mp isClear_caseRows r hr) q hq
  simpa only [CaseRow.isClear, Nat.blt_eq, Bool.and_eq_true, Bool.or_eq_true, Nat.beq_eq,
    or_assoc, and_assoc] using hpair

/-- The small letter lies in the range of its row. -/
theorem small_mem_range (h : caseRow? n = some r) :
    r.low ≤ ((n : Int) + r.shift).toNat ∧ ((n : Int) + r.shift).toNat ≤ r.high := by
  obtain ⟨-, hfirst, hlast, -⟩ := of_caseRow? h
  rw [CaseRow.low, CaseRow.high]
  omega

/-- The small letter of a capital is no capital. -/
theorem caseRow?_small (h : caseRow? n = some r) :
    caseRow? ((n : Int) + r.shift).toNat = none := by
  obtain ⟨hmem, hfirst, hlast, hstep⟩ := of_caseRow? h
  obtain ⟨hlow, hhigh⟩ := small_mem_range h
  refine List.find?_eq_none.mpr fun q hq hrow => ?_
  simp only [Bool.and_eq_true, decide_eq_true_eq] at hrow
  obtain ⟨⟨hqfirst, hqlast⟩, hqstep⟩ := hrow
  rcases of_isClear hmem hq with hbelow | habove | ⟨halternate, htwo, hodd⟩
  · omega
  · omega
  · -- the small letters of the row are in the gaps of the other
    have hpositive := (of_isLetters hmem).1
    have heven : (n - r.first) % 2 = 0 := by
      rcases halternate with hr | hr
      · rwa [hr] at hstep
      · omega
    rw [htwo] at hqstep
    rw [CaseRow.low] at hodd hpositive
    omega

end Rows

/-! ## Small letters -/

theorem toNat_ofNat_valid {n : Nat} (h : n.isValidChar) : (Char.ofNat n).toNat = n := by
  rw [Char.ofNat, dif_pos h]
  rfl

/-- What a character becomes in lower case. -/
inductive Lowers (c : Char) : List Char → Prop where
  /-- a capital of ASCII becomes its small letter -/
  | ascii {d : Char} (hd : 97 ≤ d.toNat ∧ d.toNat ≤ 122) : Lowers c [d]
  /-- the capital I with a dot becomes two characters -/
  | dotted : Lowers c ['i', '\u0307']
  /-- a capital of the table becomes its small letter -/
  | row {r : CaseRow} {d : Char} (h : caseRow? c.toNat = some r)
    (hd : d.toNat = ((c.toNat : Int) + r.shift).toNat) : Lowers c [d]
  /-- any other character stays as it is -/
  | same (hascii : c.toNat < 0x80 → ¬(65 ≤ c.toNat ∧ c.toNat ≤ 90)) (hdot : c.toNat ≠ 0x130)
    (hrow : 0x80 ≤ c.toNat → caseRow? c.toNat = none) : Lowers c [c]

theorem lowers_lowerChar (c : Char) : Lowers c (lowerChar c) := by
  rw [lowerChar]
  split
  · next hascii =>
    split
    · next hcapital =>
      have hrange : 65 ≤ c.toNat ∧ c.toNat ≤ 90 := hcapital
      refine .ascii ?_
      rw [toNat_ofNat_valid (Or.inl (by omega))]
      omega
    · next hcapital => exact .same (fun _ => hcapital) (by omega) (by omega)
  · next hascii =>
    split
    · exact .dotted
    · next hdot =>
      split
      · next r hrow =>
        refine .row hrow (toNat_ofNat_valid ?_)
        obtain ⟨hlow, hhigh⟩ := small_mem_range hrow
        have hletters := of_isLetters (of_caseRow? hrow).1
        rw [Nat.isValidChar]
        omega
      · next hrow => exact .same (by omega) hdot fun _ => hrow

theorem lowerChar_eq_self {c : Char} (hascii : c.toNat < 0x80 → ¬(65 ≤ c.toNat ∧ c.toNat ≤ 90))
    (hdot : c.toNat ≠ 0x130) (hrow : 0x80 ≤ c.toNat → caseRow? c.toNat = none) :
    lowerChar c = [c] := by
  rw [lowerChar]
  by_cases h : c.toNat < 0x80
  · rw [if_pos h]
    exact congrArg (· :: []) (if_neg (hascii h))
  · rw [if_neg h, if_neg hdot, hrow (Nat.le_of_not_lt h)]

/-- **What is in lower case stays as it is.** -/
theorem lowerChar_lowered {c d : Char} (h : d ∈ lowerChar c) : lowerChar d = [d] := by
  have hc := lowers_lowerChar c
  revert hc h
  generalize lowerChar c = lowered
  rintro h (hd | _ | ⟨hrow, hd⟩ | ⟨hascii, hdot, hrow⟩)
  · obtain rfl := List.mem_singleton.mp h
    exact lowerChar_eq_self (by omega) (by omega) (by omega)
  · rcases List.mem_cons.mp h with rfl | h
    · rfl
    · obtain rfl := List.mem_singleton.mp h
      rfl
  · obtain rfl := List.mem_singleton.mp h
    obtain ⟨hlow, hhigh⟩ := small_mem_range hrow
    have hletters := of_isLetters (of_caseRow? hrow).1
    have hnone := caseRow?_small hrow
    rw [← hd] at hlow hhigh hnone
    exact lowerChar_eq_self (by omega) (by omega) fun _ => hnone
  · obtain rfl := List.mem_singleton.mp h
    exact lowerChar_eq_self hascii hdot hrow

/-- A character has a lower-case form. -/
theorem lowerChar_ne_nil (c : Char) : lowerChar c ≠ [] := by
  have hc := lowers_lowerChar c
  intro hnil
  rw [hnil] at hc
  cases hc

/-! ## Texts -/

theorem lowerChar_of_mem {cs before : List Char} {d : Char} (h : d ∈ lowerChars before cs) :
    lowerChar d = [d] := by
  induction cs generalizing before with
  | nil => cases h
  | cons c cs ih =>
    rw [lowerChars] at h
    rcases List.mem_append.mp h with h | h
    · split at h
      · split at h <;> obtain rfl := List.mem_singleton.mp h <;> decide +kernel
      · exact lowerChar_lowered h
    · exact ih h

theorem lowerChars_eq_self {cs : List Char} (h : ∀ c ∈ cs, lowerChar c = [c])
    (before : List Char) : lowerChars before cs = cs := by
  induction cs generalizing before with
  | nil => rfl
  | cons c cs ih =>
    obtain ⟨hc, hcs⟩ := List.forall_mem_cons.mp h
    have hsigma : c ≠ 'Σ' := by
      rintro rfl
      exact absurd hc (by decide +kernel)
    rw [lowerChars, if_neg hsigma, hc, ih hcs]
    rfl

/-- **A text in lower case stays as it is.** -/
theorem lowered_lowered (s : String) : lowered (lowered s) = lowered s := by
  have hstays : lowerChars [] (lowerChars [] s.toList) = lowerChars [] s.toList :=
    lowerChars_eq_self (fun _ h => lowerChar_of_mem h) []
  rw [lowered, lowered, String.toList_ofList, hstays]

/-- A sigma ends a word before a blank, and does not before a dot and a letter. -/
example : lowered "ΟΔΟΣ ΟΔΟΣ.Α" = "οδος οδοσ.α" := by decide +kernel

/-! ## Separators -/

open Key (isSeparator)

theorem isSeparator_iff {c : Char} : isSeparator c = true ↔
    9 ≤ c.toNat ∧ c.toNat ≤ 13 ∨ c.toNat = 0x20 ∨ c.toNat = 0x85 ∨ c.toNat = 0xA0 ∨
      c.toNat = 0x1680 ∨ 0x2000 ≤ c.toNat ∧ c.toNat ≤ 0x200A ∨ c.toNat = 0x2028 ∨
      c.toNat = 0x2029 ∨ c.toNat = 0x202F ∨ c.toNat = 0x205F ∨ c.toNat = 0x3000 ∨
      c.toNat = 45 ∨ c.toNat = 46 ∨ c.toNat = 47 ∨ c.toNat = 95 := by
  have heq (d : Char) : c = d ↔ c.toNat = d.toNat := Char.toNat_inj.symm
  simp only [isSeparator, isBlank, Bool.or_eq_true, Bool.and_eq_true, decide_eq_true_eq, heq,
    or_assoc]
  rfl

/-- **No separator comes of lower-casing** what is none. -/
theorem not_isSeparator_lowered {c d : Char} (hc : isSeparator c = false) (h : d ∈ lowerChar c) :
    isSeparator d = false := by
  rw [← Bool.not_eq_true, isSeparator_iff] at hc ⊢
  have hlowers := lowers_lowerChar c
  revert hlowers h
  generalize lowerChar c = lowered
  rintro h (hd | _ | ⟨hrow, hd⟩ | _)
  · obtain rfl := List.mem_singleton.mp h
    omega
  · rcases List.mem_cons.mp h with rfl | h
    · decide
    · obtain rfl := List.mem_singleton.mp h
      decide
  · obtain rfl := List.mem_singleton.mp h
    obtain ⟨hlow, hhigh⟩ := small_mem_range hrow
    have hletters := of_isLetters (of_caseRow? hrow).1
    omega
  · obtain rfl := List.mem_singleton.mp h
    exact hc

end Workflow.Text
