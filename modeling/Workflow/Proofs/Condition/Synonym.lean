import Workflow.Proofs.Condition.Choice
import Workflow.Proofs.Condition.Comparison

/-!
# Words for yes and no

There are four words for yes and four for no, and each may be written in any case. An edge that is
labelled with one of them says nothing by itself: its label holds no operator, and it begins with no
`if` (`not_looksConditional`). So where two edges are labelled so, one of each kind, the labels
decide nothing, and it is for the node to ask; which edge is for yes does not depend on their order
(`yesNo?_pair`).
-/

namespace Workflow

/-! ## ASCII -/

namespace Text

theorem toNat_lt_of_asciiLower {c : Char} (h : (asciiLower c).toNat < 0x80) : c.toNat < 0x80 := by
  rw [asciiLower] at h
  split at h
  · next hcapital => exact Nat.lt_of_le_of_lt hcapital.2 (by decide)
  · exact h

/-- A text of ASCII characters is put in lower case letter by letter. -/
theorem lowerChars_ascii {cs : List Char} (h : ∀ c ∈ cs, c.toNat < 0x80) (before : List Char) :
    lowerChars before cs = cs.map asciiLower := by
  induction cs generalizing before with
  | nil => rfl
  | cons c cs ih =>
    obtain ⟨hc, hcs⟩ := List.forall_mem_cons.mp h
    have hsigma : c ≠ 'Σ' := fun heq => by
      rw [heq] at hc
      revert hc
      decide
    have hlower : lowerChar c = [asciiLower c] := by
      rw [lowerChar, if_pos hc]
      rfl
    rw [lowerChars, if_neg hsigma, hlower, ih hcs]
    rfl

/-- A text is in lower case what it is by its ASCII letters, if that is ASCII. -/
theorem lowered_of_ascii {s : String} (h : ∀ c ∈ (asciiLowered s).toList, c.toNat < 0x80) :
    lowered s = asciiLowered s := by
  rw [lowered, asciiLowered, lowerChars_ascii]
  intro c hc
  refine toNat_lt_of_asciiLower (h _ ?_)
  rw [asciiLowered, String.toList_ofList]
  exact List.mem_map_of_mem hc

end Text

/-! ## Operators -/

namespace Comparison

/-- The characters that operators begin with. -/
def operatorMarks : List Char := ['=', '!', '<', '>']

theorem mem_of_tailIn {cs : List Char} (h : (tailIn cs).isSome = true) :
    ∃ c ∈ cs, c ∈ operatorMarks := by
  obtain ⟨⟨spelling, op⟩, hspelling, hfound⟩ := List.findSome?_isSome_iff.mp h
  obtain ⟨_, hfound⟩ := Option.isSome_iff_exists.mp hfound
  obtain ⟨rest, hdrop, -⟩ := Option.bind_eq_some_iff.mp hfound
  obtain ⟨c, more, rfl, hc⟩ := head_spelling hspelling
  have hfront := Choice.dropFront?_isSome_iff.mp (Option.isSome_iff_exists.mpr ⟨rest, hdrop⟩)
  exact ⟨c, List.dropWhile_subset _ (hfront.subset (List.mem_cons_self ..)), hc⟩

theorem mem_of_bodyIn {cs : List Char} (h : (bodyIn cs).isSome = true) :
    ∃ c ∈ cs, c ∈ operatorMarks := by
  unfold bodyIn at h
  dsimp only at h
  split at h
  · cases h
  · next c rest htrim =>
    split at h
    · rw [Option.isSome_map] at h
      obtain ⟨d, hd, hmark⟩ := mem_of_tailIn h
      refine ⟨d, ?_, hmark⟩
      have hbehind : d ∈ c :: rest := List.mem_cons_of_mem _ (List.dropWhile_subset _ hd)
      rw [← htrim] at hbehind
      have hbody := List.dropWhile_subset _ hbehind
      -- there may be a parenthesis in front
      split at hbody
      · exact List.mem_cons_of_mem _ hbody
      · exact hbody
    · cases h

theorem afterIf?_subset {cs rest : List Char} (h : afterIf? cs = some rest) : rest ⊆ cs := by
  unfold afterIf? at h
  split at h
  · split at h
    · obtain rfl := Option.some.inj h
      intro c hc
      exact List.mem_cons_of_mem _ (List.mem_cons_of_mem _ (List.mem_cons_of_mem _
        (List.dropWhile_subset _ hc)))
    · cases h
  · cases h

/-- A label that is a comparison holds an operator. -/
theorem mem_of_parse? {label : String} {c : Comparison} (h : parse? label = some c) :
    ∃ d ∈ label.toList, d ∈ operatorMarks := by
  have htrim : Text.trimStart label.toList ⊆ label.toList := List.dropWhile_subset _
  rw [parse?] at h
  rcases Option.or_eq_some_iff.mp h with hif | ⟨-, hbody⟩
  · obtain ⟨rest, hafter, hbody⟩ := Option.bind_eq_some_iff.mp hif
    obtain ⟨d, hd, hmark⟩ := mem_of_bodyIn (Option.isSome_iff_exists.mpr ⟨c, hbody⟩)
    exact ⟨d, htrim (afterIf?_subset hafter hd), hmark⟩
  · obtain ⟨d, hd, hmark⟩ := mem_of_bodyIn (Option.isSome_iff_exists.mpr ⟨c, hbody⟩)
    exact ⟨d, htrim hd, hmark⟩

end Comparison

/-! ## Words -/

namespace Choice

open Comparison (looksConditional operatorMarks)

/-- The words for yes and the words for no. -/
def synonyms : Bool → List String
  | true => ["true", "yes", "y", "1"]
  | false => ["false", "no", "n", "0"]

/-- A text is a word for yes or for no, in any case. -/
def Means (answer : Bool) (text : String) : Prop := Text.asciiLowered text ∈ synonyms answer

instance (answer : Bool) (text : String) : Decidable (Means answer text) :=
  inferInstanceAs (Decidable (_ ∈ _))

section Words

variable {answer : Bool} {text : String}

theorem Means.ascii (h : Means answer text) :
    ∀ c ∈ (Text.asciiLowered text).toList, c.toNat < 0x80 := by
  have hall : ∀ answer, ∀ w ∈ synonyms answer, w.toList.all (·.toNat < 0x80) = true := by decide
  exact fun c hc => of_decide_eq_true (List.all_eq_true.mp (hall answer _ h) c hc)

/-- The word is recognised in any case. -/
theorem Means.synonym? (h : Means answer text) : synonym? (Text.lowered text) = some answer := by
  have hall : ∀ answer, ∀ w ∈ synonyms answer, Choice.synonym? w = some answer := by decide
  rw [Text.lowered_of_ascii h.ascii]
  exact hall answer _ h

/-- A word holds no signs. -/
theorem Means.not_mem (h : Means answer text) (signs : List Char)
    (hself : signs.all (fun c => Text.asciiLower c = c) = true)
    (hnone : ∀ answer, ∀ w ∈ synonyms answer, w.toList.all (· ∉ signs) = true) :
    ∀ c ∈ text.toList, c ∉ signs := by
  intro c hc hsign
  have hmem : c ∈ (Text.asciiLowered text).toList := by
    have hlower : Text.asciiLower c = c := of_decide_eq_true (List.all_eq_true.mp hself c hsign)
    rw [Text.asciiLowered, String.toList_ofList, ← hlower]
    exact List.mem_map_of_mem hc
  exact of_decide_eq_true (List.all_eq_true.mp (hnone answer _ h) c hmem) hsign

/-- **A word for yes or no says nothing by itself.** -/
theorem Means.not_looksConditional {e : Edge} (h : Means answer e.labelText) :
    ¬looksConditional e.labelText = true := by
  have helse : ∀ answer, "else" ∉ synonyms answer := by decide
  have hif : ∀ answer, ∀ w ∈ synonyms answer, ¬['i', 'f', ' '] <+: w.toList := by decide
  rw [looksConditional_iff]
  rintro (heq | hfront | ⟨c, hparse⟩)
  · exact helse answer (heq ▸ h)
  · refine hif answer _ h ?_
    rw [Text.asciiLowered, String.toList_ofList]
    exact hfront
  · obtain ⟨d, hd, hoperator⟩ := Comparison.mem_of_parse? hparse
    exact h.not_mem operatorMarks (by decide) (by decide) d hd hoperator

end Words

/-! ## Pairs of edges -/

section Pair

variable {yes no : Edge} (hyes : Means true yes.labelText) (hno : Means false no.labelText)
include hyes hno

/-- Which edge is for yes does not depend on the order. -/
theorem yesNo?_pair : yesNo? [yes, no] = some (yes, no) ∧ yesNo? [no, yes] = some (yes, no) := by
  rw [yesNo?, yesNo?, hyes.synonym?, hno.synonym?]
  exact ⟨rfl, rfl⟩

theorem pair_ne : yes ≠ no := by
  rintro rfl
  exact Bool.false_ne_true (Option.some.inj (hno.synonym?.symm.trans hyes.synonym?))

/-- The labels decide nothing, so it is for the node to ask. -/
theorem chooseEdge_pair_byNode (vars : Vars) (node : Node) :
    chooseEdge [yes, no] vars node = some (byNode yes [yes, no] vars node) ∧
      chooseEdge [no, yes] vars node = some (byNode no [no, yes] vars node) := by
  have hplain : ∀ e, e = yes ∨ e = no → ¬looksConditional e.labelText = true := by
    rintro e (rfl | rfl)
    · exact hyes.not_looksConditional
    · exact hno.not_looksConditional
  exact ⟨chooseEdge_byNode fun ⟨e, he, hlooks⟩ => hplain e (List.mem_pair.mp he) hlooks,
    chooseEdge_byNode fun ⟨e, he, hlooks⟩ => hplain e (List.mem_pair.mp he).symm hlooks⟩

end Pair

end Choice

end Workflow
