import Workflow.Proofs.Vars.Store

/-!
# Slots

A text is cut into its maximal runs (`Cut`): characters that are no separators, with nothing but
separators before, between and behind them. Every text has a cut (`exists_cut`), and a key is folded
to its runs in lower case (`Cut.runs_eq`).

So two keys address one slot of a store exactly if they have the same runs in lower case. And a
separator in a folded key stands between two letters (`letters_beside`): there is none at an end, and
no two are side by side (`folds_to_runs`).
-/

namespace Workflow

/-- Whether two keys address one slot: in every store, what is set under the one is found under the
other. -/
def Vars.SameSlot (key other : String) : Prop :=
  ∀ (vars : Vars) (value : Json), (vars.set key value).get? other = some value

/-- Keys address one slot if they fold alike. -/
theorem Vars.sameSlot_iff {key other : String} :
    SameSlot key other ↔ Key.normalize key = Key.normalize other := by
  constructor
  · intro h
    have hempty := h Vars.empty .null
    rw [get?_set] at hempty
    split at hempty
    · next heq => exact heq
    · cases hempty
  · intro heq vars value
    rw [get?_set, if_pos heq]

namespace Key

open Text (lowerChar)

/-! ## Maximal runs -/

/-- The maximal runs of a text, from left to right. -/
inductive Cut : List Char → List (List Char) → Prop where
  /-- a text of separators has none -/
  | gap {gap : List Char} (hgap : ∀ c ∈ gap, isSeparator c = true) : Cut gap []
  /-- a run begins behind separators and goes on to the end of the text or to a separator -/
  | run {gap run rest : List Char} {runs : List (List Char)}
      (hgap : ∀ c ∈ gap, isSeparator c = true) (hne : run ≠ [])
      (hrun : ∀ c ∈ run, isSeparator c = false)
      (hend : ∀ c ∈ rest.head?, isSeparator c = true) (hrest : Cut rest runs) :
      Cut (gap ++ run ++ rest) (run :: runs)

/-- Runs in lower case, character by character. -/
def inLowerCase (pieces : List (List Char)) : List (List Char) := pieces.map (·.flatMap lowerChar)

/-- **Keys are folded to their maximal runs**, in lower case. -/
theorem Cut.runs_eq {cs : List Char} {pieces : List (List Char)} (h : Cut cs pieces) :
    runs cs = inLowerCase pieces := by
  induction h with
  | @gap gap hgap =>
    have hnone := runs_gap_append hgap []
    rw [List.append_nil] at hnone
    exact hnone
  | @run gap run rest pieces hgap hne hrun hend hrest ih =>
    have hfirst : runs (run ++ rest) = runs run ++ runs rest := by
      cases rest with
      | nil => simp [show runs [] = [] from rfl]
      | cons c rest =>
        have hc := hend c rfl
        rw [runs_append_separator run rest hc, runs_separator hc]
    have hone : runs run = [run.flatMap lowerChar] := runs_of_part hne hrun
    rw [List.append_assoc, runs_gap_append hgap, hfirst, hone, ih]
    rfl

theorem Cut.separator {cs : List Char} {pieces : List (List Char)} (h : Cut cs pieces) {c : Char}
    (hc : isSeparator c = true) : Cut (c :: cs) pieces := by
  cases h with
  | gap hgap => exact .gap (List.forall_mem_cons.mpr ⟨hc, hgap⟩)
  | run hgap hne hrun hend hrest =>
    exact .run (List.forall_mem_cons.mpr ⟨hc, hgap⟩) hne hrun hend hrest

/-- A letter makes the run that it stands before longer, or is a run of its own. -/
theorem Cut.letter {cs : List Char} {pieces : List (List Char)} (h : Cut cs pieces) {c : Char}
    (hc : isSeparator c = false) : ∃ pieces, Cut (c :: cs) pieces := by
  have hown : (∀ d ∈ cs.head?, isSeparator d = true) → Cut (c :: cs) ([c] :: pieces) := by
    intro hend
    exact .run (List.forall_mem_nil _) (List.cons_ne_nil _ _)
      (List.forall_mem_singleton.mpr hc) hend h
  cases h with
  | gap hgap =>
    refine ⟨_, hown ?_⟩
    intro d hd
    exact hgap d (List.mem_of_mem_head? hd)
  | @run gap run rest runs hgap hne hrun hend hrest =>
    cases gap with
    | nil =>
      have hlonger : Cut ([] ++ (c :: run) ++ rest) ((c :: run) :: runs) :=
        .run (List.forall_mem_nil _) (List.cons_ne_nil _ _)
          (List.forall_mem_cons.mpr ⟨hc, hrun⟩) hend hrest
      exact ⟨_, hlonger⟩
    | cons d gap =>
      refine ⟨_, hown ?_⟩
      rintro d ⟨⟩
      exact hgap _ List.mem_cons_self

/-- Every text is cut into runs. -/
theorem exists_cut (cs : List Char) : ∃ pieces, Cut cs pieces := by
  induction cs with
  | nil => exact ⟨[], .gap (List.forall_mem_nil _)⟩
  | cons c cs ih =>
    obtain ⟨pieces, h⟩ := ih
    cases hc : isSeparator c with
    | true => exact ⟨pieces, h.separator hc⟩
    | false => exact h.letter hc

/-! ## Separators in a folded key -/

theorem IsWord.head {w : List Char} (h : IsWord w) (rest : List Char) :
    ∃ d ∈ (w ++ rest).head?, isSeparator d = false := by
  obtain ⟨c, cs, rfl⟩ := List.exists_cons_of_ne_nil h.ne_nil
  exact ⟨c, rfl, h.part c List.mem_cons_self⟩

theorem IsWord.last {w : List Char} (h : IsWord w) : ∃ d ∈ w.getLast?, isSeparator d = false :=
  ⟨_, List.getLast?_eq_some_getLast h.ne_nil, h.part _ (List.getLast_mem h.ne_nil)⟩

/-- A separator that stands in a text behind a word is the one that ends the word, or comes after
it. -/
theorem behind_word {w rest before behind : List Char} {c : Char}
    (hw : ∀ d ∈ w, isSeparator d = false) (hc : isSeparator c = true)
    (heq : w ++ '_' :: rest = before ++ c :: behind) : before = w ∧ behind = rest ∨
      ∃ front, before = w ++ '_' :: front ∧ rest = front ++ c :: behind := by
  induction w generalizing before with
  | nil =>
    cases before with
    | nil => exact Or.inl ⟨rfl, (List.cons.inj heq).2.symm⟩
    | cons d front =>
      obtain ⟨rfl, hrest⟩ := List.cons.inj heq
      exact Or.inr ⟨front, rfl, hrest⟩
  | cons e w ih =>
    obtain ⟨he, hw⟩ := List.forall_mem_cons.mp hw
    cases before with
    | nil =>
      obtain ⟨rfl, -⟩ := List.cons.inj heq
      rw [hc] at he
      cases he
    | cons d before =>
      obtain ⟨rfl, htail⟩ := List.cons.inj heq
      rcases ih hw htail with ⟨rfl, rfl⟩ | ⟨front, rfl, hrest⟩
      · exact Or.inl ⟨rfl, rfl⟩
      · exact Or.inr ⟨front, rfl, hrest⟩

/-- Where words are joined by underscores, a separator stands between two letters. -/
theorem letters_beside_joined {w : List Char} {ws : List (List Char)}
    (h : ∀ v ∈ w :: ws, IsWord v) {before behind : List Char} {c : Char}
    (hc : isSeparator c = true) (heq : w ++ led ws = before ++ c :: behind) :
    (∃ d ∈ before.getLast?, isSeparator d = false) ∧
      ∃ d ∈ behind.head?, isSeparator d = false := by
  induction ws generalizing w before with
  | nil =>
    have hmem : c ∈ w := by
      rw [show w = before ++ c :: behind by simpa [led] using heq]
      simp
    have hpart := (h w List.mem_cons_self).part c hmem
    rw [hc] at hpart
    cases hpart
  | cons v ws ih =>
    obtain ⟨hw, hrest⟩ := List.forall_mem_cons.mp h
    rcases behind_word hw.part hc heq with ⟨rfl, rfl⟩ | ⟨front, rfl, hinner⟩
    · exact ⟨hw.last, (hrest v List.mem_cons_self).head _⟩
    · obtain ⟨⟨d, hd, hletter⟩, hbehind⟩ := ih hrest hinner
      refine ⟨⟨d, ?_, hletter⟩, hbehind⟩
      rw [Option.mem_def] at hd ⊢
      simp [List.getLast?_append, List.getLast?_cons, hd]

/-- A separator in a folded key stands between two letters. -/
theorem letters_beside {key : String} {before behind : List Char} {c : Char}
    (hc : isSeparator c = true) (heq : (normalize key).toList = before ++ c :: behind) :
    (∃ d ∈ before.getLast?, isSeparator d = false) ∧
      ∃ d ∈ behind.head?, isSeparator d = false := by
  rw [toList_normalize] at heq
  have hwords : ∀ w ∈ runs key.toList, IsWord w := fun _ => isWord_of_mem_runs
  cases hruns : runs key.toList with
  | nil =>
    rw [hruns] at heq
    simp at heq
  | cons w ws =>
    rw [hruns] at heq hwords
    rw [intercalate_cons] at heq
    exact letters_beside_joined hwords hc heq

/-! ## Slots -/

/-- **A key is folded to its maximal runs**, in lower case and with one underscore between any two.
So folding twice is folding once, underscores are neither at the ends nor side by side, and two keys
address one slot exactly if they have the same runs in lower case. -/
theorem folds_to_runs (key : String) :
    (∃ pieces, Cut key.toList pieces) ∧
      (∀ pieces, Cut key.toList pieces →
        (normalize key).toList = List.intercalate ['_'] (inLowerCase pieces)) ∧
      normalize (normalize key) = normalize key ∧
      (normalize key).toList.head? ≠ some '_' ∧ (normalize key).toList.getLast? ≠ some '_' ∧
      ¬['_', '_'] <:+: (normalize key).toList ∧
      ∀ other pieces otherPieces, Cut key.toList pieces → Cut other.toList otherPieces →
        (Vars.SameSlot key other ↔ inLowerCase pieces = inLowerCase otherPieces) := by
  have hunderscore : isSeparator '_' = true := rfl
  refine ⟨exists_cut key.toList, ?_, normalize_normalize key, ?_, ?_, ?_, ?_⟩
  · intro pieces h
    rw [toList_normalize, h.runs_eq]
  · intro hfirst
    obtain ⟨behind, heq⟩ := List.head?_eq_some_iff.mp hfirst
    have hsplit : (normalize key).toList = [] ++ '_' :: behind := heq
    obtain ⟨⟨d, hd, -⟩, -⟩ := letters_beside hunderscore hsplit
    cases hd
  · intro hlast
    obtain ⟨before, heq⟩ := List.getLast?_eq_some_iff.mp hlast
    obtain ⟨-, d, hd, -⟩ := letters_beside hunderscore heq
    cases hd
  · rintro ⟨before, behind, heq⟩
    rw [List.append_assoc] at heq
    obtain ⟨-, d, hd, hletter⟩ := letters_beside hunderscore heq.symm
    obtain rfl := Option.some.inj hd
    rw [hunderscore] at hletter
    cases hletter
  · intro other pieces otherPieces h hother
    rw [Vars.sameSlot_iff, normalize_eq_iff, h.runs_eq, hother.runs_eq]

/-- Separators in any number, at the ends too, and letters in any case. -/
theorem user_name_one_slot :
    Cut "  user--Name ".toList ["user".toList, "Name".toList] ∧
      Cut "USER.name".toList ["USER".toList, "name".toList] ∧
      normalize "  user--Name " = "user_name" ∧ Vars.SameSlot "  user--Name " "USER.name" := by
  have hspaced : Cut ("  ".toList ++ "user".toList ++ ("--".toList ++ "Name".toList ++ " ".toList))
      ["user".toList, "Name".toList] := by
    refine .run ?_ (by simp) ?_ ?_ (.run ?_ (by simp) ?_ ?_ (.gap ?_)) <;> simp <;> decide
  have hdotted : Cut ([] ++ "USER".toList ++ (".".toList ++ "name".toList ++ []))
      ["USER".toList, "name".toList] := by
    refine .run ?_ (by simp) ?_ ?_ (.run ?_ (by simp) ?_ ?_ (.gap ?_)) <;> simp <;> decide
  obtain ⟨-, hjoined, -, -, -, -, hslot⟩ := folds_to_runs "  user--Name "
  have hsame := hslot "USER.name" _ _ hspaced hdotted
  refine ⟨hspaced, hdotted, ?_, hsame.mpr (by decide +kernel)⟩
  rw [← String.toList_inj, hjoined _ hspaced]
  decide +kernel

end Key

end Workflow
