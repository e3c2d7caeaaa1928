import Workflow.Proofs.Text.Blank
import Workflow.Proofs.Text.Lowercase

/-!
# Folded keys

A folded key is made of words: the maximal runs of characters that are no separators, in lower case,
with one underscore between any two (`toList_normalize`). A word is its own only run, so the runs of
a folded key are those of the key (`runs_normalize`), and folding twice is folding once
(`normalize_normalize`).
-/

namespace Workflow.Key

open Text (lowerChar)

/-! ## The runs of a key -/

/-- The words that pieces of a key give: those that are not empty, in lower case. -/
def words (pieces : List (List Char)) : List (List Char) :=
  (pieces.filter (· ≠ [])).map (·.flatMap lowerChar)

theorem words_append (ps qs : List (List Char)) : words (ps ++ qs) = words ps ++ words qs := by
  rw [words, List.filter_append, List.map_append]
  rfl

theorem words_cons_of_ne_nil {p : List Char} (h : p ≠ []) (ps : List (List Char)) :
    words (p :: ps) = p.flatMap lowerChar :: words ps := by
  rw [words, List.filter_cons, if_pos (decide_eq_true h), List.map_cons]
  rfl

/-- A separator keeps what is before it apart from what is behind it. -/
theorem runs_append_separator (xs ys : List Char) {c : Char} (h : isSeparator c = true) :
    runs (xs ++ c :: ys) = runs xs ++ runs ys := by
  change words _ = _
  rw [List.splitOnP_append_cons xs ys h, words_append]
  rfl

theorem runs_separator {c : Char} (h : isSeparator c = true) (cs : List Char) :
    runs (c :: cs) = runs cs :=
  runs_append_separator [] cs h

theorem runs_snoc_separator {c : Char} (h : isSeparator c = true) (cs : List Char) :
    runs (cs ++ [c]) = runs cs :=
  (runs_append_separator cs [] h).trans (List.append_nil _)

theorem isSeparator_of_isBlank {c : Char} (h : Text.isBlank c = true) : isSeparator c = true := by
  simp only [isSeparator, h, Bool.true_or]

theorem runs_gap_append {gap : List Char} (hgap : ∀ c ∈ gap, isSeparator c = true)
    (cs : List Char) : runs (gap ++ cs) = runs cs := by
  induction gap with
  | nil => rfl
  | cons c gap ih =>
    obtain ⟨hc, hrest⟩ := List.forall_mem_cons.mp hgap
    rw [List.cons_append, runs_separator hc, ih hrest]

theorem runs_trimStart (cs : List Char) : runs (Text.trimStart cs) = runs cs := by
  have hblank : ∀ c ∈ cs.takeWhile Text.isBlank, isSeparator c = true := by
    intro c hc
    exact isSeparator_of_isBlank (List.mem_takeWhile_imp hc)
  conv_rhs => rw [← List.takeWhile_append_dropWhile (p := Text.isBlank) (l := cs)]
  rw [runs_gap_append hblank, Text.trimStart]

theorem runs_trimEnd (cs : List Char) : runs (Text.trimEnd cs) = runs cs := by
  induction cs using List.reverseRecOn with
  | nil => rfl
  | append_singleton cs c ih =>
    change runs (List.rdropWhile _ _) = _
    rw [List.rdropWhile_concat]
    split
    · next hblank => rw [runs_snoc_separator (isSeparator_of_isBlank hblank)]; exact ih
    · rfl

/-- Blanks at the ends make no difference to the runs. -/
theorem runs_trim (cs : List Char) : runs (Text.trim cs) = runs cs := by
  rw [Text.trim, runs_trimEnd, runs_trimStart]

/-! ## Folding -/

/-- Words with an underscore before each. -/
def led (ws : List (List Char)) : List Char := ws.flatMap ('_' :: ·)

theorem intercalate_cons (w : List Char) (ws : List (List Char)) :
    List.intercalate ['_'] (w :: ws) = w ++ led ws := by
  induction ws generalizing w with
  | nil => simp [led]
  | cons v ws ih =>
    rw [List.intercalate_cons_cons, ih, List.append_assoc]
    rfl

/-- Once a letter was met, the piece goes on and each later word is led by an underscore; if one is
owed already, so is the next. -/
theorem foldChars_started (cs : List Char) :
    (∀ piece pieces, cs.splitOnP isSeparator = piece :: pieces →
      foldChars true false cs = piece.flatMap lowerChar ++ led (words pieces)) ∧
    foldChars true true cs = led (runs cs) := by
  induction cs with
  | nil =>
    refine ⟨fun piece pieces h => ?_, rfl⟩
    cases h
    rfl
  | cons c cs ih =>
    obtain ⟨hgoing, howed⟩ := ih
    cases hc : isSeparator c with
    | true =>
      rw [foldChars, foldChars, if_pos hc, if_pos hc, runs_separator hc]
      refine ⟨fun piece pieces h => ?_, howed⟩
      rw [List.splitOnP_cons_eq_if_modifyHead, if_pos hc] at h
      cases h
      exact howed
    | false =>
      rw [foldChars, foldChars, hc, if_neg Bool.false_ne_true, if_neg Bool.false_ne_true, runs,
        List.splitOnP_cons_eq_if_modifyHead, hc, if_neg Bool.false_ne_true]
      cases hcs : cs.splitOnP isSeparator with
      | nil => exact absurd hcs (List.splitOnP_ne_nil _ _)
      | cons rest pieces =>
        rw [hgoing rest pieces hcs]
        refine ⟨fun piece pieces' h => ?_, ?_⟩
        · cases h
          simp
        · simp [led, words]

/-- Folding joins the runs by underscores. -/
theorem foldChars_eq (cs : List Char) :
    foldChars false false cs = List.intercalate ['_'] (runs cs) := by
  induction cs with
  | nil => rfl
  | cons c cs ih =>
    cases hc : isSeparator c with
    | true => rw [foldChars, if_pos hc, runs_separator hc, ih]
    | false =>
      rw [foldChars, hc, if_neg Bool.false_ne_true, runs, List.splitOnP_cons_eq_if_modifyHead, hc,
        if_neg Bool.false_ne_true]
      cases hcs : cs.splitOnP isSeparator with
      | nil => exact absurd hcs (List.splitOnP_ne_nil _ _)
      | cons rest pieces =>
        rw [(foldChars_started cs).1 rest pieces hcs]
        change _ = List.intercalate ['_'] (words ((c :: rest) :: pieces))
        rw [words_cons_of_ne_nil (List.cons_ne_nil _ _), intercalate_cons, List.flatMap_cons,
          List.nil_append, List.append_assoc]

/-- **A folded key** is made of the runs of the key, with one underscore between any two. -/
theorem toList_normalize (key : String) :
    (normalize key).toList = List.intercalate ['_'] (runs key.toList) := by
  rw [normalize, String.toList_ofList, foldChars_eq, runs_trim]

/-! ## Words -/

/-- A run in lower case. -/
structure IsWord (w : List Char) : Prop where
  /-- there is something in it -/
  ne_nil : w ≠ []
  /-- no separator is -/
  part : ∀ c ∈ w, isSeparator c = false
  /-- nothing in it has another lower-case form -/
  lower : ∀ c ∈ w, lowerChar c = [c]

theorem not_isSeparator_of_mem_piece {cs piece : List Char}
    (h : piece ∈ cs.splitOnP isSeparator) : ∀ c ∈ piece, isSeparator c = false := by
  induction cs generalizing piece with
  | nil =>
    obtain rfl := List.mem_singleton.mp h
    exact List.forall_mem_nil _
  | cons c cs ih =>
    rw [List.splitOnP_cons_eq_if_modifyHead] at h
    split at h
    · rcases List.mem_cons.mp h with rfl | h
      · exact List.forall_mem_nil _
      · exact ih h
    · next hc =>
      cases hcs : cs.splitOnP isSeparator with
      | nil => exact absurd hcs (List.splitOnP_ne_nil _ _)
      | cons rest pieces =>
        rw [hcs] at h ih
        rcases List.mem_cons.mp h with rfl | h
        · exact List.forall_mem_cons.mpr
            ⟨Bool.eq_false_iff.mpr hc, ih (List.mem_cons_self ..)⟩
        · exact ih (List.mem_cons_of_mem _ h)

/-- Runs are words. -/
theorem isWord_of_mem_runs {cs w : List Char} (h : w ∈ runs cs) : IsWord w := by
  obtain ⟨piece, hpiece, rfl⟩ := List.mem_map.mp h
  obtain ⟨hmem, hne⟩ := List.mem_filter.mp hpiece
  have hpart := not_isSeparator_of_mem_piece hmem
  refine ⟨?_, ?_, ?_⟩
  · obtain ⟨c, rest, rfl⟩ := List.exists_cons_of_ne_nil (of_decide_eq_true hne)
    rw [List.flatMap_cons]
    exact List.append_ne_nil_of_left_ne_nil (Text.lowerChar_ne_nil c) _
  · intro d hd
    obtain ⟨c, hc, hd⟩ := List.mem_flatMap.mp hd
    exact Text.not_isSeparator_lowered (hpart c hc) hd
  · intro d hd
    obtain ⟨c, -, hd⟩ := List.mem_flatMap.mp hd
    exact Text.lowerChar_lowered hd

/-- Where no separator is, there is one run. -/
theorem runs_of_part {cs : List Char} (hne : cs ≠ []) (hpart : ∀ c ∈ cs, isSeparator c = false) :
    runs cs = [cs.flatMap lowerChar] := by
  change words _ = _
  rw [List.splitOnP_eq_singleton hpart, words_cons_of_ne_nil hne]
  rfl

/-- A word is its own only run. -/
theorem IsWord.runs_eq {w : List Char} (h : IsWord w) : runs w = [w] := by
  have hlower : w.flatMap lowerChar = w :=
    (List.flatMap_congr h.lower).trans (List.flatMap_singleton' w)
  rw [runs_of_part h.ne_nil h.part, hlower]

/-- The runs of joined words are the words. -/
theorem runs_intercalate {ws : List (List Char)} (h : ∀ w ∈ ws, IsWord w) :
    runs (List.intercalate ['_'] ws) = ws := by
  cases ws with
  | nil => rfl
  | cons w ws =>
    rw [intercalate_cons]
    induction ws generalizing w with
    | nil => exact (congrArg runs (List.append_nil w)).trans (h w (List.mem_cons_self ..)).runs_eq
    | cons v ws ih =>
      obtain ⟨hw, hrest⟩ := List.forall_mem_cons.mp h
      change runs (w ++ '_' :: (v ++ led ws)) = _
      rw [runs_append_separator w _ rfl, hw.runs_eq, ih v hrest]
      rfl

/-- The runs of a folded key are those of the key. -/
theorem runs_normalize (key : String) : runs (normalize key).toList = runs key.toList := by
  rw [toList_normalize, runs_intercalate fun _ => isWord_of_mem_runs]

/-- Keys fold alike if they have the same runs. -/
theorem normalize_eq_iff {key other : String} :
    normalize key = normalize other ↔ runs key.toList = runs other.toList := by
  constructor
  · intro h
    rw [← runs_normalize key, h, runs_normalize other]
  · intro h
    rw [← String.toList_inj, toList_normalize, h, toList_normalize]

/-- **Folding twice is folding once.** -/
theorem normalize_normalize (key : String) : normalize (normalize key) = normalize key := by
  rw [← String.toList_inj, toList_normalize, runs_normalize, toList_normalize]

end Workflow.Key
