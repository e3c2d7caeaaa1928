import Workflow.Environment
import Mathlib.Data.List.TakeWhile

/-!
# References to the environment

A text is read from left to right: a dollar with a brace behind it opens a reference, and the name
in it goes up to the next closing brace (`Reads`). Every text is read in exactly one way, and what it
is read as is written as the text (`Reads.text_eq`), so nothing of it is lost.

Expanding a text puts values in the place of references and leaves all else (`expand_reads`), but for
one thing: a reference that is never closed is taken for one that is closed at the end of the text.
-/

namespace Workflow.Environment

/-! ## Reading -/

/-- How a reference begins, with all that is behind it. -/
def opening (cs : List Char) : List Char := '$' :: '\x7b' :: cs

/-- A piece of a text. -/
inductive Piece where
  /-- a character that stands for itself -/
  | plain (c : Char)
  /-- a reference with a closing brace -/
  | reference (name : List Char)

namespace Piece

/-- A piece as it stands in the text. -/
def written : Piece → List Char
  | plain c => [c]
  | reference name => opening (name ++ ['\x7d'])

/-- A piece with the value that an environment has for it, if it has one. -/
def filled (env : Environment) : Piece → List Char
  | plain c => [c]
  | reference name =>
    match env.find? (String.ofList name) with
    | some value => value.toList
    | none => (reference name).written

end Piece

/-- **Reading** a text from left to right: its pieces, and the name in the reference at its end that
is never closed, if there is one. -/
inductive Reads : List Char → List Piece → Option (List Char) → Prop where
  /-- nothing is left -/
  | done : Reads [] [] none
  /-- a reference is opened, and no brace closes it -/
  | unclosed {name : List Char} (h : '\x7d' ∉ name) : Reads (opening name) [] (some name)
  /-- a character at which no reference begins -/
  | plain {c : Char} {cs : List Char} {ps : List Piece} {left : Option (List Char)}
      (h : ∀ rest, c :: cs ≠ opening rest) (hrest : Reads cs ps left) :
      Reads (c :: cs) (.plain c :: ps) left
  /-- a reference, up to the next brace that closes one -/
  | reference {name cs : List Char} {ps : List Piece} {left : Option (List Char)}
      (h : '\x7d' ∉ name) (hrest : Reads cs ps left) :
      Reads (opening (name ++ '\x7d' :: cs)) (.reference name :: ps) left

section Reads

variable {cs : List Char} {ps : List Piece} {left : Option (List Char)}

/-- What a text is read as is written as the text. -/
theorem Reads.text_eq (h : Reads cs ps left) :
    cs = ps.flatMap Piece.written ++ left.elim [] opening := by
  induction h with
  | done => rfl
  | unclosed => rfl
  | plain _ _ ih =>
    rw [List.flatMap_cons, List.append_assoc, ← ih]
    rfl
  | reference _ _ ih =>
    rw [List.flatMap_cons, List.append_assoc, ← ih]
    simp [Piece.written, opening]

/-- What is up to the first closing brace, and what is behind it. -/
theorem cut_at_brace {name : List Char} (h : '\x7d' ∉ name) (cs : List Char) :
    (name ++ '\x7d' :: cs).takeWhile (· ≠ '\x7d') = name ∧
      (name ++ '\x7d' :: cs).dropWhile (· ≠ '\x7d') = '\x7d' :: cs := by
  have hname : ∀ c ∈ name, decide (c ≠ '\x7d') = true :=
    fun c hc => decide_eq_true fun heq => h (heq ▸ hc)
  rw [List.takeWhile_append_of_pos hname, List.dropWhile_append_of_pos hname]
  exact ⟨List.append_nil name, rfl⟩

/-- Every text can be read. -/
theorem exists_reads (cs : List Char) : ∃ ps left, Reads cs ps left := by
  induction hn : cs.length using Nat.strongRecOn generalizing cs with
  | ind n ih =>
    subst hn
    by_cases hopen : ∃ rest, cs = opening rest
    · obtain ⟨rest, rfl⟩ := hopen
      by_cases hbrace : '\x7d' ∈ rest
      · obtain ⟨name, behind, rfl, hname⟩ := List.eq_append_cons_of_mem hbrace
        have hless : behind.length < (opening (name ++ '\x7d' :: behind)).length := by
          simp only [opening, List.length_cons, List.length_append]
          omega
        obtain ⟨ps, left, hrest⟩ := ih _ hless behind rfl
        exact ⟨_, _, .reference hname hrest⟩
      · exact ⟨_, _, .unclosed hbrace⟩
    · cases cs with
      | nil => exact ⟨_, _, .done⟩
      | cons c cs =>
        obtain ⟨ps, left, hrest⟩ := ih _ (Nat.lt_succ_self _) cs rfl
        exact ⟨_, _, .plain (fun rest heq => hopen ⟨rest, heq⟩) hrest⟩

/-- The rest behind an opened reference determines its name. -/
theorem name_unique {name name' cs cs' : List Char} (h : '\x7d' ∉ name) (h' : '\x7d' ∉ name')
    (heq : name ++ '\x7d' :: cs = name' ++ '\x7d' :: cs') : name = name' ∧ cs = cs' := by
  obtain ⟨htake, hdrop⟩ := cut_at_brace h cs
  obtain ⟨htake', hdrop'⟩ := cut_at_brace h' cs'
  rw [heq] at htake hdrop
  exact ⟨htake.symm.trans htake', (List.cons_eq_cons.mp (hdrop.symm.trans hdrop')).2⟩

/-- A text is read in one way only. -/
theorem Reads.unique (h : Reads cs ps left) {ps' : List Piece} {left' : Option (List Char)}
    (h' : Reads cs ps' left') : ps' = ps ∧ left' = left := by
  induction h generalizing ps' left' with
  | done =>
    cases h' with
    | done => exact ⟨rfl, rfl⟩
  | @unclosed name hname =>
    generalize htext : opening name = text at h'
    cases h' with
    | done => cases htext
    | unclosed =>
      cases htext
      exact ⟨rfl, rfl⟩
    | plain hplain => exact absurd htext.symm (hplain name)
    | reference =>
      cases htext
      exact absurd (List.mem_append_right _ List.mem_cons_self) hname
  | @plain c cs ps left hplain _ ih =>
    generalize htext : c :: cs = text at h'
    cases h' with
    | done => cases htext
    | unclosed => exact absurd htext (hplain _)
    | plain _ hrest =>
      cases htext
      obtain ⟨rfl, rfl⟩ := ih hrest
      exact ⟨rfl, rfl⟩
    | reference => exact absurd htext (hplain _)
  | @reference name cs ps left hname _ ih =>
    generalize htext : opening (name ++ '\x7d' :: cs) = text at h'
    cases h' with
    | done => cases htext
    | unclosed hnone =>
      cases htext
      exact absurd (List.mem_append_right _ List.mem_cons_self) hnone
    | plain hplain => exact absurd htext.symm (hplain _)
    | reference hname' hrest =>
      obtain ⟨rfl, rfl⟩ := name_unique hname hname' (by simpa [opening] using htext)
      obtain ⟨rfl, rfl⟩ := ih hrest
      exact ⟨rfl, rfl⟩

/-! ## Expanding -/

/-- One step of the scanner where a reference begins. -/
theorem expandFrom_opening (env : Environment) (fuel : Nat) (rest : List Char) :
    expandFrom env (fuel + 1) (opening rest) =
      (Piece.reference (rest.takeWhile (· ≠ '\x7d'))).filled env ++
        expandFrom env fuel ((rest.dropWhile (· ≠ '\x7d')).drop 1) := by
  rw [opening, expandFrom, Piece.filled]
  simp only [String.toList_ofList]
  rfl

/-- One step of the scanner where none does. -/
theorem expandFrom_plain (env : Environment) (fuel : Nat) {c : Char} {cs : List Char}
    (h : ∀ rest, c :: cs ≠ opening rest) :
    expandFrom env (fuel + 1) (c :: cs) = c :: expandFrom env fuel cs := by
  rw [expandFrom]
  intro rest hc hcs
  exact h rest (by rw [hc, hcs]; rfl)

theorem expandFrom_nil (env : Environment) (fuel : Nat) : expandFrom env fuel [] = [] := by
  cases fuel <;> rfl

/-- **The scanner fills in what it reads**, and what is never closed as if it were closed. -/
theorem Reads.expandFrom_eq (h : Reads cs ps left) (env : Environment) {fuel : Nat}
    (hfuel : cs.length < fuel) :
    expandFrom env fuel cs =
      (ps ++ left.toList.map Piece.reference).flatMap (Piece.filled env) := by
  induction h generalizing fuel with
  | done => exact expandFrom_nil env fuel
  | @unclosed name hname =>
    have hnone : ∀ c ∈ name, decide (c ≠ '\x7d') = true :=
      fun c hc => decide_eq_true fun heq => hname (heq ▸ hc)
    obtain ⟨fuel, rfl⟩ := Nat.exists_eq_add_one_of_ne_zero (Nat.ne_zero_of_lt hfuel)
    rw [expandFrom_opening, List.takeWhile_eq_self_iff.mpr hnone,
      List.dropWhile_eq_nil_iff.mpr hnone, List.drop_nil, expandFrom_nil]
    rfl
  | plain hplain _ ih =>
    obtain ⟨fuel, rfl⟩ := Nat.exists_eq_add_one_of_ne_zero (Nat.ne_zero_of_lt hfuel)
    rw [expandFrom_plain env fuel hplain, ih (Nat.lt_of_succ_lt_succ hfuel)]
    rfl
  | @reference name cs ps left hname _ ih =>
    obtain ⟨fuel, rfl⟩ := Nat.exists_eq_add_one_of_ne_zero (Nat.ne_zero_of_lt hfuel)
    obtain ⟨htake, hdrop⟩ := cut_at_brace hname cs
    have hless : cs.length < fuel := by
      simp only [opening, List.length_cons, List.length_append] at hfuel
      omega
    rw [expandFrom_opening, htake, hdrop, List.drop_one, List.tail_cons, ih hless]
    rfl

end Reads

/-- A reference that is filled in stays as it is without a brace only if that is its value. -/
theorem filled_eq_opening_iff (env : Environment) (name : List Char) :
    (Piece.reference name).filled env = opening name ↔
      env.find? (String.ofList name) = some (String.ofList (opening name)) := by
  rw [Piece.filled]
  cases env.find? (String.ofList name) with
  | none => simp [Piece.written, opening]
  | some value =>
    dsimp only
    rw [Option.some_inj, ← String.toList_inj, String.toList_ofList]

/-- **References are replaced, and all else stays, if every reference is closed.** A text is read in
exactly one way. If no reference stays open, expanding it fills in the references that name a
variable and leaves all else as it is written. If one does, what is before it is treated alike, but
the reference is not left alone: it is filled in like a closed one, and where its variable is not set
a brace is put behind the text that was not there. It stays as it is only if it is its own value. -/
theorem expand_reads (text : String) : ∃ pieces left, Reads text.toList pieces left ∧
    (∀ pieces' left', Reads text.toList pieces' left' → pieces' = pieces ∧ left' = left) ∧
    text.toList = pieces.flatMap Piece.written ++ left.elim [] opening ∧
    ∀ env : Environment,
      (left = none → (env.expand text).toList = pieces.flatMap (Piece.filled env)) ∧
      ∀ name, left = some name →
        (env.expand text).toList =
          pieces.flatMap (Piece.filled env) ++ (Piece.reference name).filled env ∧
        ((env.expand text).toList = pieces.flatMap (Piece.filled env) ++ opening name ↔
          env.find? (String.ofList name) = some (String.ofList (opening name))) := by
  obtain ⟨pieces, left, hreads⟩ := exists_reads text.toList
  refine ⟨pieces, left, hreads, fun _ _ => hreads.unique, hreads.text_eq, fun env => ?_⟩
  have hexpand : (env.expand text).toList =
      (pieces ++ left.toList.map Piece.reference).flatMap (Piece.filled env) := by
    rw [expand, String.toList_ofList]
    exact hreads.expandFrom_eq env (Nat.lt_succ_self _)
  rw [hexpand, List.flatMap_append]
  refine ⟨?_, ?_⟩
  · rintro rfl
    exact List.append_nil _
  · rintro name rfl
    rw [Option.toList_some, List.map_singleton, List.flatMap_singleton]
    refine ⟨rfl, ?_⟩
    rw [List.append_cancel_left_eq]
    exact filled_eq_opening_iff env name

/-- A reference that is not closed and names nothing gets a brace. -/
example : expand [("A", "1")] "$\x7bA\x7d, $\x7bB" = "1, $\x7bB\x7d" := by decide

end Workflow.Environment
