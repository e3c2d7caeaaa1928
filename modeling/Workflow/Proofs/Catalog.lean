import Mathlib.Data.List.Induction
import Workflow.Catalog

/-!
# Finding shared scripts

A catalog that was filled by a row of entries holds, under each folded name, the script of the last
entry with that name (`find?_ofList`). Going through its names in order and keeping the longest that
is related to the wanted one, and of two with one length the later, comes down to the best of them
(`bestMatch_spec`), and only one name is the best (`IsBest.unique`).

A name of separators folds to nothing, and nothing is contained in every name. So an entry with such
a name is related to all that is wanted; as the shortest of all names it is the best only where no
other one is related (`lookup_ofList`).
-/

namespace Workflow.Catalog

/-! ## Containment -/

theorem isInfix_iff {part cs : List Char} : isInfix part cs = true ↔ part <:+: cs := by
  induction cs with
  | nil => rw [isInfix, List.isEmpty_iff, List.infix_nil]
  | cons c cs ih =>
    rw [isInfix, Bool.or_eq_true, List.isPrefixOf_iff_prefix, ih, List.infix_cons_iff]

/-- One of two names contains the other. -/
def Related (wanted name : String) : Prop :=
  wanted.toList <:+: name.toList ∨ name.toList <:+: wanted.toList

theorem related_iff {wanted name : String} : related wanted name = true ↔ Related wanted name := by
  rw [related, Bool.or_eq_true, isInfix_iff, isInfix_iff]
  rfl

/-- The name of no characters is contained in every name. -/
theorem related_empty (wanted : String) : Related wanted "" := Or.inr (List.nil_infix)

/-! ## What a row of entries comes to -/

/-- The script of the last entry with a folded name. -/
def lastUnder (entries : List (String × String)) (name : String) : Option String :=
  (entries.reverse.find? fun e => Key.normalize e.1 = name).map Prod.snd

/-- The folded names of entries. -/
def foldedNames (entries : List (String × String)) : List String :=
  entries.map fun e => Key.normalize e.1

section Entries

variable {entries : List (String × String)} {name : String}

theorem find?_insert (catalog : Catalog) (name other script : String) :
    (catalog.insert name script).scripts.find? other =
      if Key.normalize name = other then some script else catalog.scripts.find? other :=
  Fields.find?_put ..

/-- A catalog has under each name what was inserted last. -/
theorem find?_ofList (entries : List (String × String)) (name : String) :
    (ofList entries).scripts.find? name = lastUnder entries name := by
  rw [ofList, lastUnder, ← List.foldr_reverse]
  induction entries.reverse with
  | nil => rfl
  | cons e rest ih =>
    rw [List.foldr_cons, find?_insert, List.find?_cons, ih]
    split
    · next h => rw [decide_eq_true h]; rfl
    · next h => rw [decide_eq_false h]

theorem sorted_ofList (entries : List (String × String)) : (ofList entries).scripts.Sorted := by
  rw [ofList, ← List.foldr_reverse]
  induction entries.reverse with
  | nil => exact List.Pairwise.nil
  | cons e rest ih => exact ih.put _ _

theorem exists_lastUnder_iff :
    (∃ script, lastUnder entries name = some script) ↔ name ∈ foldedNames entries := by
  rw [← Option.isSome_iff_exists, lastUnder, Option.isSome_map, List.find?_isSome, foldedNames,
    List.mem_map]
  simp only [List.mem_reverse, decide_eq_true_eq]

/-- The names of a catalog are those of its entries. -/
theorem mem_names_ofList : name ∈ (ofList entries).scripts.names ↔ name ∈ foldedNames entries := by
  rw [← exists_lastUnder_iff, ← find?_ofList]
  constructor
  · intro h
    obtain ⟨f, hf, rfl⟩ := List.mem_map.mp h
    exact ⟨f.2, (sorted_ofList entries).find?_of_mem hf⟩
  · rintro ⟨script, h⟩
    exact List.mem_map_of_mem (f := Prod.fst) (Fields.mem_of_find? h)

end Entries

/-! ## The best of the names -/

/-- **The best of some names** for a wanted one: it is related, and all others that are come
behind it, because they are shorter, or as long and not greater. Lengths are counted in bytes. -/
structure IsBest (names : List String) (wanted best : String) : Prop where
  /-- it is one of them -/
  mem : best ∈ names
  /-- it is related -/
  related : Related wanted best
  /-- the others come behind it -/
  ahead : ∀ name ∈ names, Related wanted name → name.utf8ByteSize < best.utf8ByteSize ∨
    name.utf8ByteSize = best.utf8ByteSize ∧ name ≤ best

section Best

variable {names : List String} {wanted best : String}

/-- Only one name is the best. -/
theorem IsBest.unique (h : IsBest names wanted best) {other : String}
    (hother : IsBest names wanted other) : other = best := by
  rcases h.ahead other hother.mem hother.related with hlt | ⟨hsize, hle⟩ <;>
    rcases hother.ahead best h.mem h.related with hlt' | ⟨hsize', hle'⟩
  · exact absurd hlt (Nat.lt_asymm hlt')
  · exact absurd hlt (Nat.lt_irrefl _ <| hsize' ▸ ·)
  · exact absurd hlt' (Nat.lt_irrefl _ <| hsize ▸ ·)
  · exact String.le_antisymm hle hle'

/-- A name that is not related, or shorter, makes no difference to the best. -/
theorem IsBest.append (h : IsBest names wanted best) {last : String}
    (hlast : Related wanted last → last.utf8ByteSize < best.utf8ByteSize) :
    IsBest (names ++ [last]) wanted best :=
  ⟨List.mem_append_left _ h.mem, h.related, List.forall_mem_append.mpr
    ⟨h.ahead, List.forall_mem_singleton.mpr fun hrelated => Or.inl (hlast hrelated)⟩⟩

/-- A name that is as long as all related names before it, and greater, is the best. -/
theorem isBest_last {last : String} (hrelated : Related wanted last)
    (hlonger : ∀ name ∈ names, Related wanted name → name.utf8ByteSize ≤ last.utf8ByteSize)
    (hgreater : ∀ name ∈ names, name < last) : IsBest (names ++ [last]) wanted last := by
  refine ⟨List.mem_append_right _ (List.mem_singleton_self _), hrelated,
    List.forall_mem_append.mpr ⟨fun name hname hrel => ?_, ?_⟩⟩
  · have hle : name ≤ last := String.not_lt.mp (String.lt_asymm (hgreater name hname))
    exact (Nat.lt_or_eq_of_le (hlonger name hname hrel)).imp_right fun hsize => ⟨hsize, hle⟩
  · exact List.forall_mem_singleton.mpr fun _ => Or.inr ⟨rfl, String.le_refl _⟩

/-- Going through names in order and keeping the longer one, or the later of two with one length,
comes down to the best. -/
theorem bestMatch_spec {scripts : Fields String} (hs : scripts.Sorted) (wanted : String) :
    (bestMatch wanted scripts = none ∧ ∀ name ∈ scripts.names, ¬Related wanted name) ∨
      ∃ best script, bestMatch wanted scripts = some (best, script) ∧ (best, script) ∈ scripts ∧
        IsBest scripts.names wanted best := by
  induction scripts using List.reverseRecOn with
  | nil => exact Or.inl ⟨rfl, List.forall_mem_nil _⟩
  | append_singleton scripts f ih =>
    obtain ⟨last, script⟩ := f
    rw [Fields.Sorted, Fields.names, List.map_append, List.pairwise_append] at hs
    obtain ⟨hinit, -, hbefore⟩ := hs
    have hgreater : ∀ name ∈ Fields.names scripts, name < last :=
      fun name hname => hbefore name hname last (List.mem_singleton_self last)
    have hnames : Fields.names (scripts ++ [(last, script)]) = Fields.names scripts ++ [last] :=
      List.map_append
    have hmem : (last, script) ∈ scripts ++ [(last, script)] :=
      List.mem_append_right _ (List.mem_singleton_self _)
    rw [bestMatch, List.foldl_append, ← bestMatch, List.foldl_cons, List.foldl_nil, hnames]
    dsimp only
    by_cases hrelated : Related wanted last
    · rw [if_pos (related_iff.mpr hrelated)]
      refine Or.inr ?_
      rcases ih hinit with ⟨hnone, hunrelated⟩ | ⟨best, kept, hsome, hkept, hbest⟩
      · rw [hnone]
        exact ⟨last, script, rfl, hmem, isBest_last hrelated
          (fun name hname hrel => absurd hrel (hunrelated name hname)) hgreater⟩
      · rw [hsome]
        dsimp only
        split
        · next hshorter =>
          exact ⟨best, kept, rfl, List.mem_append_left _ hkept, hbest.append fun _ => hshorter⟩
        · next hlonger =>
          refine ⟨last, script, rfl, hmem, isBest_last hrelated (fun name hname hrel => ?_) hgreater⟩
          rcases hbest.ahead name hname hrel with hlt | ⟨hsize, -⟩ <;> omega
    · rw [if_neg (mt related_iff.mp hrelated)]
      rcases ih hinit with ⟨hnone, hunrelated⟩ | ⟨best, kept, hsome, hkept, hbest⟩
      · exact Or.inl ⟨hnone, List.forall_mem_append.mpr
          ⟨hunrelated, List.forall_mem_singleton.mpr hrelated⟩⟩
      · exact Or.inr ⟨best, kept, hsome, List.mem_append_left _ hkept,
          hbest.append fun hrel => absurd hrel hrelated⟩

theorem utf8ByteSize_pos {name : String} (h : name ≠ "") : 0 < name.utf8ByteSize :=
  Nat.pos_of_ne_zero fun hzero => h (String.utf8ByteSize_eq_zero_iff.mp hzero)

/-- The order of the names makes no difference to the best. -/
theorem IsBest.of_mem_iff {others : List String} (h : IsBest names wanted best)
    (hmem : ∀ name, name ∈ names ↔ name ∈ others) : IsBest others wanted best :=
  ⟨(hmem best).mp h.mem, h.related, fun name hname => h.ahead name ((hmem name).mpr hname)⟩

/-- The name of no characters is the best only if no other one is related. -/
theorem isBest_filter_iff (hne : best ≠ "") :
    IsBest (names.filter (· ≠ "")) wanted best ↔ IsBest names wanted best := by
  have hpos := utf8ByteSize_pos hne
  constructor
  · intro h
    refine ⟨(List.mem_filter.mp h.mem).1, h.related, fun name hname hrel => ?_⟩
    by_cases hempty : name = ""
    · exact Or.inl (hempty ▸ hpos)
    · exact h.ahead name (List.mem_filter.mpr ⟨hname, decide_eq_true hempty⟩) hrel
  · intro h
    exact ⟨List.mem_filter.mpr ⟨h.mem, decide_eq_true hne⟩, h.related,
      fun name hname => h.ahead name (List.mem_filter.mp hname).1⟩

end Best

/-! ## Looking up -/

theorem lookup_of_empty (catalog : Catalog) {name : String} (h : Key.normalize name = "") :
    catalog.lookup name = none := by
  rw [lookup, h]
  rfl

/-- A script under the name itself comes first, then the one of the best name. -/
theorem lookup_eq (catalog : Catalog) {name : String} (h : Key.normalize name ≠ "") :
    catalog.lookup name = (catalog.scripts.find? (Key.normalize name)).or
      ((bestMatch (Key.normalize name) catalog.scripts).map Prod.snd) := by
  rw [lookup, if_neg (mt String.isEmpty_iff.mp h)]
  cases catalog.scripts.find? (Key.normalize name) <;> rfl

/-- **The best of what was inserted** is a name that is not empty, and its last script is kept. Only
where no such name is related is it the empty name, if that is among them. -/
theorem bestMatch_ofList (entries : List (String × String)) (wanted : String) :
    (∃ best script, IsBest ((foldedNames entries).filter (· ≠ "")) wanted best ∧
      lastUnder entries best = some script ∧
      (bestMatch wanted (ofList entries).scripts).map Prod.snd = some script) ∨
    (∀ name ∈ (foldedNames entries).filter (· ≠ ""), ¬Related wanted name) ∧
      (bestMatch wanted (ofList entries).scripts).map Prod.snd = lastUnder entries "" := by
  rcases bestMatch_spec (sorted_ofList entries) wanted with
    ⟨hbest, hunrelated⟩ | ⟨best, script, hbest, hscript, hspec⟩
  · refine Or.inr ⟨fun name hname => ?_, ?_⟩
    · exact hunrelated name (mem_names_ofList.mpr (List.mem_filter.mp hname).1)
    · -- the empty name is related to all names, so it is not among them
      have hempty : ¬∃ script, lastUnder entries "" = some script := by
        rw [exists_lastUnder_iff, ← mem_names_ofList]
        exact fun hmem => hunrelated "" hmem (related_empty wanted)
      rw [hbest]
      exact (Option.eq_none_iff_forall_ne_some.mpr (not_exists.mp hempty)).symm
  · have hlast : lastUnder entries best = some script :=
      (find?_ofList entries best).symm.trans ((sorted_ofList entries).find?_of_mem hscript)
    replace hspec := hspec.of_mem_iff fun _ => mem_names_ofList
    rw [hbest]
    by_cases hempty : best = ""
    · subst hempty
      refine Or.inr ⟨fun name hname hrelated => ?_, hlast.symm⟩
      obtain ⟨hfolded, hne⟩ := List.mem_filter.mp hname
      have hpos := utf8ByteSize_pos (of_decide_eq_true hne)
      rcases hspec.ahead name hfolded hrelated with hlt | ⟨hsize, -⟩
      · exact absurd hlt (Nat.not_lt_zero _)
      · exact absurd hsize (Nat.ne_of_gt hpos)
    · exact Or.inl ⟨best, script, (isBest_filter_iff hempty).mpr hspec, hlast, rfl⟩

/-- **What is found.** For every row of entries and every name: nothing, if the name folds to nothing;
else the script of the last entry with the same folded name, if there is one; else, if folded names
that are not empty contain the wanted one or are contained in it, the last script under the best of
them, of which there is exactly one. If no such name does, what is found is the last script of the
entries whose names fold to nothing: nothing only if there are none. -/
theorem lookup_ofList (entries : List (String × String)) (name : String) :
    let wanted := Key.normalize name
    let names := (foldedNames entries).filter (· ≠ "")
    (wanted = "" → (ofList entries).lookup name = none) ∧
      (wanted ≠ "" → ∀ script, lastUnder entries wanted = some script →
        (ofList entries).lookup name = some script) ∧
      (wanted ≠ "" → lastUnder entries wanted = none →
        ((∃ other ∈ names, Related wanted other) → ∃ best script, IsBest names wanted best ∧
          (∀ other, IsBest names wanted other → other = best) ∧
          lastUnder entries best = some script ∧ (ofList entries).lookup name = some script) ∧
        ((∀ other ∈ names, ¬Related wanted other) →
          (ofList entries).lookup name = lastUnder entries "")) := by
  intro wanted names
  have hlookup : wanted ≠ "" → (ofList entries).lookup name = (lastUnder entries wanted).or
      ((bestMatch wanted (ofList entries).scripts).map Prod.snd) := fun hne => by
    rw [lookup_eq _ hne, find?_ofList]
  refine ⟨lookup_of_empty _, fun hne script hlast => ?_, fun hne hnone => ?_⟩
  · rw [hlookup hne, hlast]
    rfl
  · rw [hlookup hne, hnone, Option.none_or]
    rcases bestMatch_ofList entries wanted with
      ⟨best, script, hbest, hlast, hfound⟩ | ⟨hunrelated, hfound⟩
    · exact ⟨fun _ => ⟨best, script, hbest, fun _ => hbest.unique, hlast, hfound⟩,
        fun hnone => absurd hbest.related (hnone best hbest.mem)⟩
    · exact ⟨fun ⟨other, hother, hrelated⟩ => absurd hrelated (hunrelated other hother),
        fun _ => hfound⟩

/-- A script under dashes alone is found for whatever nothing else fits. -/
example : (ofList [("--", "wait()"), ("Fetch Orders", "log.info(1)")]).lookup "invoices" =
    some "wait()" := by
  decide

end Workflow.Catalog
