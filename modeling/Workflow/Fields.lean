/-!
# Fields: values under names, in order of their names

A map from names to values, kept as a list in strictly ascending order of the
names, so that equal maps are equal lists and writing one out needs no sorting.
Objects, the store of a run and the script catalog are all kept this way.

The view of a list of fields is `find?`. Each operation comes with the equation
that says what it does to the view; only `put` and `erase` build new lists, and
both keep the order (`Sorted.put`, `Sorted.erase`).
-/

namespace Workflow

/-- Values under names. -/
abbrev Fields (α : Type) := List (String × α)

namespace Fields

variable {α : Type}

/-- The value under a name: the first, if the names are not distinct. -/
def find? (fs : Fields α) (name : String) : Option α :=
  match fs with
  | [] => none
  | (k, v) :: rest => if k = name then some v else find? rest name

/-- Whether a name is present. -/
def has (fs : Fields α) (name : String) : Bool := (fs.find? name).isSome

/-- Puts a value under a name, in place of the one that was there. -/
def put (fs : Fields α) (name : String) (value : α) : Fields α :=
  match fs with
  | [] => [(name, value)]
  | (k, v) :: rest =>
    if name = k then (name, value) :: rest
    else if name < k then (name, value) :: (k, v) :: rest
    else (k, v) :: put rest name value

/-- Removes a name. -/
def erase (fs : Fields α) (name : String) : Fields α :=
  fs.filter fun (k, _) => k ≠ name

/-- The fields of a list of pairs in any order; of two values under one name the
later one stays. -/
def ofList (ps : List (String × α)) : Fields α :=
  ps.foldl (fun fs (k, v) => fs.put k v) []

/-- The names, in order. -/
def names (fs : Fields α) : List String := fs.map Prod.fst

/-- The names are in strictly ascending order. -/
def Sorted (fs : Fields α) : Prop := fs.names.Pairwise (· < ·)

/-! ## What the operations do to the view -/

@[simp] theorem find?_nil (name : String) : find? ([] : Fields α) name = none := rfl

theorem find?_first (name : String) (value : α) (rest : Fields α) :
    find? ((name, value) :: rest) name = some value := if_pos rfl

/-- The value under a name is that of the first pair with the name. -/
theorem find?_eq (fs : Fields α) (name : String) :
    fs.find? name = (List.find? (fun (k, _) => k = name) fs).map Prod.snd := by
  induction fs with
  | nil => rfl
  | cons f rest ih =>
    obtain ⟨k, v⟩ := f
    rw [find?, List.find?_cons]
    by_cases hk : k = name
    · simp [hk]
    · simp [hk, ih]

theorem find?_put (fs : Fields α) (name other : String) (value : α) :
    (fs.put name value).find? other = if name = other then some value else fs.find? other := by
  induction fs with
  | nil => simp [put, find?]
  | cons f rest ih =>
    obtain ⟨k, v⟩ := f
    simp only [put]
    split
    · next h => subst h; by_cases ho : name = other <;> simp [find?, ho]
    · split
      · simp [find?]
      · simp only [find?, ih]
        by_cases hk : k = other
        · subst hk; simp [‹¬name = k›]
        · simp [hk]

@[simp] theorem find?_put_self (fs : Fields α) (name : String) (value : α) :
    (fs.put name value).find? name = some value := by
  simp [find?_put]

theorem find?_erase (fs : Fields α) (name other : String) :
    (fs.erase name).find? other = if name = other then none else fs.find? other := by
  induction fs with
  | nil => simp [erase]
  | cons f rest ih =>
    obtain ⟨k, v⟩ := f
    simp only [erase, ne_eq, decide_not] at ih ⊢
    by_cases hk : k = name
    · subst hk
      simp only [List.filter_cons, decide_true, Bool.not_true, Bool.false_eq_true, if_false, ih,
        find?]
      by_cases ho : k = other <;> simp [ho]
    · simp only [List.filter_cons, hk, decide_false, Bool.not_false, if_true, find?, ih]
      by_cases ho : name = other
      · subst ho; simp [hk]
      · simp [ho]

theorem find?_append (fs gs : Fields α) (name : String) :
    find? (fs ++ gs) name = (fs.find? name).or (gs.find? name) := by
  induction fs with
  | nil => rfl
  | cons f rest ih =>
    obtain ⟨k, v⟩ := f
    rw [List.cons_append, find?, find?, ih]
    split <;> rfl

/-- Removing many names. -/
theorem find?_foldl_erase {β : Type} (f : β → String) (bs : List β) (fs : Fields α)
    (name : String) :
    find? (bs.foldl (fun fs b => erase fs (f b)) fs) name =
      if ∃ b ∈ bs, f b = name then none else fs.find? name := by
  induction bs generalizing fs with
  | nil => simp
  | cons b rest ih =>
    rw [List.foldl_cons, ih, find?_erase]
    by_cases hb : f b = name
    · simp [hb]
    · simp [hb]

/-- Changing all values changes each. -/
theorem find?_map {β : Type} (fs : Fields α) (f : String → α → β) (name : String) :
    find? (fs.map fun (k, v) => (k, f k v)) name = (fs.find? name).map (f name) := by
  induction fs with
  | nil => rfl
  | cons x rest ih =>
    obtain ⟨k, v⟩ := x
    rw [List.map_cons, find?, find?]
    split
    · next hk =>
      rw [hk]
      rfl
    · exact ih

/-! ## What is in the list -/

theorem mem_of_find? {fs : Fields α} {name : String} {value : α}
    (h : fs.find? name = some value) : (name, value) ∈ fs := by
  induction fs with
  | nil => cases h
  | cons f rest ih =>
    obtain ⟨k, v⟩ := f
    rw [find?] at h
    split at h
    · next hk =>
      obtain rfl := Option.some.inj h
      rw [hk]
      exact List.mem_cons_self
    · exact List.mem_cons_of_mem _ (ih h)

theorem find?_ne_none_of_mem {fs : Fields α} {f : String × α} (h : f ∈ fs) :
    fs.find? f.1 ≠ none := by
  induction fs with
  | nil => cases h
  | cons g rest ih =>
    obtain ⟨k, v⟩ := g
    rw [find?]
    split
    · exact Option.some_ne_none v
    · next hne =>
      rcases List.mem_cons.mp h with rfl | h
      · exact absurd rfl hne
      · exact ih h

theorem find?_eq_none {fs : Fields α} {name : String} (h : name ∉ fs.names) :
    fs.find? name = none := by
  cases hf : fs.find? name with
  | none => rfl
  | some v => exact absurd (List.mem_map_of_mem (f := Prod.fst) (mem_of_find? hf)) h

theorem erase_eq_self {fs : Fields α} {name : String} (h : fs.find? name = none) :
    fs.erase name = fs := by
  refine List.filter_eq_self.mpr fun f hf => decide_eq_true ?_
  rintro rfl
  exact find?_ne_none_of_mem hf h

/-- What is in a list of fields is found, if the names are distinct. -/
theorem find?_of_mem {fs : Fields α} (hn : fs.names.Nodup) {name : String} {value : α}
    (h : (name, value) ∈ fs) : fs.find? name = some value := by
  induction fs with
  | nil => cases h
  | cons f rest ih =>
    obtain ⟨k, v⟩ := f
    obtain ⟨hk, hrest⟩ := List.nodup_cons.mp hn
    rcases List.mem_cons.mp h with heq | hmem
    · obtain ⟨rfl, rfl⟩ := Prod.mk.inj heq
      rw [find?, if_pos rfl]
    · have hne : k ≠ name := by
        rintro rfl
        have hnames := List.mem_map_of_mem (f := Prod.fst) hmem
        exact hk hnames
      rw [find?, if_neg hne]
      exact ih hrest hmem

theorem Sorted.nodup {fs : Fields α} (hs : fs.Sorted) : fs.names.Nodup :=
  List.Pairwise.imp (fun {_ _} hlt => String.ne_of_lt hlt) hs

theorem Sorted.find?_of_mem {fs : Fields α} (hs : fs.Sorted) {name : String} {value : α}
    (h : (name, value) ∈ fs) : fs.find? name = some value :=
  Fields.find?_of_mem hs.nodup h

theorem mem_put {fs : Fields α} {name : String} {value : α} {f : String × α}
    (h : f ∈ fs.put name value) : f = (name, value) ∨ f ∈ fs := by
  induction fs with
  | nil => exact Or.inl (List.mem_singleton.mp h)
  | cons g rest ih =>
    obtain ⟨k, v⟩ := g
    rw [put] at h
    split at h
    · exact (List.mem_cons.mp h).imp_right (List.mem_cons_of_mem _)
    · split at h
      · exact List.mem_cons.mp h
      · rcases List.mem_cons.mp h with rfl | h
        · exact Or.inr List.mem_cons_self
        · exact (ih h).imp_right (List.mem_cons_of_mem _)

theorem mem_names_put {fs : Fields α} {name other : String} {value : α}
    (h : other ∈ (fs.put name value).names) : other = name ∨ other ∈ fs.names := by
  obtain ⟨f, hf, rfl⟩ := List.mem_map.mp h
  rcases mem_put hf with rfl | hf
  · exact Or.inl rfl
  · exact Or.inr (List.mem_map_of_mem hf)

/-! ## Order -/

theorem Sorted.put {fs : Fields α} (hs : fs.Sorted) (name : String) (value : α) :
    (fs.put name value).Sorted := by
  induction fs with
  | nil => exact List.pairwise_singleton _ _
  | cons f rest ih =>
    obtain ⟨k, v⟩ := f
    obtain ⟨hlt, hrest⟩ := List.pairwise_cons.mp hs
    rw [Fields.put]
    split
    · next hk =>
      subst hk
      exact List.pairwise_cons.mpr ⟨hlt, hrest⟩
    · next hne =>
      split
      · next hk =>
        refine List.pairwise_cons.mpr ⟨?_, hs⟩
        intro other ho
        rcases List.mem_cons.mp ho with rfl | ho
        · exact hk
        · exact String.lt_trans hk (hlt other ho)
      · next hnlt =>
        refine List.pairwise_cons.mpr ⟨?_, ih hrest⟩
        intro other ho
        rcases mem_names_put ho with rfl | ho
        · -- neither equal nor smaller, so greater
          refine String.not_le.mp fun hle => ?_
          exact hne (String.le_antisymm (String.not_lt.mp hnlt) hle).symm
        · exact hlt other ho

/-- What does not see a change is the same after it. -/
theorem Sorted.map_put {β : Type} {fs : Fields α} (hs : fs.Sorted) {name : String} {old new : α}
    (h : fs.find? name = some old) {f : String × α → β} (hf : f (name, new) = f (name, old)) :
    (fs.put name new).map f = fs.map f := by
  induction fs with
  | nil => cases h
  | cons x rest ih =>
    obtain ⟨k, v⟩ := x
    obtain ⟨hlt, hrest⟩ := List.pairwise_cons.mp hs
    rw [Fields.put]
    split
    · next hk =>
      subst hk
      rw [find?, if_pos rfl] at h
      obtain rfl := Option.some.inj h
      rw [List.map_cons, List.map_cons, hf]
    · next hne =>
      rw [find?, if_neg (Ne.symm hne)] at h
      have hk : k < name := hlt name (List.mem_map_of_mem (f := Prod.fst) (mem_of_find? h))
      rw [if_neg (String.lt_asymm hk), List.map_cons, List.map_cons, ih hrest h]

/-- A name greater than all others comes last. -/
theorem put_eq_append {fs : Fields α} {name : String} (h : ∀ other ∈ fs.names, other < name)
    (value : α) : fs.put name value = fs ++ [(name, value)] := by
  induction fs with
  | nil => rfl
  | cons f rest ih =>
    obtain ⟨k, v⟩ := f
    obtain ⟨hk, hrest⟩ := List.forall_mem_cons.mp h
    rw [put, if_neg (String.ne_of_lt hk).symm, if_neg (String.lt_asymm hk), ih hrest,
      List.cons_append]

/-- Of the fields with a property the last one has the greatest name. -/
theorem Sorted.le_of_find?_reverse {fs : Fields α} (hs : fs.Sorted) {p : String × α → Bool}
    {f g : String × α} (h : fs.reverse.find? p = some f) (hg : g ∈ fs) (hp : p g = true) :
    g.1 ≤ f.1 := by
  obtain ⟨-, behind, before, hfs, hbehind⟩ := List.find?_eq_some_iff_append.mp h
  have hs' : (behind ++ f :: before).Pairwise fun a b => b.1 < a.1 := by
    rw [← hfs, List.pairwise_reverse]
    exact List.pairwise_map.mp hs
  rcases List.mem_append.mp (hfs ▸ List.mem_reverse.mpr hg) with hmem | hmem
  · have hnot := hbehind g hmem
    rw [hp] at hnot
    cases hnot
  · rcases List.mem_cons.mp hmem with rfl | hmem
    · exact String.le_refl _
    · exact String.not_lt.mp (String.lt_asymm
        ((List.pairwise_cons.mp (List.pairwise_append.mp hs').2.1).1 g hmem))

theorem Sorted.erase {fs : Fields α} (hs : fs.Sorted) (name : String) :
    (fs.erase name).Sorted :=
  List.Pairwise.sublist (List.Sublist.map _ List.filter_sublist) hs

/-- The first name is the least. -/
theorem Sorted.first_le {fs : Fields α} {first name : String} {v value : α}
    (hs : Sorted ((first, v) :: fs)) (h : find? ((first, v) :: fs) name = some value) :
    first ≤ name := by
  rcases List.mem_cons.mp (mem_of_find? h) with heq | hmem
  · obtain ⟨rfl, -⟩ := Prod.mk.inj heq
    exact String.le_refl _
  · have hlt := (List.pairwise_cons.mp hs).1 name (List.mem_map_of_mem (f := Prod.fst) hmem)
    exact String.not_lt.mp (String.lt_asymm hlt)

/-- Fields in order are determined by their view. -/
theorem Sorted.ext {fs gs : Fields α} (hf : fs.Sorted) (hg : gs.Sorted)
    (h : ∀ name, fs.find? name = gs.find? name) : fs = gs := by
  induction fs generalizing gs with
  | nil =>
    cases gs with
    | nil => rfl
    | cons g rest =>
      have hfirst := h g.1
      rw [find?_first] at hfirst
      cases hfirst
  | cons f fs ih =>
    obtain ⟨k, v⟩ := f
    cases gs with
    | nil =>
      have hfirst := h k
      rw [find?_first] at hfirst
      cases hfirst
    | cons g gs =>
      obtain ⟨k', v'⟩ := g
      -- each list finds the first name of the other one
      have hle := hf.first_le ((h k').trans (find?_first ..))
      have hge := hg.first_le ((h k).symm.trans (find?_first ..))
      have hk : k = k' := String.le_antisymm hle hge
      subst hk
      have hv := h k
      rw [find?_first, find?_first] at hv
      obtain rfl := Option.some.inj hv
      obtain ⟨hlt, hfs⟩ := List.pairwise_cons.mp hf
      obtain ⟨hlt', hgs⟩ := List.pairwise_cons.mp hg
      refine congrArg _ (ih hfs hgs fun name => ?_)
      have hname := h name
      rw [find?, find?] at hname
      split at hname
      · next heq =>
        subst heq
        rw [find?_eq_none fun hmem => String.lt_irrefl _ (hlt _ hmem),
          find?_eq_none fun hmem => String.lt_irrefl _ (hlt' _ hmem)]
      · exact hname

end Fields

end Workflow
