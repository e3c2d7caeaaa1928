import Workflow.Path

/-!
# Ways and keys

What a path names is known by its way from the root, and a way can be read off its text
(`parts_ofWay`), so that different ways have different keys. A file that has another extension lies
beside the file: their ways differ in the last part alone (`way_beside`). With the extension that a
draft has it is always another file, whatever the name was (`draftName_ne`).
-/

namespace Workflow.Path

/-! ## The parts of a path -/

/-- A part that says something. -/
structure IsPart (p : String) : Prop where
  /-- it is not empty -/
  ne_empty : p ≠ ""
  /-- it is not the directory itself -/
  ne_point : p ≠ "."
  /-- it is in one piece -/
  noSlash : '/' ∉ p.toList

section Parts

variable {p path directory : String} {ps : List String}

theorem noSlash_of_mem_splitOn (cs : List Char) : ∀ piece ∈ cs.splitOn '/', '/' ∉ piece := by
  by_cases h : '/' ∈ cs
  · obtain ⟨before, behind, rfl, hbefore⟩ := List.eq_append_cons_of_mem h
    rw [List.splitOn_append_cons_self_of_not_mem hbefore]
    exact List.forall_mem_cons.mpr ⟨hbefore, noSlash_of_mem_splitOn behind⟩
  · rw [List.splitOn_eq_singleton h]
    exact List.forall_mem_singleton.mpr h
termination_by cs.length

theorem isPart_of_mem_parts (h : p ∈ parts path) : IsPart p := by
  obtain ⟨hmem, hsays⟩ := List.mem_filter.mp h
  obtain ⟨hne, hpoint⟩ := Bool.and_eq_true_iff.mp hsays
  obtain ⟨piece, hpiece, rfl⟩ := List.mem_map.mp hmem
  refine ⟨of_decide_eq_true hne, of_decide_eq_true hpoint, ?_⟩
  rw [String.toList_ofList]
  exact noSlash_of_mem_splitOn _ piece hpiece

/-- A slash keeps what is before it apart from what is behind it. -/
theorem parts_append_slash (a b : String) : parts (a ++ "/" ++ b) = parts a ++ parts b := by
  have hchars : (a ++ "/" ++ b).toList = a.toList ++ '/' :: b.toList := by
    rw [String.toList_append, String.toList_append, List.append_assoc]
    rfl
  rw [parts, pieces, hchars, List.splitOn_append_cons_self, List.map_append, List.filter_append]
  rfl

theorem IsPart.parts (h : IsPart p) : parts p = [p] := by
  rw [Path.parts, pieces, List.splitOn_eq_singleton h.noSlash, List.map_singleton,
    String.ofList_toList]
  exact List.filter_cons_of_pos
    (Bool.and_eq_true_iff.mpr ⟨decide_eq_true h.ne_empty, decide_eq_true h.ne_point⟩)

/-- Parts with slashes between them are the parts of that text. -/
theorem parts_intercalate (h : ∀ p ∈ ps, IsPart p) : parts ("/".intercalate ps) = ps := by
  induction ps with
  | nil => rfl
  | cons p ps ih =>
    obtain ⟨hp, hps⟩ := List.forall_mem_cons.mp h
    cases ps with
    | nil =>
      rw [String.intercalate_singleton]
      exact hp.parts
    | cons q qs => rw [String.intercalate_cons_cons, parts_append_slash, hp.parts, ih hps]; rfl

/-- **A way can be read off its text.** -/
theorem parts_ofWay (h : ∀ p ∈ ps, IsPart p) : parts (ofWay ps) = ps := by
  have hslash := parts_append_slash "" ("/".intercalate ps)
  rw [String.empty_append, parts_intercalate h] at hslash
  exact hslash

/-- Different ways have different texts. -/
theorem ofWay_inj {qs : List String} (hp : ∀ p ∈ ps, IsPart p) (hq : ∀ q ∈ qs, IsPart q)
    (h : ofWay ps = ofWay qs) : ps = qs := by
  rw [← parts_ofWay hp, h, parts_ofWay hq]

theorem parts_join : parts (join directory path) =
    (if path.startsWith "/" then [] else parts directory) ++ parts path := by
  rw [join]
  split
  · rfl
  · split
    · next h =>
      rcases Bool.or_eq_true_iff.mp h with hempty | hslash
      · rw [of_decide_eq_true hempty, String.empty_append]
        rfl
      · rw [String.endsWith_eq_endsWith_toSlice, String.Slice.endsWith_string_iff,
          String.copy_toSlice] at hslash
        obtain ⟨cs, hcs⟩ := hslash
        have hd : directory = String.ofList cs ++ "/" := String.toList_inj.mp (by
          rw [String.toList_append, String.toList_ofList, hcs])
        have hfront : parts directory = parts (String.ofList cs) := by
          have hslash := parts_append_slash (String.ofList cs) ""
          rw [String.append_empty, ← hd] at hslash
          exact hslash.trans (List.append_nil _)
        rw [hfront, hd, parts_append_slash]
    · exact parts_append_slash directory path

end Parts

/-! ## Ways -/

section Ways

variable {p path : String} {passed ps : List String}

theorem climb_concat (h : p ≠ "..") : climb passed (ps ++ [p]) = climb passed ps ++ [p] := by
  induction ps generalizing passed with
  | nil =>
    rw [List.nil_append, climb.eq_def]
    exact (if_neg h).trans List.reverse_cons
  | cons q qs ih =>
    rw [List.cons_append, climb, climb]
    split
    · exact ih
    · exact ih

theorem mem_of_mem_climb (h : p ∈ climb passed ps) : p ∈ passed ∨ p ∈ ps := by
  induction ps generalizing passed with
  | nil => exact .inl (List.mem_reverse.mp h)
  | cons q qs ih =>
    rw [climb] at h
    split at h
    · exact (ih h).imp List.mem_of_mem_tail (List.mem_cons_of_mem _)
    · rcases ih h with hpassed | hqs
      · rcases List.mem_cons.mp hpassed with rfl | hpassed
        · exact .inr (List.mem_cons_self ..)
        · exact .inl hpassed
      · exact .inr (List.mem_cons_of_mem _ hqs)

/-- Ways are made of parts that say something. -/
theorem isPart_of_mem_way (h : p ∈ way path) : IsPart p :=
  isPart_of_mem_parts ((mem_of_mem_climb h).resolve_left List.not_mem_nil)

end Ways

/-! ## File names -/

section Names

variable {name path base e : String}

/-- A name splits at its last point. -/
theorem splitName_append {a b : String} (ha : a ≠ "") (hb : '.' ∉ b.toList) :
    splitName (a ++ "." ++ b) = (a, some b) := by
  have hrev : (a ++ "." ++ b).toList.reverse = b.toList.reverse ++ '.' :: a.toList.reverse := by
    simp
  have hnot : ∀ c ∈ b.toList.reverse, decide (c ≠ '.') = true := fun c hc =>
    decide_eq_true fun heq => hb (List.mem_reverse.mp (heq ▸ hc))
  rw [splitName, hrev, List.takeWhile_append_of_pos hnot, List.dropWhile_append_of_pos hnot]
  cases hstem : a.toList.reverse with
  | nil => exact absurd (String.toList_eq_nil_iff.mp (List.reverse_eq_nil_iff.mp hstem)) ha
  | cons c before =>
    change (String.ofList (c :: before).reverse,
      some (String.ofList (b.toList.reverse ++ []).reverse)) = _
    rw [← hstem, List.reverse_reverse, String.ofList_toList, List.append_nil, List.reverse_reverse,
      String.ofList_toList]

/-- The stem is what a name begins with. -/
theorem stem_front (name : String) : (splitName name).1.toList <+: name.toList := by
  rw [splitName]
  split
  · next h =>
    have hsuffix := List.dropWhile_suffix (l := name.toList.reverse) (· ≠ '.')
    rw [h] at hsuffix
    rw [String.toList_ofList]
    exact List.reverse_suffix.mp (by
      rw [List.reverse_reverse]
      exact (List.suffix_cons _ _).trans hsuffix)
  · exact List.prefix_rfl

theorem stem_ne_empty (h : name ≠ "") : (splitName name).1 ≠ "" := by
  rw [splitName]
  split
  · simp
  · exact h

/-- A name with another extension is a part, and not the one that goes up. -/
theorem isPart_stem_append (h : IsPart name) (he : e ≠ "") (hslash : '/' ∉ e.toList) :
    IsPart ((splitName name).1 ++ "." ++ e) ∧ (splitName name).1 ++ "." ++ e ≠ ".." := by
  have hlength : 3 ≤ ((splitName name).1 ++ "." ++ e).length := by
    have hstem := Nat.pos_of_ne_zero (mt String.length_eq_zero_iff.mp (stem_ne_empty h.ne_empty))
    have hend := Nat.pos_of_ne_zero (mt String.length_eq_zero_iff.mp he)
    rw [String.length_append, String.length_append]
    change 3 ≤ _ + 1 + _
    omega
  have hne {s : String} (hs : s.length < 3) : (splitName name).1 ++ "." ++ e ≠ s := fun heq =>
    absurd (heq ▸ hlength) (Nat.not_le_of_lt hs)
  refine ⟨⟨hne (by decide), hne (by decide), ?_⟩, hne (by decide)⟩
  rw [String.toList_append, String.toList_append, List.mem_append, List.mem_append]
  rintro ((hstem | hpoint) | hend)
  · exact h.noSlash ((stem_front name).subset hstem)
  · exact absurd hpoint (by decide)
  · exact hslash hend

/-- A name that ends like that of a draft has a stem that ends with `.json`. -/
theorem stem_draft {stem : String} (h : stem ≠ "") :
    (splitName (stem ++ "." ++ "json.tmp")).1 = stem ++ ".json" := by
  have hpoint : "." ++ "json.tmp" = ".json" ++ ("." ++ "tmp") := by decide
  rw [String.append_assoc, hpoint, ← String.append_assoc, ← String.append_assoc, splitName_append
    (fun hempty => h (String.append_eq_empty_iff.mp hempty).1) (by decide)]

/-- **The draft of a file is another file**, whatever the name of the file is. -/
theorem draftName_ne (h : name ≠ "") : (splitName name).1 ++ "." ++ "json.tmp" ≠ name := by
  intro heq
  have hstem := stem_draft (stem_ne_empty h)
  rw [heq] at hstem
  have hlength := congrArg String.length hstem
  rw [String.length_append] at hlength
  exact absurd hlength (Nat.ne_of_lt (Nat.lt_add_of_pos_right (by decide)))

end Names

/-! ## Files beside each other -/

section Beside

variable {name path directory e p : String} {ps : List String}

theorem startsWith_slash {s : String} : s.startsWith "/" = true ↔ s.toList.head? = some '/' := by
  rw [String.startsWith_string_iff]
  cases hs : s.toList with
  | nil => exact iff_of_false (by decide) nofun
  | cons c cs =>
    change ['/'] <+: c :: cs ↔ some c = some '/'
    rw [List.cons_prefix_cons, Option.some_inj]
    exact ⟨fun h => h.1.symm, fun h => ⟨h.symm, List.nil_prefix⟩⟩

/-- Where a path starts is told by what it begins with. -/
theorem startsWith_append {a : String} (ha : a ≠ "") (b : String) :
    (a ++ b).startsWith "/" = a.startsWith "/" := by
  rw [Bool.eq_iff_iff, startsWith_slash, startsWith_slash, String.toList_append]
  cases h : a.toList with
  | nil => exact absurd (String.toList_eq_nil_iff.mp h) ha
  | cons c cs => exact Iff.rfl

theorem IsPart.startsWith (h : IsPart p) : p.startsWith "/" = false :=
  Bool.eq_false_iff.mpr fun hs => h.noSlash (List.mem_of_head? (startsWith_slash.mp hs))

theorem startsWith_intercalate (h : ∀ p ∈ ps, IsPart p) :
    ("/".intercalate ps).startsWith "/" = false := by
  cases ps with
  | nil => decide
  | cons p ps =>
    have hp := h p (List.mem_cons_self ..)
    cases ps with
    | nil =>
      rw [String.intercalate_singleton]
      exact hp.startsWith
    | cons q qs =>
      rw [String.intercalate_cons_cons, String.append_assoc, startsWith_append hp.ne_empty]
      exact hp.startsWith

theorem fileName?_eq_some (h : fileName? path = some name) :
    (∃ ps, parts path = ps ++ [name]) ∧ name ≠ ".." := by
  rw [fileName?] at h
  split at h
  · cases h
  · next hup => exact ⟨List.getLast?_eq_some_iff.mp h, fun heq => hup (heq ▸ h)⟩

theorem parts_rooted (rooted : Bool) (x : String) :
    parts ((if rooted then "/" else "") ++ x) = parts x := by
  cases rooted with
  | true => exact parts_append_slash "" x
  | false => exact congrArg parts String.empty_append

theorem startsWith_rooted {x : String} (h : x.startsWith "/" = false) (rooted : Bool) :
    ((if rooted then "/" else "") ++ x).startsWith "/" = rooted := by
  cases rooted with
  | true => exact (startsWith_append (by decide) x).trans (startsWith_slash.mpr rfl)
  | false => exact (congrArg (·.startsWith "/") String.empty_append).trans h

/-- The directory of a path has the parts before the last one, and starts where the path starts. -/
theorem directory?_eq_some (h : directory? path = some directory) :
    parts directory = (parts path).dropLast ∧
      directory.startsWith "/" = path.startsWith "/" ∧ directory ≠ "" := by
  rw [directory?] at h
  split at h
  · cases h
  · next hsome =>
    cases h
    have hpart : ∀ p ∈ (parts path).dropLast, IsPart p := fun p hp =>
      isPart_of_mem_parts (List.dropLast_subset _ hp)
    have hparts := (parts_rooted (path.startsWith "/") _).trans (parts_intercalate hpart)
    refine ⟨hparts, startsWith_rooted (startsWith_intercalate hpart) _, fun hempty => hsome ?_⟩
    rw [← hparts, hempty]
    rfl

theorem startsWith_join (hd : directory ≠ "") (hp : path.startsWith "/" = false) :
    (join directory path).startsWith "/" = directory.startsWith "/" := by
  rw [join, hp, if_neg Bool.false_ne_true]
  split
  · exact startsWith_append hd _
  · rw [String.append_assoc, startsWith_append hd]

/-- A path with another extension has another file name behind the same parts, and starts where the
path starts. -/
theorem withExtension_eq (h : fileName? path = some name)
    (hpart : IsPart ((splitName name).1 ++ "." ++ e)) :
    parts (withExtension path e) = (parts path).dropLast ++ [(splitName name).1 ++ "." ++ e] ∧
      (withExtension path e).startsWith "/" = path.startsWith "/" := by
  rw [withExtension, h]
  cases hd : directory? path with
  | none =>
    have hnone : (parts path).dropLast = [] := by
      rw [directory?] at hd
      split at hd
      · assumption
      · cases hd
    rw [hnone]
    exact ⟨(parts_rooted _ _).trans hpart.parts, startsWith_rooted hpart.startsWith _⟩
  | some directory =>
    obtain ⟨hparts, hstart, hne⟩ := directory?_eq_some hd
    refine ⟨?_, (startsWith_join hne hpart.startsWith).trans hstart⟩
    change parts (join directory _) = _
    rw [parts_join, hpart.startsWith, if_neg Bool.false_ne_true, hparts, hpart.parts]

/-- **A file with another extension lies beside the file**: their ways are that of the directory
and one more part, which is the name. -/
theorem way_beside (base : String) (h : fileName? path = some name)
    (hpart : IsPart ((splitName name).1 ++ "." ++ e))
    (hup : (splitName name).1 ++ "." ++ e ≠ "..") :
    ∃ w, way (join base path) = w ++ [name] ∧
      way (join base (withExtension path e)) = w ++ [(splitName name).1 ++ "." ++ e] ∧
      ∀ directory ∈ directory? path, way (join base directory) = w := by
  obtain ⟨⟨ps, hps⟩, hname⟩ := fileName?_eq_some h
  obtain ⟨hparts, hstart⟩ := withExtension_eq h hpart
  rw [hps, List.dropLast_concat] at hparts
  refine ⟨climb [] ((if path.startsWith "/" then [] else parts base) ++ ps), ?_, ?_, ?_⟩
  · rw [way, parts_join, hps, ← List.append_assoc, climb_concat hname]
  · rw [way, parts_join, hstart, hparts, ← List.append_assoc, climb_concat hup]
  · intro directory hd
    obtain ⟨hdirectory, hroot, -⟩ := directory?_eq_some hd
    rw [way, parts_join, hroot, hdirectory, hps, List.dropLast_concat]

end Beside

end Workflow.Path
