import Mathlib.Data.List.Find
import Mathlib.Logic.Relation
import Workflow.Proofs.Vars.Key
import Workflow.Vars

/-!
# Walking along paths

A path of two parts with a point between them leads where its second part leads from where the first
one ends (`getPath?_joined`): blanks at the ends of a path are blanks at the ends of a segment, and
those are trimmed anyway (`map_trim_splitAt_trim`).

A segment is looked up in an object by its exact name first, and only then by the key that it folds
to. If no two names of the object fold to that key, the order of the two makes no difference
(`step_of_oneName`). So on a way that is clear in this sense (`Clear`) segments may be spelled in
other ways, one after another (`Respells`), and the path leads to the same value (`leads_alike`).
-/

namespace Workflow

open Text (isBlank trim trimStart trimEnd)

namespace Vars

/-! ## The pieces of a path -/

theorem splitAt_eq_splitOn (separator : Char) (cs : List Char) :
    splitAt separator cs = cs.splitOn separator := by
  induction cs with
  | nil => rfl
  | cons c cs ih =>
    rw [splitAt, ih, List.splitOn_cons_eq_if_modifyHead]
    by_cases hc : c = separator
    · rw [if_pos hc, if_pos (beq_iff_eq.mpr hc)]
    · rw [if_neg hc, if_neg (mt beq_iff_eq.mp hc)]
      cases hcs : cs.splitOn separator with
      | nil => exact absurd hcs (List.splitOn_ne_nil _ _)
      | cons first rest => rfl

theorem ne_point_of_isBlank {c : Char} (h : isBlank c = true) : c ≠ '.' := by
  rintro rfl
  cases h

/-- A character at the end of a text is at the end of its last piece. -/
theorem splitOn_snoc {c : Char} (h : c ≠ '.') (cs : List Char) : ∃ front last,
    cs.splitOn '.' = front ++ [last] ∧ (cs ++ [c]).splitOn '.' = front ++ [last ++ [c]] := by
  induction cs with
  | nil => exact ⟨[], [], rfl, List.splitOn_eq_singleton (by simpa using h.symm)⟩
  | cons d cs ih =>
    obtain ⟨front, last, hcs, hsnoc⟩ := ih
    rw [List.cons_append, List.splitOn_cons_eq_if_modifyHead, List.splitOn_cons_eq_if_modifyHead,
      hcs, hsnoc]
    split
    · exact ⟨[] :: front, last, rfl, rfl⟩
    · cases front with
      | nil => exact ⟨[], d :: last, rfl, rfl⟩
      | cons first front => exact ⟨(d :: first) :: front, last, rfl, rfl⟩

theorem map_trim_trimStart (cs : List Char) :
    ((trimStart cs).splitOn '.').map trim = (cs.splitOn '.').map trim := by
  induction cs with
  | nil => rfl
  | cons c cs ih =>
    rw [trimStart, List.dropWhile_cons]
    split
    · next hblank =>
      have hne := ne_point_of_isBlank hblank
      rw [List.splitOn_cons_eq_if_modifyHead, if_neg (mt beq_iff_eq.mp hne)]
      refine Eq.trans ih ?_
      cases hcs : cs.splitOn '.' with
      | nil => rfl
      | cons first rest =>
        rw [List.modifyHead_cons, List.map_cons, List.map_cons, Text.trim_cons_blank hblank]
    · rfl

theorem map_trim_trimEnd (cs : List Char) :
    ((trimEnd cs).splitOn '.').map trim = (cs.splitOn '.').map trim := by
  induction cs using List.reverseRecOn with
  | nil => rfl
  | append_singleton cs c ih =>
    change ((List.rdropWhile isBlank (cs ++ [c])).splitOn '.').map trim = _
    rw [List.rdropWhile_concat]
    split
    · next hblank =>
      obtain ⟨front, last, hcs, hsnoc⟩ := splitOn_snoc (ne_point_of_isBlank hblank) cs
      refine Eq.trans ih ?_
      rw [hcs, hsnoc, List.map_append, List.map_append, List.map_singleton, List.map_singleton,
        Text.trim_snoc_blank hblank]
    · rfl

/-- Blanks at the ends of a text make no difference to its pieces, if they are trimmed. -/
theorem map_trim_splitAt_trim (cs : List Char) :
    (splitAt '.' (trim cs)).map trim = (splitAt '.' cs).map trim := by
  rw [splitAt_eq_splitOn, splitAt_eq_splitOn, trim, map_trim_trimEnd, map_trim_trimStart]

/-- The segments of a path are its pieces, trimmed, unless it is blank. -/
theorem segments_eq (path : String) : segments path =
    if Text.isBlankText path then [] else (splitAt '.' path.toList).map trim := by
  rw [segments, map_trim_splitAt_trim]
  by_cases hblank : Text.isBlankText path = true
  · rw [if_pos hblank]
    exact if_pos (List.isEmpty_iff.mpr (Text.trim_eq_nil_iff.mpr hblank))
  · rw [if_neg hblank]
    exact if_neg fun hempty => hblank (Text.trim_eq_nil_iff.mp (List.isEmpty_iff.mp hempty))

/-! ## A path of two parts -/

theorem segments_joined {p q : String} (hp : Text.isBlankText p = false)
    (hq : Text.isBlankText q = false) : segments (p ++ "." ++ q) = segments p ++ segments q := by
  have htext : (p ++ "." ++ q).toList = p.toList ++ '.' :: q.toList := by simp
  have hboth : Text.isBlankText (p ++ "." ++ q) = false := by
    rw [Text.isBlankText] at hp ⊢
    rw [htext, List.all_append, hp]
    rfl
  rw [segments_eq, segments_eq, segments_eq, hp, hq, hboth, htext, splitAt_eq_splitOn,
    List.splitOn_append_cons_self, splitAt_eq_splitOn, splitAt_eq_splitOn]
  simp

theorem walk_append (front behind : List (List Char)) (v : Json) :
    walk (front ++ behind) v = (walk front v).bind (walk behind) := by
  induction front generalizing v with
  | nil => rfl
  | cons segment front ih =>
    rw [List.cons_append, walk, walk, Option.bind_assoc]
    exact Option.bind_congr fun w _ => ih w

/-- **A path of two parts** leads where the second part leads from where the first one ends. -/
theorem getPath?_joined (vars : Vars) (key : String) {p q : String}
    (hp : Text.isBlankText p = false) (hq : Text.isBlankText q = false) :
    vars.getPath? key (some (p ++ "." ++ q)) =
      (vars.getPath? key (some p)).bind (walk (segments q)) := by
  rw [getPath?, getPath?, Option.bind_assoc]
  refine Option.bind_congr fun v _ => ?_
  change walk (segments (p ++ "." ++ q)) v = _
  rw [segments_joined hp hq, walk_append]
  rfl

/-! ## Segments in another spelling -/

/-- At most one name in an object folds to the key that a segment folds to. -/
def OneName (segment : List Char) (members : List (String × Json)) : Prop :=
  ∀ m ∈ members, ∀ n ∈ members,
    Key.normalize m.1 = Key.normalize (String.ofList segment) →
      Key.normalize n.1 = Key.normalize (String.ofList segment) → m.1 = n.1

/-- In every object that a way along segments comes to, at most one name folds to the key of the
segment that is looked up there. -/
def Clear : List (List Char) → Json → Prop
  | [], _ => True
  | segment :: rest, v =>
    (∀ members, v = .obj members → OneName segment members) ∧
      ∀ w, step segment v = some w → Clear rest w

/-- The path of the given pieces. -/
def ofPieces (pieces : List (List Char)) : String := String.ofList (List.intercalate ['.'] pieces)

/-- Two paths, of which the second has one piece in another spelling: one that comes to an object
on the way from a value. None does in a blank path, which has no segments. -/
inductive Respells (v : Json) : String → String → Prop where
  /-- the spellings fold to one key; the new one is not blank and has no point -/
  | piece {before behind : List (List Char)} {old new : List Char} {members : List (String × Json)}
      (hpieces : ∀ piece ∈ before ++ old :: behind, '.' ∉ piece)
      (hblank : Text.isBlankText (ofPieces (before ++ old :: behind)) = false)
      (hobject : walk (before.map trim) v = some (.obj members))
      (hpoint : '.' ∉ new) (hnew : new.all isBlank = false)
      (hsame : Key.normalize (String.ofList new) = Key.normalize (String.ofList old)) :
      Respells v (ofPieces (before ++ old :: behind)) (ofPieces (before ++ new :: behind))

theorem normalize_trim (cs : List Char) :
    Key.normalize (String.ofList (trim cs)) = Key.normalize (String.ofList cs) := by
  rw [Key.normalize_eq_iff, String.toList_ofList, String.toList_ofList, Key.runs_trim]

/-- If only one name folds to the key of a segment, it is the one that is looked up. -/
theorem step_of_oneName {segment : List Char} {members : List (String × Json)}
    (h : OneName segment members) : step segment (.obj members) =
      (members.find? fun (k, _) =>
        Key.normalize k = Key.normalize (String.ofList segment)).map Prod.snd := by
  rw [step]
  cases hfind : Fields.find? members (String.ofList segment) with
  | none => rfl
  | some v =>
    have hmem := Fields.mem_of_find? hfind
    rw [Option.some_or, ← hfind, Fields.find?_eq]
    refine congrArg (Option.map Prod.snd) (List.find?_congr fun m hm => ?_)
    refine decide_eq_decide.mpr ⟨?_, ?_⟩
    · intro heq
      rw [heq]
    · intro heq
      exact h m hm _ hmem heq rfl

theorem OneName.of_same {old new : List Char} {members : List (String × Json)}
    (h : OneName old members)
    (hsame : Key.normalize (String.ofList new) = Key.normalize (String.ofList old)) :
    OneName new members := by
  intro m hm n hn hold hnew
  rw [hsame] at hold hnew
  exact h m hm n hn hold hnew

theorem step_of_same {old new : List Char} {members : List (String × Json)}
    (h : OneName old members)
    (hsame : Key.normalize (String.ofList new) = Key.normalize (String.ofList old)) :
    step new (.obj members) = step old (.obj members) := by
  rw [step_of_oneName h, step_of_oneName (h.of_same hsame), hsame]

/-- A segment that comes to an object leads on as before in another spelling. -/
theorem walk_of_same {before : List (List Char)} {old new : List Char} {v : Json}
    {members : List (String × Json)} (hobject : walk before v = some (.obj members))
    (h : OneName old members)
    (hsame : Key.normalize (String.ofList new) = Key.normalize (String.ofList old))
    (behind : List (List Char)) :
    walk (before ++ new :: behind) v = walk (before ++ old :: behind) v := by
  rw [walk_append, walk_append, hobject, Option.bind_some, Option.bind_some, walk, walk,
    step_of_same h hsame]

/-- A way is clear if its first part is, and its second part from where the first one ends. -/
theorem clear_append {front behind : List (List Char)} {v : Json} : Clear (front ++ behind) v ↔
    Clear front v ∧ ∀ w, walk front v = some w → Clear behind w := by
  induction front generalizing v with
  | nil =>
    constructor
    · rintro h
      refine ⟨trivial, ?_⟩
      rintro w ⟨⟩
      exact h
    · rintro ⟨-, h⟩
      exact h v rfl
  | cons segment front ih =>
    constructor
    · rintro ⟨hone, hnext⟩
      refine ⟨⟨hone, fun w hw => (ih.mp (hnext w hw)).1⟩, ?_⟩
      intro u hu
      obtain ⟨w, hw, hwalk⟩ := Option.bind_eq_some_iff.mp hu
      exact (ih.mp (hnext w hw)).2 u hwalk
    · rintro ⟨⟨hone, hnext⟩, hbehind⟩
      refine ⟨hone, fun w hw => ih.mpr ⟨hnext w hw, ?_⟩⟩
      intro u hu
      apply hbehind u
      rw [walk, hw]
      exact hu

/-- A clear way stays clear. -/
theorem Clear.of_same {before behind : List (List Char)} {old new : List Char} {v : Json}
    {members : List (String × Json)} (h : Clear (before ++ old :: behind) v)
    (hobject : walk before v = some (.obj members))
    (hsame : Key.normalize (String.ofList new) = Key.normalize (String.ofList old)) :
    Clear (before ++ new :: behind) v := by
  obtain ⟨hbefore, hold⟩ := clear_append.mp h
  obtain ⟨hone, hnext⟩ := hold _ hobject
  refine clear_append.mpr ⟨hbefore, ?_⟩
  intro w hw
  obtain rfl := Option.some.inj (hobject.symm.trans hw)
  constructor
  · rintro _ ⟨⟩
    exact (hone members rfl).of_same hsame
  · intro u hu
    rw [step_of_same (hone members rfl) hsame] at hu
    exact hnext u hu

/-! ## Paths in another spelling -/

theorem segments_ofPieces {pieces : List (List Char)} (hne : pieces ≠ [])
    (hpieces : ∀ piece ∈ pieces, '.' ∉ piece)
    (hblank : Text.isBlankText (ofPieces pieces) = false) :
    segments (ofPieces pieces) = pieces.map trim := by
  rw [segments_eq, hblank, if_neg Bool.false_ne_true, ofPieces, String.toList_ofList,
    splitAt_eq_splitOn, List.splitOn_intercalate '.' hpieces hne]

theorem mem_intercalate {c : Char} {piece : List Char} {pieces : List (List Char)}
    (hpiece : piece ∈ pieces) (hc : c ∈ piece) : c ∈ List.intercalate ['.'] pieces := by
  induction pieces with
  | nil => cases hpiece
  | cons first rest ih =>
    cases rest with
    | nil =>
      obtain rfl := List.mem_singleton.mp hpiece
      simpa using hc
    | cons second rest =>
      rw [List.intercalate_cons_cons]
      rcases List.mem_cons.mp hpiece with rfl | hrest
      · simp [hc]
      · simp [ih hrest]

/-- A path with a piece that is not blank is not. -/
theorem isBlankText_ofPieces {piece : List Char} {pieces : List (List Char)}
    (hpiece : piece ∈ pieces) (h : piece.all isBlank = false) :
    Text.isBlankText (ofPieces pieces) = false := by
  obtain ⟨c, hc, hink⟩ := List.all_eq_false.mp h
  rw [Text.isBlankText, ofPieces, String.toList_ofList]
  exact List.all_eq_false.mpr ⟨c, mem_intercalate hpiece hc, hink⟩

/-- **A step**: with one piece in another spelling, a path leads to the same value on a clear way,
and the way stays clear. -/
theorem Respells.leads {v : Json} {path other : String} (h : Respells v path other)
    (hclear : Clear (segments path) v) :
    walk (segments other) v = walk (segments path) v ∧ Clear (segments other) v := by
  obtain @⟨before, behind, old, new, members, hpieces, hblank, hobject, hpoint, hnew, hsame⟩ := h
  obtain ⟨hbefore, hbehind⟩ := List.forall_mem_append.mp hpieces
  obtain ⟨-, hbehind⟩ := List.forall_mem_cons.mp hbehind
  have hothers : ∀ piece ∈ before ++ new :: behind, '.' ∉ piece :=
    List.forall_mem_append.mpr ⟨hbefore, List.forall_mem_cons.mpr ⟨hpoint, hbehind⟩⟩
  have hink : Text.isBlankText (ofPieces (before ++ new :: behind)) = false :=
    isBlankText_ofPieces (by simp) hnew
  have htrim : Key.normalize (String.ofList (trim new)) =
      Key.normalize (String.ofList (trim old)) := by
    rw [normalize_trim, normalize_trim, hsame]
  rw [segments_ofPieces (by simp) hpieces hblank, List.map_append, List.map_cons] at hclear ⊢
  rw [segments_ofPieces (by simp) hothers hink, List.map_append, List.map_cons]
  have hone : OneName (trim old) members :=
    ((clear_append.mp hclear).2 _ hobject).1 members rfl
  exact ⟨walk_of_same hobject hone htrim _, hclear.of_same hobject htrim⟩

/-- Paths in other spellings lead to the same value on a clear way. -/
theorem leads_of_respelled {v : Json} {path other : String}
    (h : Relation.ReflTransGen (Respells v) path other) (hclear : Clear (segments path) v) :
    walk (segments other) v = walk (segments path) v ∧ Clear (segments other) v := by
  induction h with
  | refl => exact ⟨rfl, hclear⟩
  | tail _ hlast ih =>
    obtain ⟨hsame, hkept⟩ := ih
    obtain ⟨hleads, hclear⟩ := hlast.leads hkept
    exact ⟨hleads.trans hsame, hclear⟩

/-- **Where a path leads.** A path of two parts leads where the second part leads from where the
first one ends, and nowhere if the first one does. On a way that is clear, segments that come to an
object may be spelled in other ways, any number of them. -/
theorem leads_alike (vars : Vars) (key : String) :
    (∀ p q, Text.isBlankText p = false → Text.isBlankText q = false →
      vars.getPath? key (some (p ++ "." ++ q)) =
        (vars.getPath? key (some p)).bind (walk (segments q))) ∧
      ∀ v path other, vars.get? key = some v → Clear (segments path) v →
        Relation.ReflTransGen (Respells v) path other →
          vars.getPath? key (some other) = vars.getPath? key (some path) := by
  constructor
  · intro p q hp hq
    exact vars.getPath?_joined key hp hq
  · intro v path other hv hclear h
    obtain ⟨hsame, -⟩ := leads_of_respelled h hclear
    rw [getPath?, getPath?, hv]
    exact hsame

/-- An order with an address and a row of items. -/
def anOrder : Json :=
  .obj [("Shipping Address", .obj [("city", .str "Oslo")]),
    ("items", .arr [.obj [("sku", .str "a1")]])]

theorem oslo_respelled :
    (empty.set "order" anOrder).getPath? "order" (some "shipping_address.city") =
        some (.str "Oslo") ∧
      (empty.set "order" anOrder).getPath? "order" (some ("items.0" ++ "." ++ "sku")) =
        ((empty.set "order" anOrder).getPath? "order" (some "items.0")).bind
          (walk (segments "sku")) ∧
      (empty.set "order" anOrder).getPath? "order" (some "SHIPPING-ADDRESS. City") =
        (empty.set "order" anOrder).getPath? "order" (some "shipping_address.city") := by
  obtain ⟨hjoined, hrespelled⟩ := leads_alike (empty.set "order" anOrder) "order"
  have hget : (empty.set "order" anOrder).get? "order" = some anOrder := Fields.find?_put_self ..
  have hsegments : segments "shipping_address.city" =
      ["shipping_address".toList, "city".toList] := by decide +kernel
  have haddress : step "shipping_address".toList anOrder =
      some (.obj [("city", .str "Oslo")]) := rfl
  have hclear : Clear (segments "shipping_address.city") anOrder := by
    rw [hsegments]
    constructor
    · rintro _ ⟨⟩
      unfold OneName
      decide +kernel
    · intro w hw
      obtain rfl := Option.some.inj (haddress.symm.trans hw)
      constructor
      · rintro _ ⟨⟩
        unfold OneName
        decide +kernel
      · intro w hw
        exact trivial
  have hfirst : Respells anOrder (ofPieces ([] ++ "shipping_address".toList :: ["city".toList]))
      (ofPieces ([] ++ "SHIPPING-ADDRESS".toList :: ["city".toList])) :=
    .piece (by decide +kernel) (by decide +kernel) rfl (by decide +kernel) (by decide +kernel)
      (by decide +kernel)
  have hsecond : Respells anOrder (ofPieces (["SHIPPING-ADDRESS".toList] ++ "city".toList :: []))
      (ofPieces (["SHIPPING-ADDRESS".toList] ++ " City".toList :: [])) :=
    .piece (by decide +kernel) (by decide +kernel) rfl (by decide +kernel) (by decide +kernel)
      (by decide +kernel)
  refine ⟨?_, hjoined _ _ (by decide +kernel) (by decide +kernel), ?_⟩
  · rw [getPath?, hget]
    rfl
  · exact hrespelled anOrder "shipping_address.city" "SHIPPING-ADDRESS. City" hget hclear
      (.tail (.single hfirst) hsecond)

end Vars

end Workflow
