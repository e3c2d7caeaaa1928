import Mathlib.Data.List.Forall2
import Mathlib.Data.List.Nodup
import Workflow.Proofs.Script.Table
import Workflow.Script.Exchange

/-!
# Values that come back from scripts

A JSON value is handed to a script as a value of the script, with a table on the heap for each array
and each object in it; and it is taken out of the heap again as what it was (`toJson_ofJson`). The
two kinds of tables are told apart by what is written on them: a list is marked, so that it stays
one when it is empty, and a record has no length, so that it is none. Nulls are what gets lost,
since nothing is put into a table for them, and whole numbers beyond 64 bits (`Json.IsPortable`).

The tables of a value are new ones, those of its parts before its own. So none lies in itself, and
whatever happens to other tables makes no difference (`Stands`).
-/

namespace Workflow

/-- A JSON value that a script can hold: it has whole numbers of 64 bits, finite floats, and no
nulls in it. -/
inductive Json.IsPortable : Json → Prop where
  /-- a truth value -/
  | bool (b : Bool) : IsPortable (.bool b)
  /-- a whole number -/
  | int {i : Int} (hlow : -(2 ^ 63) ≤ i) (hhigh : i < 2 ^ 63) : IsPortable (.num (.int i))
  /-- a float, which is never infinite in JSON -/
  | float {x : Float} (h : x.isFinite = true) : IsPortable (.num (.float x))
  /-- a text -/
  | str (s : String) : IsPortable (.str s)
  /-- an array, which is never longer than memory -/
  | arr {items : List Json} (hlength : items.length < 2 ^ 63) (h : ∀ v ∈ items, IsPortable v) :
    IsPortable (.arr items)
  /-- an object, whose members are in the order of their names -/
  | obj {members : List (String × Json)} (hsorted : Fields.Sorted members)
    (h : ∀ m ∈ members, IsPortable m.2) : IsPortable (.obj members)

namespace Script

/-- A text is what its bytes are read as. -/
theorem Bytes.toText_toUTF8 (s : String) : Bytes.toText s.toUTF8 = .ok s := by
  have hread : String.fromUTF8? s.toUTF8 = some s := dif_pos s.isValidUTF8
  rw [toText, hread]

/-! ## Tables that stay -/

/-- The tables of a heap from some reference on are in another heap as they are. -/
structure Heap.Keeps (lo : Nat) (h h' : Heap) : Prop where
  /-- none is lost -/
  size : h.tables.size ≤ h'.tables.size
  /-- none is changed -/
  table : ∀ r, lo ≤ r → r < h.tables.size → h'.table r = h.table r

namespace Heap.Keeps

variable {lo lo' : Nat} {h h' h'' : Heap}

theorem refl (lo : Nat) (h : Heap) : Keeps lo h h := ⟨Nat.le_refl _, fun _ _ _ => rfl⟩

theorem trans (hfirst : Keeps lo h h') (hsecond : Keeps lo h' h'') : Keeps lo h h'' where
  size := Nat.le_trans hfirst.size hsecond.size
  table r hlo hr :=
    (hsecond.table r hlo (Nat.lt_of_lt_of_le hr hfirst.size)).trans (hfirst.table r hlo hr)

/-- Fewer tables stay as well. -/
theorem mono (hle : lo ≤ lo') (hkeeps : Keeps lo h h') : Keeps lo' h h' :=
  ⟨hkeeps.size, fun r hlo hr => hkeeps.table r (Nat.le_trans hle hlo) hr⟩

theorem newTable (h : Heap) (t : Table) : Keeps 0 h (h.newTable t).2 where
  size := by
    rw [Heap.newTable, Array.size_push]
    exact Nat.le_succ _
  table r _ hr := by
    simp [Heap.newTable, Heap.table, Array.getElem?_push_lt hr, hr]

end Heap.Keeps

theorem Heap.size_newTable (h : Heap) (t : Table) :
    (h.newTable t).2.tables.size = h.tables.size + 1 :=
  Array.size_push ..

/-- A new table is where it was put. -/
theorem Heap.table_newTable (h : Heap) (t : Table) : (h.newTable t).2.table h.tables.size = t := by
  rw [newTable, table]
  simp

namespace Exchange

/-! ## Taking out lists and records -/

/-- A value of a script stands for a JSON value, in tables that lie between two references: it can
be taken out of the heap and is the JSON value then, unless it lies in a table among these. -/
structure Stands (h : Heap) (lo hi : Nat) (val : Value) (v : Json) : Prop where
  /-- it is there -/
  isNil : val.isNil = false
  /-- it has data in it -/
  hasData : hasData val = true
  /-- it is taken out -/
  taken : ∀ fuel path, hi - lo ≤ fuel → (∀ p ∈ path, hi ≤ p) →
    ∃ d, take h fuel path val = some d ∧ d.toJson = .ok v

theorem Stands.mono {h : Heap} {lo lo' hi hi' : Nat} {val : Value} {v : Json}
    (hstands : Stands h lo hi val v) (hlo : lo' ≤ lo) (hhi : hi ≤ hi') :
    Stands h lo' hi' val v where
  isNil := hstands.isNil
  hasData := hstands.hasData
  taken fuel path hfuel hpath :=
    hstands.taken fuel path (by omega) fun p hp => Nat.le_trans hhi (hpath p hp)

section Taking

variable {h : Heap} {lo hi : Nat}

theorem itemsToJson_cons {d : Data} {v : Json} {ds : List Data} {vs : List Json}
    (hd : d.toJson = .ok v) (hds : itemsToJson ds = .ok vs) :
    itemsToJson (d :: ds) = .ok (v :: vs) := by
  rw [itemsToJson, hd, hds]
  rfl

/-- Values that stand for JSON values are taken out one by one. -/
theorem take_items {vals : List Value} {items : List Json}
    (hall : List.Forall₂ (Stands h lo hi) vals items) {fuel : Nat} {path : List Nat}
    (hfuel : hi - lo ≤ fuel) (hpath : ∀ p ∈ path, hi ≤ p) :
    ∃ ds, vals.mapM (take h fuel path) = some ds ∧ itemsToJson ds = .ok items := by
  induction hall with
  | nil => exact ⟨[], rfl, by rw [itemsToJson]⟩
  | cons hval _ ih =>
    obtain ⟨d, htake, hd⟩ := hval.taken fuel path hfuel hpath
    obtain ⟨ds, htakes, hds⟩ := ih
    refine ⟨d :: ds, ?_, itemsToJson_cons hd hds⟩
    rw [List.mapM_cons, htake, htakes]
    rfl

/-- Members are put behind those before them, in the order of their names. -/
theorem pairsToJson_cons {d : Data} {k : String} {v : Json} {ps : List (Data × Data)}
    {acc members : Fields Json} (hd : d.toJson = .ok v)
    (hsorted : Fields.Sorted (acc ++ (k, v) :: members))
    (hps : pairsToJson ps (acc ++ [(k, v)]) = .ok (acc ++ (k, v) :: members)) :
    pairsToJson ((.str k.toUTF8, d) :: ps) acc = .ok (acc ++ (k, v) :: members) := by
  have hkey : ∀ isFirst, Data.toKey isFirst (.str k.toUTF8) = .ok k := fun isFirst => by
    rw [Data.toKey, Bytes.toText_toUTF8]
  have hlt : ∀ other ∈ Fields.names acc, other < k := by
    rw [Fields.Sorted, Fields.names, List.map_append, List.pairwise_append] at hsorted
    exact fun other ho => hsorted.2.2 other ho k List.mem_cons_self
  rw [pairsToJson, hkey, hd]
  change pairsToJson ps (acc.put k v) = _
  rw [Fields.put_eq_append hlt, hps]

/-- Entries whose values stand for JSON values are taken out as members. -/
theorem take_members {fields : List (Bytes × Value)} {members : List (String × Json)}
    (hall : List.Forall₂ (fun f m => f.1 = m.1.toUTF8 ∧ Stands h lo hi f.2 m.2) fields members)
    {fuel : Nat} {path : List Nat} (hfuel : hi - lo ≤ fuel) (hpath : ∀ p ∈ path, hi ≤ p)
    {acc : Fields Json} (hsorted : Fields.Sorted (acc ++ members)) :
    ∃ ps, (fields.map fun f => (TableKey.str f.1, f.2)).mapM (fun (k, v) => do
        return (← take h fuel path (TableKey.toValue k), ← take h fuel path v)) = some ps ∧
      pairsToJson ps acc = .ok (acc ++ members) := by
  induction hall generalizing acc with
  | nil => exact ⟨[], rfl, by rw [pairsToJson, List.append_nil]⟩
  | @cons f m fields members hf _ ih =>
    obtain ⟨hname, hval⟩ := hf
    obtain ⟨d, htake, hd⟩ := hval.taken fuel path hfuel hpath
    have hrest : Fields.Sorted ((acc ++ [(m.1, m.2)]) ++ members) := by
      rw [List.append_assoc]
      exact hsorted
    obtain ⟨ps, htakes, hps⟩ := ih hrest
    refine ⟨(.str m.1.toUTF8, d) :: ps, ?_, ?_⟩
    · have hkey : take h fuel path (TableKey.toValue (.str f.1)) = some (.str m.1.toUTF8) := by
        rw [hname]
        cases fuel <;> rfl
      rw [List.map_cons, List.mapM_cons, htakes]
      simp only [hkey, htake]
      rfl
    · rw [List.append_assoc] at hps
      exact pairsToJson_cons hd hsorted hps

theorem exists_of_forall₂ {α β : Type} {R : α → β → Prop} {as : List α} {bs : List β}
    (hall : List.Forall₂ R as bs) : ∀ a ∈ as, ∃ b, R a b := by
  induction hall with
  | nil => exact List.forall_mem_nil _
  | cons hab _ ih => exact List.forall_mem_cons.mpr ⟨⟨_, hab⟩, ih⟩

/-- A table that does not lie in itself is looked into. -/
theorem not_contains {r : Nat} {path : List Nat} (hpath : ∀ p ∈ path, r + 1 ≤ p) :
    ¬path.contains r = true := fun hmem =>
  Nat.not_succ_le_self r (hpath r (List.contains_iff_mem.mp hmem))

/-- **A marked list** of what stands for the items of an array stands for the array. -/
theorem stands_list {vals : List Value} {items : List Json} (hlo : lo ≤ hi)
    (htable : h.table hi =
      { slots := vals.toArray, hint := vals.toArray.size, behaviour := some Heap.listMark })
    (hall : List.Forall₂ (Stands h lo hi) vals items) (hlength : items.length < 2 ^ 63) :
    Stands h lo (hi + 1) (.table hi) (.arr items) where
  isNil := rfl
  hasData := rfl
  taken fuel path hfuel hpath := by
    obtain ⟨fuel, rfl⟩ := Nat.exists_eq_add_one.mpr (by omega : 0 < fuel)
    obtain ⟨ds, htakes, hds⟩ := take_items hall (by omega : hi - lo ≤ fuel)
      (List.forall_mem_cons.mpr ⟨Nat.le_refl hi, fun p hp => Nat.le_of_succ_le (hpath p hp)⟩)
    have hlist : isList (h.table hi) = true := by
      rw [isList, htable]
      simp
    have hthere := exists_of_forall₂ hall
    have hsequence : (h.table hi).sequence = vals := by
      rw [htable]
      exact Table.sequence_slots rfl rfl (hall.length_eq ▸ hlength) fun val hval =>
        (hthere val hval).choose_spec.isNil
    have hdata : vals.filter hasData = vals :=
      List.filter_eq_self.mpr fun val hval => (hthere val hval).choose_spec.hasData
    refine ⟨.list ds, ?_, ?_⟩
    · rw [take, if_neg (not_contains hpath)]
      dsimp only
      rw [if_pos hlist, hsequence, hdata, htakes]
      rfl
    · rw [Data.toJson, hds]
      rfl

/-- **A record** of what stands for the members of an object stands for the object. -/
theorem stands_record {fields : List (Bytes × Value)} {members : List (String × Json)}
    (hlo : lo ≤ hi) (htable : (h.table hi).IsRecord fields)
    (hall : List.Forall₂ (fun f m => f.1 = m.1.toUTF8 ∧ Stands h lo hi f.2 m.2) fields members)
    (hsorted : Fields.Sorted members) : Stands h lo (hi + 1) (.table hi) (.obj members) where
  isNil := rfl
  hasData := rfl
  taken fuel path hfuel hpath := by
    obtain ⟨fuel, rfl⟩ := Nat.exists_eq_add_one.mpr (by omega : 0 < fuel)
    obtain ⟨ps, htakes, hps⟩ := take_members hall (by omega : hi - lo ≤ fuel)
      (List.forall_mem_cons.mpr ⟨Nat.le_refl hi, fun p hp => Nat.le_of_succ_le (hpath p hp)⟩)
      (show Fields.Sorted ([] ++ members) from hsorted)
    have hthere := exists_of_forall₂ hall
    have hlist : ¬isList (h.table hi) = true := by
      rw [isList, htable.behaviour, htable.length_eq]
      decide
    have hlist' : (h.table hi).toList = fields.map fun f => (TableKey.str f.1, f.2) :=
      htable.toList_eq fun f hf => (hthere f hf).choose_spec.2.isNil
    have hdata : (fields.map fun f => (TableKey.str f.1, f.2)).filter
        (fun (k, v) => hasData (TableKey.toValue k) && hasData v) =
          fields.map fun f => (TableKey.str f.1, f.2) := by
      refine List.filter_eq_self.mpr fun e he => ?_
      obtain ⟨f, hf, rfl⟩ := List.mem_map.mp he
      exact (hthere f hf).choose_spec.2.hasData
    refine ⟨.entries ps, ?_, ?_⟩
    · rw [take, if_neg (not_contains hpath)]
      dsimp only
      rw [if_neg hlist, hlist', hdata, htakes]
      rfl
    · rw [Data.toJson, hps]
      rfl

end Taking

/-! ## Handing in -/

/-- What handing a JSON value in comes to, whatever is done to other tables afterwards. -/
def HandsIn (v : Json) : Prop :=
  ∀ h : Heap, h.Keeps 0 (ofJson v h).2 ∧
    ∀ h', (ofJson v h).2.Keeps h.tables.size h' →
      Stands h' h.tables.size (ofJson v h).2.tables.size (ofJson v h).1 v

/-- What has no tables is handed in as it is. -/
theorem handsIn_of_plain {v : Json} (val : Value) (d : Data)
    (hval : ∀ h, (ofJson v h).1 = val ∧ (ofJson v h).2.tables = h.tables)
    (hnil : val.isNil = false) (hdata : hasData val = true)
    (htake : ∀ h fuel path, take h fuel path val = some d) (hd : d.toJson = .ok v) :
    HandsIn v := by
  intro h
  obtain ⟨hfirst, htables⟩ := hval h
  refine ⟨⟨Nat.le_of_eq (congrArg Array.size htables).symm, fun r _ _ => ?_⟩, fun h' _ => ?_⟩
  · rw [Heap.table, Heap.table, htables]
  · rw [hfirst]
    exact ⟨hnil, hdata, fun fuel path _ _ => ⟨d, htake h' fuel path, hd⟩⟩

/-- The items of an array are handed in one after the other. -/
theorem handsIn_items {items : List Json} (hall : ∀ v ∈ items, HandsIn v) (h : Heap) :
    h.Keeps 0 (ofItems items h).2 ∧
      ∀ h', (ofItems items h).2.Keeps h.tables.size h' →
        List.Forall₂ (Stands h' h.tables.size (ofItems items h).2.tables.size)
          (ofItems items h).1 items := by
  induction items generalizing h with
  | nil => exact ⟨.refl 0 h, fun _ _ => .nil⟩
  | cons v items ih =>
    obtain ⟨hv, hitems⟩ := List.forall_mem_cons.mp hall
    obtain ⟨hfirst, hstands⟩ := hv h
    obtain ⟨hrest, hrests⟩ := ih hitems (ofJson v h).2
    refine ⟨hfirst.trans hrest, fun h' hkeeps => ?_⟩
    have hfront := (hrest.mono (Nat.zero_le _)).trans hkeeps
    have hback := hkeeps.mono hfirst.size
    refine .cons ((hstands h' hfront).mono (Nat.le_refl _) hrest.size) ?_
    refine (hrests h' hback).imp fun _ _ hval => hval.mono hfirst.size (Nat.le_refl _)

/-- What a heap with a new table keeps, and what is in the table, wherever these are kept. -/
theorem of_keeps_newTable {lo : Nat} {h h' : Heap} {t : Table} (hlo : lo ≤ h.tables.size)
    (hkeeps : (h.newTable t).2.Keeps lo h') : h.Keeps lo h' ∧ h'.table h.tables.size = t := by
  refine ⟨((Heap.Keeps.newTable h t).mono (Nat.zero_le lo)).trans hkeeps, ?_⟩
  have hlt : h.tables.size < (h.newTable t).2.tables.size := by
    rw [Heap.size_newTable]
    exact Nat.lt_succ_self _
  rw [hkeeps.table _ hlo hlt, Heap.table_newTable]

/-- Members are handed in as their values are, each with its name. -/
theorem ofMembers_eq (members : List (String × Json)) (h : Heap) :
    ofMembers members h =
      ((members.map (·.1.toUTF8)).zip (ofItems (members.map (·.2)) h).1,
        (ofItems (members.map (·.2)) h).2) := by
  induction members generalizing h with
  | nil => rfl
  | cons m members ih =>
    obtain ⟨k, v⟩ := m
    simp only [ofMembers, List.map_cons, ofItems, ih, List.zip_cons_cons]

theorem forall₂_zip {h : Heap} {lo hi : Nat} {vals : List Value} {members : List (String × Json)}
    (hall : List.Forall₂ (Stands h lo hi) vals (members.map (·.2))) :
    List.Forall₂ (fun f m => f.1 = m.1.toUTF8 ∧ Stands h lo hi f.2 m.2)
      ((members.map (·.1.toUTF8)).zip vals) members := by
  induction members generalizing vals with
  | nil => exact .nil
  | cons m members ih =>
    cases hall with
    | cons hval hrest => exact .cons ⟨rfl, hval⟩ (ih hrest)

/-- **Every portable value is handed in.** -/
theorem handsIn_of_isPortable {v : Json} (hv : v.IsPortable) : HandsIn v := by
  induction hv with
  | bool b =>
    refine handsIn_of_plain (.bool b) (.bool b) (fun h => ⟨?_, ?_⟩) rfl rfl
      (fun h fuel path => ?_) ?_
    · rw [ofJson]
    · rw [ofJson]
    · rw [take]
    · rw [Data.toJson]
  | @int i hlow hhigh =>
    have hint : Numeral.int64? i = some (Int64.ofInt i) := if_pos ⟨hlow, hhigh⟩
    refine handsIn_of_plain (.int (Int64.ofInt i)) (.int (Int64.ofInt i)) (fun h => ⟨?_, ?_⟩) rfl
      rfl (fun h fuel path => ?_) ?_
    · rw [ofJson, hint]
    · rw [ofJson]
    · rw [take]
    · rw [Data.toJson, Int64.toInt_ofInt_of_le hlow hhigh]
      rfl
  | @float x hfinite =>
    refine handsIn_of_plain (.float x) (.float x) (fun h => ⟨?_, ?_⟩) rfl rfl
      (fun h fuel path => ?_) ?_
    · rw [ofJson]
    · rw [ofJson]
    · rw [take]
    · rw [Data.toJson, Json.float, if_pos hfinite]
  | str s =>
    refine handsIn_of_plain (.str s.toUTF8) (.str s.toUTF8) (fun h => ⟨?_, ?_⟩) rfl rfl
      (fun h fuel path => ?_) ?_
    · rw [ofJson]
      rfl
    · rw [ofJson]
      rfl
    · rw [take]
    · rw [Data.toJson, Bytes.toText_toUTF8]
  | @arr items hlength _ ih =>
    intro h
    obtain ⟨hkeeps, hstands⟩ := handsIn_items ih h
    rw [ofJson]
    refine ⟨hkeeps.trans (.newTable _ _), fun h' hafter => ?_⟩
    obtain ⟨hbefore, htable⟩ := of_keeps_newTable hkeeps.size hafter
    rw [Heap.size_newTable]
    exact stands_list hkeeps.size htable (hstands h' hbefore) hlength
  | @obj members hsorted _ ih =>
    intro h
    have hvalues : ∀ v ∈ members.map (·.2), HandsIn v := List.forall_mem_map.mpr ih
    obtain ⟨hkeeps, hstands⟩ := handsIn_items hvalues h
    rw [ofJson, ofMembers_eq]
    refine ⟨hkeeps.trans (.newTable _ _), fun h' hafter => ?_⟩
    obtain ⟨hbefore, htable⟩ := of_keeps_newTable hkeeps.size hafter
    have hvals := hstands h' hbefore
    have hall := forall₂_zip hvals
    have hnames : (members.map (·.1.toUTF8)).Nodup := by
      have hdistinct := hsorted.nodup.map (f := String.toUTF8) fun _ _ => String.toByteArray_inj.mp
      rwa [Fields.names, List.map_map] at hdistinct
    have hlength :
        (members.map (·.1.toUTF8)).length = (ofItems (members.map (·.2)) h).1.length := by
      rw [hvals.length_eq, List.length_map, List.length_map]
    rw [Heap.size_newTable]
    refine stands_record hkeeps.size ?_ hall hsorted
    rw [htable]
    refine Table.isRecord_filled ?_ fun f hf => (exists_of_forall₂ hall f hf).choose_spec.2.isNil
    rwa [List.map_fst_zip (Nat.le_of_eq hlength)]

/-- **What is handed to a script comes back** as what it was: whole numbers as whole numbers and
floats as floats, and an empty array as no empty object. It is enough that the tables which were
made for it are as they were. -/
theorem toJson_ofJson {v : Json} (hv : v = .null ∨ v.IsPortable) (h : Heap) {h' : Heap}
    (hkeeps : (ofJson v h).2.Keeps h.tables.size h') : toJson h' (ofJson v h).1 = .ok v := by
  rw [toJson, Data.ofValue]
  rcases hv with rfl | hv
  · rw [ofJson, take]
    rfl
  · have hsize := hkeeps.size
    have hstands := (handsIn_of_isPortable hv h).2 h' hkeeps
    obtain ⟨d, htake, hd⟩ :=
      hstands.taken (h'.tables.size + 1) [] (by omega) (List.forall_mem_nil _)
    rw [htake]
    exact hd

end Exchange

end Script

end Workflow
