import Workflow.Vars
import Workflow.Proofs.Json.Canonical
import Workflow.Proofs.Text.Bytes
import Workflow.Proofs.Vars.Key

/-!
# The history of a store

A store is decoded from an object, and then values are set and removed, all of it is replaced and
its wait keys are forgotten. All this keeps its keys folded (`IsKept`), so that a key is found in any
spelling, and what was written last under one of its spellings is what is there
(`History.found_as_written`).

Forgetting to wait is the one access that does not fold its keys, and replacing the one that takes
over keys that others have folded. The former is right because the two keys are folded as they
stand, the latter because the store that replaces has a history of its own.
-/

namespace Workflow.Vars

open Json (IsCanonical canonicalMembers)

/-! ## What a store keeps -/

/-- A store whose keys are folded and in order, and whose values are canonical. -/
structure IsKept (vars : Vars) : Prop where
  /-- the keys are in order -/
  sorted : vars.fields.Sorted
  /-- folding makes no difference to a key -/
  folded : ∀ f ∈ vars.fields, Key.normalize f.1 = f.1
  /-- the values are canonical -/
  canonical : ∀ f ∈ vars.fields, f.2.IsCanonical

section Kept

variable {vars : Vars} {raw : Fields Json}

theorem isKept_empty : empty.IsKept :=
  ⟨List.Pairwise.nil, List.forall_mem_nil _, List.forall_mem_nil _⟩

theorem IsKept.set (h : vars.IsKept) (key : String) {value : Json} (hvalue : value.IsCanonical) :
    (vars.set key value).IsKept where
  sorted := h.sorted.put _ _
  folded f hf := by
    rcases Fields.mem_put hf with rfl | hf
    · exact Key.normalize_normalize key
    · exact h.folded f hf
  canonical f hf := by
    rcases Fields.mem_put hf with rfl | hf
    · exact hvalue
    · exact h.canonical f hf

theorem IsKept.erase (h : vars.IsKept) (name : String) : IsKept ⟨vars.fields.erase name⟩ where
  sorted := h.sorted.erase name
  folded f hf := h.folded f (List.mem_of_mem_filter hf)
  canonical f hf := h.canonical f (List.mem_of_mem_filter hf)

theorem isKept_ofFields (h : ∀ f ∈ raw, f.2.IsCanonical) : (ofFields raw).IsKept := by
  have hempty := isKept_empty
  rw [ofFields]
  generalize empty = vars at hempty ⊢
  induction raw generalizing vars with
  | nil => exact hempty
  | cons f raw ih =>
    obtain ⟨hf, hraw⟩ := List.forall_mem_cons.mp h
    exact ih hraw _ (hempty.set f.1 hf)

/-- A store given by its own fields is itself. -/
theorem IsKept.ofFields_fields (h : vars.IsKept) : ofFields vars.fields = vars := by
  obtain ⟨fields⟩ := vars
  have hset : ∀ before behind : Fields Json, before ++ behind = fields →
      behind.foldl (fun vars f => vars.set f.1 f.2) ⟨before⟩ = (⟨fields⟩ : Vars) := by
    intro before behind hfields
    induction behind generalizing before with
    | nil => rw [← hfields, List.append_nil]; rfl
    | cons f behind ih =>
      have hsorted := h.sorted
      subst hfields
      rw [Fields.Sorted, Fields.names, List.map_append, List.pairwise_append] at hsorted
      have hlt : ∀ other ∈ Fields.names before, other < f.1 :=
        fun other ho => hsorted.2.2 other ho f.1 List.mem_cons_self
      have hfolded := h.folded f (List.mem_append_right _ List.mem_cons_self)
      rw [List.foldl_cons, Vars.set, hfolded, Fields.put_eq_append hlt]
      exact ih _ (List.append_assoc ..)
  exact hset [] fields rfl

end Kept

/-! ## What is under a key -/

theorem get?_set (vars : Vars) (key other : String) (value : Json) :
    (vars.set key value).get? other =
      if Key.normalize key = Key.normalize other then some value else vars.get? other :=
  Fields.find?_put ..

theorem get?_remove (vars : Vars) (key other : String) :
    (vars.remove key).get? other =
      if Key.normalize key = Key.normalize other then none else vars.get? other :=
  Fields.find?_erase ..

/-- Of the spellings of a key the last one counts. -/
theorem get?_ofFields (raw : Fields Json) (key : String) :
    (ofFields raw).get? key =
      (raw.reverse.find? fun f => Key.normalize f.1 = Key.normalize key).map Prod.snd := by
  rw [ofFields, ← List.foldr_reverse]
  induction raw.reverse with
  | nil => rfl
  | cons f raw ih =>
    rw [List.foldr_cons, get?_set, List.find?_cons]
    split
    · next h => rw [decide_eq_true h]; rfl
    · next h => rw [decide_eq_false h]; exact ih

/-! ## Decoding -/

theorem decode_obj (members : List (String × Json)) :
    decode (.obj members) = .ok (ofFields (canonicalMembers members [])) := by
  rw [decode, Json.fields_anyValue]
  rfl

theorem isCanonical_of_mem {members : List (String × Json)} {f : String × Json}
    (h : f ∈ canonicalMembers members []) : f.2.IsCanonical := by
  rcases Json.mem_canonicalMembers h with hnil | ⟨m, -, rfl⟩
  · cases hnil
  · exact Json.isCanonical_canonical m.2

theorem isKept_of_decode {v : Json} {vars : Vars} (h : decode v = .ok vars) : vars.IsKept := by
  cases v with
  | obj members =>
    rw [decode_obj] at h
    cases h
    exact isKept_ofFields fun _ => isCanonical_of_mem
  | _ => cases h

/-- A store is decoded from what it is encoded as. -/
theorem IsKept.decode_toJson {vars : Vars} (h : vars.IsKept) : decode vars.toJson = .ok vars := by
  have hmembers : canonicalMembers vars.fields [] = vars.fields :=
    Json.canonicalMembers_of_sorted h.sorted h.canonical
  rw [toJson, decode_obj, hmembers, h.ofFields_fields]

theorem IsKept.isCanonical_toJson {vars : Vars} (h : vars.IsKept) : vars.toJson.IsCanonical :=
  Json.isCanonical_obj h.sorted h.canonical

/-! ## Histories -/

/-- What a store went through. -/
inductive History where
  /-- it was decoded from an object -/
  | decoded (members : List (String × Json))
  /-- a value was set under a key -/
  | set (before : History) (key : String) (value : Json) (hvalue : value.IsCanonical)
  /-- a key was removed -/
  | remove (before : History) (key : String)
  /-- another store took its place -/
  | replace (before other : History)
  /-- it forgot that it was asked to wait -/
  | clearWait (before : History)

namespace History

/-- The store that a history leaves. -/
def store : History → Except Json.DecodeError Vars
  | decoded members => decode (.obj members)
  | set before key value _ => before.store.map (·.set key value)
  | remove before key => before.store.map (·.remove key)
  | replace before other => before.store.bind fun _ => other.store
  | clearWait before => before.store.map Vars.clearWait

/-- What a history has written last under the spellings of a key, and not removed since. -/
inductive LastWritten (key : String) : History → Option Json → Prop where
  /-- the object has no spelling of the key -/
  | absent {members : List (String × Json)}
      (h : ∀ m ∈ members, Key.normalize m.1 ≠ Key.normalize key) :
      LastWritten key (.decoded members) none
  /-- of the spellings in the object the one with the greatest bytes counts, and of the values
  under it the last one -/
  | given {members : List (String × Json)} {name : String} {value : Json}
      (hname : Key.normalize name = Key.normalize key)
      (hgreatest : ∀ m ∈ members, Key.normalize m.1 = Key.normalize key →
        Text.bytes m.1 ≤ Text.bytes name)
      (hvalue : Fields.find? members.reverse name = some value) :
      LastWritten key (.decoded members) (some value.canonical)
  /-- it was set -/
  | set {before : History} {other : String} {value : Json} {hvalue : value.IsCanonical}
      (h : Key.normalize other = Key.normalize key) :
      LastWritten key (.set before other value hvalue) (some value)
  /-- another key was set -/
  | setOther {before : History} {other : String} {value : Json} {hvalue : value.IsCanonical}
      {last : Option Json} (h : Key.normalize other ≠ Key.normalize key)
      (hbefore : LastWritten key before last) :
      LastWritten key (.set before other value hvalue) last
  /-- it was removed -/
  | removed {before : History} {other : String} (h : Key.normalize other = Key.normalize key) :
      LastWritten key (.remove before other) none
  /-- another key was removed -/
  | removedOther {before : History} {other : String} {last : Option Json}
      (h : Key.normalize other ≠ Key.normalize key) (hbefore : LastWritten key before last) :
      LastWritten key (.remove before other) last
  /-- the store that took the place has its own -/
  | replaced {before other : History} {last : Option Json} (hother : LastWritten key other last) :
      LastWritten key (.replace before other) last
  /-- it is one of the keys of waiting, which were forgotten -/
  | cleared {before : History}
      (h : Key.normalize key = Key.normalize waitFlag ∨
        Key.normalize key = Key.normalize waitReasonKey) : LastWritten key (.clearWait before) none
  /-- it is none of them -/
  | clearedOther {before : History} {last : Option Json}
      (hflag : Key.normalize key ≠ Key.normalize waitFlag)
      (hreason : Key.normalize key ≠ Key.normalize waitReasonKey)
      (hbefore : LastWritten key before last) : LastWritten key (.clearWait before) last

theorem normalize_waitFlag : Key.normalize waitFlag = waitFlag := by decide +kernel

theorem normalize_waitReasonKey : Key.normalize waitReasonKey = waitReasonKey := by decide +kernel

/-- Only one thing was written last. -/
theorem LastWritten.unique {key : String} {h : History} {last other : Option Json}
    (hlast : LastWritten key h last) (hother : LastWritten key h other) : last = other := by
  induction hlast with
  | absent h =>
    cases hother with
    | absent => rfl
    | given hname _ hvalue =>
      have hmem := List.mem_reverse.mp (Fields.mem_of_find? hvalue)
      exact absurd hname (h (_, _) hmem)
  | given hname hgreatest hvalue =>
    have hmem := List.mem_reverse.mp (Fields.mem_of_find? hvalue)
    cases hother with
    | absent h => exact absurd hname (h (_, _) hmem)
    | given hname' hgreatest' hvalue' =>
      have hmem' := List.mem_reverse.mp (Fields.mem_of_find? hvalue')
      obtain rfl := String.le_antisymm (Text.bytes_le_bytes.mp (hgreatest' (_, _) hmem hname))
        (Text.bytes_le_bytes.mp (hgreatest (_, _) hmem' hname'))
      obtain rfl := Option.some.inj (hvalue.symm.trans hvalue')
      rfl
  | set h =>
    cases hother with
    | set => rfl
    | setOther hne => exact absurd h hne
  | setOther hne _ ih =>
    cases hother with
    | set h => exact absurd h hne
    | setOther _ hbefore => exact ih hbefore
  | removed h =>
    cases hother with
    | removed => rfl
    | removedOther hne => exact absurd h hne
  | removedOther hne _ ih =>
    cases hother with
    | removed h => exact absurd h hne
    | removedOther _ hbefore => exact ih hbefore
  | replaced _ ih =>
    cases hother with
    | replaced hother => exact ih hother
  | cleared h =>
    cases hother with
    | cleared => rfl
    | clearedOther hflag hreason => exact absurd h (not_or.mpr ⟨hflag, hreason⟩)
  | clearedOther hflag hreason _ ih =>
    cases hother with
    | cleared h => exact absurd h (not_or.mpr ⟨hflag, hreason⟩)
    | clearedOther _ _ hbefore => exact ih hbefore

/-- A member is found among those that decoding keeps, maybe with a later value. -/
theorem exists_mem_canonicalMembers {members : List (String × Json)} {m : String × Json}
    (h : m ∈ members) : ∃ v, (m.1, v) ∈ canonicalMembers members [] := by
  have hfind := Json.find?_canonicalMembers members [] m.1
  cases hlast : Fields.find? members.reverse m.1 with
  | none => exact absurd hlast (Fields.find?_ne_none_of_mem (List.mem_reverse.mpr h))
  | some v =>
    rw [hlast] at hfind
    exact ⟨v.canonical, Fields.mem_of_find? hfind⟩

theorem lastWritten_decoded (members : List (String × Json)) (key : String) :
    LastWritten key (.decoded members) ((ofFields (canonicalMembers members [])).get? key) := by
  have hsorted : Fields.Sorted (canonicalMembers members []) :=
    Json.sorted_canonicalMembers members List.Pairwise.nil
  rw [get?_ofFields]
  cases hlast : (canonicalMembers members []).reverse.find?
      fun f => Key.normalize f.1 = Key.normalize key with
  | none =>
    refine .absent fun m hm heq => ?_
    obtain ⟨v, hv⟩ := exists_mem_canonicalMembers hm
    exact List.find?_eq_none.mp hlast _ (List.mem_reverse.mpr hv) (decide_eq_true heq)
  | some f =>
    obtain ⟨name, v⟩ := f
    have hp := List.find?_some hlast
    have hname : Key.normalize name = Key.normalize key := of_decide_eq_true hp
    have hfind := hsorted.find?_of_mem (List.mem_reverse.mp (List.mem_of_find?_eq_some hlast))
    rw [Json.find?_canonicalMembers, Fields.find?_nil, Option.or_none, Option.map_eq_some_iff]
      at hfind
    obtain ⟨value, hvalue, rfl⟩ := hfind
    refine .given hname (fun m hm heq => ?_) hvalue
    obtain ⟨v, hv⟩ := exists_mem_canonicalMembers hm
    have hle := hsorted.le_of_find?_reverse hlast hv (decide_eq_true heq)
    exact Text.bytes_le_bytes.mpr hle

/-- Small letters have greater bytes than capitals, wherever they come in the object. -/
example : (decode (.obj [("user-name", .str "Lin"), ("User Name", .str "Ada")])).map
    (·.get? "USER_NAME") = .ok (some (.str "Lin")) := rfl

/-- Every access keeps a store, and what was written last is under the key. -/
theorem kept (h : History) :
    ∃ vars, h.store = .ok vars ∧ vars.IsKept ∧ ∀ key, LastWritten key h (vars.get? key) := by
  induction h with
  | decoded members =>
    have hdecode := decode_obj members
    exact ⟨_, hdecode, isKept_of_decode hdecode, lastWritten_decoded members⟩
  | set before name value hvalue ih =>
    obtain ⟨vars, hstore, hkept, hlast⟩ := ih
    refine ⟨vars.set name value, by rw [store, hstore]; rfl, hkept.set name hvalue, fun key => ?_⟩
    rw [get?_set]
    split
    · next heq => exact .set heq
    · next hne => exact .setOther hne (hlast key)
  | remove before name ih =>
    obtain ⟨vars, hstore, hkept, hlast⟩ := ih
    refine ⟨vars.remove name, by rw [store, hstore]; rfl, hkept.erase _, fun key => ?_⟩
    rw [get?_remove]
    split
    · next heq => exact .removed heq
    · next hne => exact .removedOther hne (hlast key)
  | replace before other ihbefore ihother =>
    obtain ⟨_, hbefore, -⟩ := ihbefore
    obtain ⟨vars, hstore, hkept, hlast⟩ := ihother
    refine ⟨vars, ?_, hkept, fun key => .replaced (hlast key)⟩
    rw [store, hbefore]
    exact hstore
  | clearWait before ih =>
    obtain ⟨vars, hstore, hkept, hlast⟩ := ih
    refine ⟨vars.clearWait, by rw [store, hstore]; rfl, (hkept.erase _).erase _, fun key => ?_⟩
    rw [get?_clearWait, ← normalize_waitFlag, ← normalize_waitReasonKey]
    split
    · next h => exact .cleared h
    · next h => exact .clearedOther (not_or.mp h).1 (not_or.mp h).2 (hlast key)

/-- A store that keeps what stores keep has a history, and only such a store has one. -/
theorem isKept_iff_exists_history {vars : Vars} :
    vars.IsKept ↔ ∃ h : History, h.store = .ok vars := by
  constructor
  · intro hkept
    exact ⟨.decoded vars.fields, hkept.decode_toJson⟩
  · rintro ⟨h, hstore⟩
    obtain ⟨vars', hstore', hkept, -⟩ := h.kept
    obtain rfl := Except.ok.inj (hstore.symm.trans hstore')
    exact hkept

/-- **A store is what its history wrote.** It can always be decoded; its keys are folded; under a
key is what was written last under one of its spellings, and not removed since; and what it is
encoded as is decoded as the store itself. -/
theorem found_as_written (h : History) : ∃ vars, h.store = .ok vars ∧
    (∀ f ∈ vars.fields, Key.normalize f.1 = f.1) ∧
    (∀ key last, vars.get? key = last ↔ LastWritten key h last) ∧
    decode vars.toJson = .ok vars := by
  obtain ⟨vars, hstore, hkept, hlast⟩ := h.kept
  refine ⟨vars, hstore, hkept.folded, fun key last => ⟨?_, fun h => ?_⟩, hkept.decode_toJson⟩
  · rintro rfl
    exact hlast key
  · exact (hlast key).unique h

end History

end Workflow.Vars
