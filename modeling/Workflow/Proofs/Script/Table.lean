import Std.Data.HashMap.Lemmas
import Workflow.Script.Table

/-!
# Lists and records as tables

Two shapes that tables are given when they are made. A table with nothing but slots is a list: its
sequence is what is in the slots (`sequence_slots`). A table that is filled under distinct strings,
with room for all of them, is a record: it has the entries in the order in which they came, and no
length (`IsRecord`).
-/

namespace Workflow.Script.Table

/-! ## Lists -/

section Lists

variable {t : Table} {vs : List Value} (hslots : t.slots = vs.toArray) (hplaces : t.places = {})
  (hlength : vs.length < 2 ^ 63)
include hslots hplaces hlength

/-- A whole number up to the length of a list and one beyond leads to the value in its place. -/
theorem get_slots {n : Nat} (hn : n ≤ vs.length) :
    t.get (.int (Int64.ofInt (n + 1))) = vs.getD n .nil := by
  have hsize : t.slots.size = vs.length := by rw [hslots, List.size_toArray]
  rw [get, slot?, hsize]
  rcases Nat.lt_or_eq_of_le hn with hlt | rfl
  · have hint : (Int64.ofInt (n + 1)).toInt = n + 1 := Int64.toInt_ofInt_of_le (by omega) (by omega)
    rw [hint, if_pos (by omega), hslots]
    have hplace : ((n : Int) + 1).toNat - 1 = n := by omega
    dsimp only
    rw [hplace]
    simp [List.getD]
  · -- one beyond there is no slot, even where whole numbers come to their end
    have hnone : ¬(1 ≤ (Int64.ofInt (vs.length + 1)).toInt ∧
        (Int64.ofInt (vs.length + 1)).toInt ≤ (vs.length : Int)) := by
      rw [Int64.toInt_ofInt, Int.bmod, show ((Int64.size : Nat) : Int) = 2 ^ 64 from rfl]
      omega
    rw [if_neg hnone, hplaces]
    dsimp only
    rw [Std.HashMap.getElem?_empty]
    simp

/-- **The sequence of a list** is what is in its slots. -/
theorem sequence_slots (h : ∀ v ∈ vs, v.isNil = false) : t.sequence = vs := by
  have hitems : ∀ front rest, vs = front ++ rest → ∀ fuel, rest.length < fuel →
      t.items fuel (front.length + 1) = rest := by
    intro front rest heq fuel hfuel
    induction rest generalizing front fuel with
    | nil =>
      obtain ⟨fuel, rfl⟩ := Nat.exists_eq_add_one.mpr hfuel
      rw [List.append_nil] at heq
      have hget := get_slots hslots hplaces hlength (heq ▸ Nat.le_refl _ : front.length ≤ vs.length)
      rw [items]
      push_cast
      rw [hget, heq]
      simp [Value.isNil]
    | cons v rest ih =>
      obtain ⟨fuel, rfl⟩ := Nat.exists_eq_add_one.mpr (Nat.zero_lt_of_lt hfuel)
      have hle : front.length ≤ vs.length := by
        rw [heq, List.length_append]
        exact Nat.le_add_right ..
      have hget : t.get (.int (Int64.ofInt (front.length + 1))) = v := by
        rw [get_slots hslots hplaces hlength hle, heq]
        simp
      have hv : v.isNil = false := h v (heq ▸ List.mem_append_right _ (List.mem_cons_self ..))
      have hrest := ih (front ++ [v]) (by rw [heq, List.append_assoc]; rfl) fuel
        (Nat.lt_of_succ_lt_succ hfuel)
      rw [List.length_append] at hrest
      rw [items]
      push_cast
      rw [hget, hv]
      exact congrArg (v :: ·) hrest
  rw [sequence, hslots]
  refine hitems [] vs rfl _ ?_
  rw [List.size_toArray]
  omega

end Lists

/-! ## Records -/

/-- A table that was filled under distinct strings. -/
structure IsRecord (t : Table) (fields : List (Bytes × Value)) : Prop where
  /-- it has no slots -/
  slots : t.slots = #[]
  /-- no border is known -/
  hint : t.hint = 0
  /-- nothing says how it behaves -/
  behaviour : t.behaviour = none
  /-- the entries are there in order -/
  entries : t.entries.toList = fields.map fun f => (TableKey.str f.1, f.2)
  /-- and there are no others -/
  places : ∀ k : TableKey, (∀ f ∈ fields, k ≠ .str f.1) → t.places[k]? = none

theorem isRecord_withRoom (n : Nat) : (withRoom 0 n).IsRecord [] :=
  ⟨rfl, rfl, rfl, rfl, fun _ _ => Std.HashMap.getElem?_empty⟩

/-- There is room for as many entries as were asked for. -/
theorem le_roomFor (n : Nat) : n ≤ roomFor n := by
  have hclass : ∀ n, 1 < n → n ≤ 2 ^ (Nat.log2 (n - 1) + 1) := fun n hn => by
    have hlt := Nat.lt_log2_self (n := n - 1)
    omega
  rw [roomFor]
  split
  · next h => exact Nat.le_of_eq h
  · rw [sizeClass]
    split
    · next h => exact h
    · next h => exact hclass n (Nat.lt_of_not_le h)

namespace IsRecord

variable {t : Table} {fields : List (Bytes × Value)}

/-- A new string is put behind the others if there is room. -/
theorem set (h : t.IsRecord fields) {k : Bytes} {v : Value} (hroom : fields.length < t.room)
    (hnew : ∀ f ∈ fields, f.1 ≠ k) (hv : v.isNil = false) :
    (t.set (.str k) v).IsRecord (fields ++ [(k, v)]) ∧ (t.set (.str k) v).room = t.room := by
  have hplace : t.places[TableKey.str k]? = none :=
    h.places _ fun f hf heq => hnew f hf (TableKey.str.inj heq).symm
  have hsize : t.entries.size < t.room := by
    rw [← Array.length_toList, h.entries, List.length_map]
    exact hroom
  have hset : t.set (.str k) v = t.pushEntry (.str k) v := by
    rw [Table.set, slot?]
    · rw [hplace]
      dsimp only
      rw [hv, if_neg Bool.false_ne_true, if_pos hsize]
    · exact nofun
  rw [hset]
  refine ⟨⟨h.slots, h.hint, h.behaviour, ?_, fun other hother => ?_⟩, rfl⟩
  · rw [pushEntry, Array.toList_push, h.entries, List.map_append]
    rfl
  · obtain ⟨hothers, hlast⟩ := List.forall_mem_append.mp hother
    rw [pushEntry, Std.HashMap.getElem?_insert, if_neg]
    · exact h.places other hothers
    · rw [beq_iff_eq]
      exact (List.forall_mem_singleton.mp hlast).symm

/-- A record has no length. -/
theorem length_eq (h : t.IsRecord fields) : t.length = 0 := by
  have hone : ∀ f ∈ fields, TableKey.int (Int64.ofInt (0 + 1)) ≠ .str f.1 := fun _ _ => nofun
  have hget : (t.get (.int (Int64.ofInt (0 + 1)))).isNil = true := by
    rw [get, slot?, h.slots, if_neg (by decide)]
    dsimp only
    rw [h.places _ hone]
    rfl
  have hborder : (t.entries.isEmpty || (t.get (.int (Int64.ofInt (0 + 1)))).isNil) = true := by
    rw [hget, Bool.or_true]
  have hsize : t.slots.size = 0 := congrArg Array.size h.slots
  rw [length, border, hsize, h.hint]
  simp only [Nat.lt_irrefl, decide_false, Bool.false_and, Bool.false_eq_true, if_false]
  exact congrArg Prod.fst (if_pos hborder)

/-- What is in a record are its entries. -/
theorem toList_eq (h : t.IsRecord fields) (hv : ∀ f ∈ fields, f.2.isNil = false) :
    t.toList = fields.map fun f => (TableKey.str f.1, f.2) := by
  rw [toList, h.slots, h.entries, List.filter_eq_self.mpr]
  · rfl
  · intro e he
    obtain ⟨f, hf, rfl⟩ := List.mem_map.mp he
    dsimp only
    rw [hv f hf]
    rfl

end IsRecord

/-- **A record is made** by filling a table with room under distinct strings. -/
theorem isRecord_filled {fields : List (Bytes × Value)} (hdistinct : (fields.map Prod.fst).Nodup)
    (hv : ∀ f ∈ fields, f.2.isNil = false) :
    (fields.foldl (fun t (k, v) => t.set (.str k) v) (withRoom 0 fields.length)).IsRecord
      fields := by
  have hfill : ∀ front rest (t : Table), fields = front ++ rest → t.IsRecord front →
      fields.length ≤ t.room →
      (rest.foldl (fun t (k, v) => t.set (.str k) v) t).IsRecord fields := by
    intro front rest t heq ht hroom
    induction rest generalizing front t with
    | nil => rwa [heq, List.append_nil]
    | cons f rest ih =>
      obtain ⟨k, v⟩ := f
      have hnew : ∀ f ∈ front, f.1 ≠ k := by
        rw [heq, List.map_append, List.nodup_append] at hdistinct
        exact fun f hf => hdistinct.2.2 _ (List.mem_map_of_mem hf) _ (List.mem_cons_self ..)
      have hfits : front.length < t.room := by
        rw [heq, List.length_append, List.length_cons] at hroom
        omega
      have hsome : v.isNil = false :=
        hv (k, v) (heq ▸ List.mem_append_right _ (List.mem_cons_self ..))
      obtain ⟨hset, hsame⟩ := ht.set hfits hnew hsome
      exact ih _ _ (by rw [heq, List.append_assoc]; rfl) hset (hsame ▸ hroom)
  exact hfill [] fields _ rfl (isRecord_withRoom _) (le_roomFor _)

end Workflow.Script.Table
