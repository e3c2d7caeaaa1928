import Std.Data.HashMap
import Workflow.Script.Value

/-!
# Tables

A table maps keys to values, nil standing for absence. A table keeps the values of
`1 … n` in `slots` and all others as entries in order of their arrival; an entry
whose value became nil stays in its place, so that a walk over the table survives
removals.

How many slots there are is no matter of reading and writing, but it shows in
`border`: a table with holes has several numbers that could be called its length,
and which one is found depends on the slots. They are chosen when the entries run
out of room: as many as a power of two, more than half of them in use.
-/

namespace Workflow.Script

/-- A table. -/
structure Table where
  /-- the values of `1, 2, …` -/
  slots : Array Value := #[]
  /-- where the search for a border starts -/
  hint : Nat := 0
  /-- the place of each other key -/
  places : Std.HashMap TableKey Nat := {}
  /-- the other keys with their values -/
  entries : Array (TableKey × Value) := #[]
  /-- how many entries there is room for -/
  room : Nat := 0
  /-- the table that says how this one behaves -/
  behaviour : Option Nat := none
  deriving Inhabited

namespace Table

/-- The class of a number `n`: the least `c` with `n ≤ 2^c`. -/
def sizeClass (n : Nat) : Nat := if n ≤ 1 then 0 else Nat.log2 (n - 1) + 1

/-- The least power of two that is not below a number; zero stays zero. -/
def roomFor (n : Nat) : Nat := if n = 0 then 0 else 2 ^ sizeClass n

/-- A table with room for so many slots and entries. -/
def withRoom (slots entries : Nat) : Table :=
  { slots := Array.replicate slots .nil, hint := slots, room := roomFor entries }

/-- The slot of a key, if it has one. -/
def slot? (t : Table) : TableKey → Option Nat
  | .int i =>
    let n := i.toInt
    if 1 ≤ n ∧ n ≤ t.slots.size then some (n.toNat - 1) else none
  | _ => none

/-- The value under a key. -/
def get (t : Table) (k : TableKey) : Value :=
  match t.slot? k with
  | some i => t.slots.getD i .nil
  | none =>
    match t.places[k]? with
    | some i => (t.entries.getD i default).2
    | none => .nil

/-! ## Finding the slots -/

/-- Counts a key in the classes of whole numbers, if it is one that could have a
slot. -/
def countKey (counts : Array Nat) : TableKey → Array Nat
  | .int i =>
    let n := i.toInt
    if 1 ≤ n ∧ n ≤ 2 ^ 26 then counts.modify (sizeClass n.toNat) (· + 1) else counts
  | _ => counts

/-- Counts the slots in use. -/
def countSlots (t : Table) (counts : Array Nat) : Array Nat :=
  (t.slots.foldl (fun (counts, n) v =>
    (if v.isNil then counts else countKey counts (.int (Int64.ofInt n)), n + 1)) (counts, 1)).1

/-- Counts the entries in use. -/
def countEntries (t : Table) (counts : Array Nat) : Array Nat :=
  t.entries.foldl (fun counts (k, v) => if v.isNil then counts else countKey counts k) counts

/-- The best number of slots and how many of them will be in use: the largest power
of two of which more than half is in use. -/
def bestSize (counts : Array Nat) : Nat × Nat :=
  let total := counts.foldl (· + ·) 0
  let (_, size, used) := (List.range counts.size).foldl (fun (seen, size, used) c =>
    let seen := seen + counts.getD c 0
    if 2 ^ c / 2 < total && 2 ^ c / 2 < seen then (seen, 2 ^ c, seen) else (seen, size, used))
    (0, 0, 0)
  (size, used)

/-! ## Writing -/

/-- Adds an entry for a key that has none. -/
def pushEntry (t : Table) (k : TableKey) (v : Value) : Table :=
  { t with places := t.places.insert k t.entries.size, entries := t.entries.push (k, v) }

/-- Puts a value that is not nil into a table with the right slots. -/
def place (t : Table) (k : TableKey) (v : Value) : Table :=
  match t.slot? k with
  | some i => { t with slots := t.slots.set! i v }
  | none => t.pushEntry k v

/-- Gives a table so many slots and room for so many entries; entries that are not
in use are forgotten. -/
def resize (t : Table) (slots entries : Nat) : Table :=
  let kept := (t.slots.extract 0 slots) ++ Array.replicate (slots - t.slots.size) Value.nil
  let bare : Table :=
    { slots := kept, hint := slots, room := roomFor entries, behaviour := t.behaviour }
  let (withTail, _) := (t.slots.extract slots t.slots.size).foldl
    (fun ((u : Table), n) v =>
      (if v.isNil then u else u.pushEntry (.int (Int64.ofInt n)) v, n + 1)) (bare, slots + 1)
  t.entries.foldl (fun u (k, v) => if v.isNil then u else u.place k v) withTail

/-- Makes room for one more key. -/
def grow (t : Table) (k : TableKey) : Table :=
  let counts := countKey (t.countEntries (t.countSlots (Array.replicate 27 0))) k
  let inSlots := t.slots.foldl (fun n v => if v.isNil then n else n + 1) 0
  let inEntries := t.entries.foldl (fun n (_, v) => if v.isNil then n else n + 1) 0
  let (size, used) := bestSize counts
  t.resize size (inSlots + inEntries + 1 - used)

/-- Sets the value under a key. -/
def set (t : Table) (k : TableKey) (v : Value) : Table :=
  match t.slot? k with
  | some i => { t with slots := t.slots.set! i v }
  | none =>
    match t.places[k]? with
    | some i => { t with entries := t.entries.set! i (k, v) }
    | none =>
      if v.isNil then t
      else if t.entries.size < t.room then t.pushEntry k v
      else (t.grow k).place k v

/-! ## Length -/

/-- A position between a used slot (or the front) and an unused one, by halving. -/
def halve (slots : Array Value) : Nat → Nat → Nat → Nat
  | 0, i, _ => i
  | fuel + 1, i, j =>
    if j - i ≤ 1 then i
    else
      let m := (i + j) / 2
      if (slots.getD (m - 1) .nil).isNil then halve slots fuel i m else halve slots fuel m j

/-- Looks for a border beyond the slots: doubles until a key is absent, then
halves. -/
def searchEntries (t : Table) : Nat → Nat → Nat → Nat
  | 0, i, _ => i
  | fuel + 1, i, j =>
    if (t.get (.int (Int64.ofInt j))).isNil then between 64 i j
    else searchEntries t fuel j (j * 2)
where
  /-- Halves between a present key and an absent one. -/
  between : Nat → Nat → Nat → Nat
    | 0, i, _ => i
    | fuel + 1, i, j =>
      if j - i ≤ 1 then i
      else
        let m := (i + j) / 2
        if (t.get (.int (Int64.ofInt m))).isNil then between fuel i m else between fuel m j

/-- A border: a number whose key is present (or zero) while that of the next one is
absent; and where the next search starts. -/
def border (t : Table) : Nat × Nat :=
  let size := t.slots.size
  let isFree (i : Nat) : Bool := (t.slots.getD (i - 1) .nil).isNil
  let keep (b : Nat) : Nat := if size = size.nextPowerOfTwo && size / 2 < b then b else t.hint
  let limit := t.hint
  if 0 < limit && isFree limit then
    if 2 ≤ limit && !isFree (limit - 1) then (limit - 1, keep (limit - 1))
    else
      let b := halve t.slots 64 0 limit
      (b, keep b)
  else if limit < size && isFree (limit + 1) then (limit, limit)
  else if limit < size && isFree size then
    let b := halve t.slots 64 limit size
    (b, b)
  else if t.entries.isEmpty || (t.get (.int (Int64.ofInt (size + 1)))).isNil then (size, t.hint)
  else (searchEntries t 64 (max size 1) (2 * max size 1), t.hint)

/-- The length of a table. -/
def length (t : Table) : Nat := t.border.1

/-! ## Walking -/

/-- The first slot in use from a position on. -/
def nextSlot (slots : Array Value) : Nat → Nat → Option Nat
  | 0, _ => none
  | fuel + 1, i =>
    match slots[i]? with
    | none => none
    | some v => if v.isNil then nextSlot slots fuel (i + 1) else some i

/-- The first entry in use from a position on. -/
def nextEntry (entries : Array (TableKey × Value)) : Nat → Nat → Option (TableKey × Value)
  | 0, _ => none
  | fuel + 1, i =>
    match entries[i]? with
    | none => none
    | some (k, v) => if v.isNil then nextEntry entries fuel (i + 1) else some (k, v)

/-- What a walk meets from a slot on. -/
def walkFrom (t : Table) (slot : Nat) : Option (TableKey × Value) :=
  match nextSlot t.slots (t.slots.size + 1) slot with
  | some i => some (.int (Int64.ofInt (i + 1)), t.slots.getD i .nil)
  | none => nextEntry t.entries (t.entries.size + 1) 0

/-- What a walk meets after a key, or first of all. A key that never was in the
table cannot be gone on from. -/
def next (t : Table) : Option TableKey → Option (Option (TableKey × Value))
  | none => some (t.walkFrom 0)
  | some k =>
    match t.slot? k with
    | some i => some (t.walkFrom (i + 1))
    | none => (t.places[k]?).map fun i => nextEntry t.entries (t.entries.size + 1) (i + 1)

/-- All keys in use with their values, in the order of a walk. -/
def toList (t : Table) : List (TableKey × Value) :=
  let inSlots := (t.slots.toList.zip (List.range t.slots.size)).filterMap fun (v, i) =>
    if v.isNil then none else some (.int (Int64.ofInt (i + 1)), v)
  inSlots ++ t.entries.toList.filter fun (_, v) => !v.isNil

/-- The values of `1, 2, …` up to the first that is absent. -/
def items (t : Table) : Nat → Nat → List Value
  | 0, _ => []
  | fuel + 1, n =>
    let v := t.get (.int (Int64.ofInt n))
    if v.isNil then [] else v :: items t fuel (n + 1)

/-- The values of `1, 2, …` up to the first that is absent. -/
def sequence (t : Table) : List Value := t.items (t.slots.size + t.entries.size + 1) 1

/-- How many bytes a table takes. -/
def bytes (t : Table) : Nat := 56 + 16 * t.slots.size + 24 * t.room

end Table

end Workflow.Script
