import Workflow.Script.Library.Arguments

/-!
# Table functions

The functions that are found in `table`. They reach into tables as programs do, so
what has the behaviour of a table will do for one.
-/

namespace Workflow.Script.Library

open Arguments

/-! ## Items -/

/-- The value under a whole number. -/
def item (t : Value) (i : Int) : Proc Value := Operators.index t (.int (Int64.ofInt i)) .unknown

/-- Sets the value under a whole number. -/
def setItem (t : Value) (i : Int) (v : Value) : Proc Unit :=
  Operators.setIndex t (.int (Int64.ofInt i)) v .unknown

/-- The events that reading items takes. -/
def reading : List String := ["__index", "__len"]

/-- The events that changing items takes. -/
def changing : List String := ["__index", "__newindex", "__len"]

/-- Moves so many items one place up, the last one first to a place. -/
def shift (t : Value) : Nat → Int → Proc Unit
  | 0, _ => pure ()
  | n + 1, i => do
    setItem t i (← item t (i - 1))
    shift t n (i - 1)

/-! ## Insertion and removal -/

/-- Inserts an item at the end or before a position. -/
def tableInsert (args : Arguments) : Proc Arguments := do
  let t ← args.tableLike 1 changing
  let last := (← lengthOf t).toInt + 1
  match args.length with
  | 2 =>
    setItem t last (args.nth 2)
    return []
  | 3 =>
    let i := (← args.int 2).toInt
    if i < 1 || last < i then blame 2 "position out of bounds"
    shift t (last - i).toNat last
    setItem t i (args.nth 3)
    return []
  | _ => Proc.failWith "wrong number of arguments to 'insert'"

/-- Removes the last item or the one at a position. -/
def tableRemove (args : Arguments) : Proc Arguments := do
  let t ← args.tableLike 1 changing
  let size ← lengthOf t
  let i := (← args.intOr 2 size).toInt
  let size := size.toInt
  if i ≠ size && (i < 1 || size + 1 < i) then blame 2 "position out of bounds"
  let removed ← item t i
  close t (size - i).toNat i
  setItem t (max i size) .nil
  return [removed]
where
  /-- Closes the gap of a removed item. -/
  close (t : Value) : Nat → Int → Proc Unit
    | 0, _ => pure ()
    | n + 1, i => do
      setItem t i (← item t (i + 1))
      close t n (i + 1)

/-- Moves items to another place, perhaps in another table. -/
def tableMove (args : Arguments) : Proc Arguments := do
  let first := (← args.int 2).toInt
  let last := (← args.int 3).toInt
  let place := (← args.int 4).toInt
  let source ← args.tableLike 1 ["__index"]
  let target ← if args.isNilAt 5 then args.tableLike 1 ["__newindex"] else
    args.tableLike 5 ["__newindex"]
  if first ≤ last then
    if !(0 < first || last < 2 ^ 63 - 1 + first) then blame 3 "too many elements to move"
    let count := last - first + 1
    if 2 ^ 63 - 1 < place + count - 1 then blame 4 "destination wrap around"
    let isSame := match args.nth 5 with
      | .nil => true
      | other => other.rawEq (args.nth 1)
    if last < place || place ≤ first || !isSame then
      up source target first place count.toNat 0
    else down source target first place count.toNat
  return [target]
where
  /-- Moves items, the first one first. -/
  up (source target : Value) (first place : Int) : Nat → Int → Proc Unit
    | 0, _ => pure ()
    | n + 1, i => do
      setItem target (place + i) (← item source (first + i))
      up source target first place n (i + 1)
  /-- Moves items, the last one first. -/
  down (source target : Value) (first place : Int) : Nat → Proc Unit
    | 0 => pure ()
    | n + 1 => do
      setItem target (place + n) (← item source (first + n))
      down source target first place n

/-! ## Lists of values -/

/-- The arguments as a table, with their number. -/
def tablePack (args : Arguments) : Proc Arguments := do
  let t ← Proc.alter fun h =>
    h.newTable { slots := args.toArray, hint := args.length, room := 1 }
  match t with
  | .table r => Proc.change fun h => h.setText r "n" (.nat args.length)
  | _ => pure ()
  return [t]

/-- The items of a table as a list of values. -/
def tableUnpack (args : Arguments) : Proc Arguments := do
  let first := (← args.intOr 2 1).toInt
  let last := (← if args.isNilAt 3 then lengthOf (args.nth 1) else args.int 3).toInt
  if last < first then return []
  if 1000000 ≤ last - first + 1 then Proc.failWith "too many results to unpack"
  (List.range (last - first + 1).toNat).mapM fun (i : Nat) => item (args.nth 1) (first + (i : Int))

/-- The items of a table from one on as one string. -/
def joinFrom (t : Value) (separator : Bytes) (last : Int) : Nat → Int → Bytes → Proc Bytes
  | 0, _, acc => pure acc
  | fuel + 1, i, acc =>
    if last < i then pure acc
    else do
      match (← item t i).toBytes? with
      | none => Proc.failWith s!"invalid value (at index {i}) in table for 'concat'"
      | some s =>
        joinFrom t separator last fuel (i + 1)
          (if i = last then acc ++ s else acc ++ s ++ separator)

/-- The items of a table as one string. -/
def tableConcat (args : Arguments) : Proc Arguments := do
  let t ← args.tableLike 1 reading
  let length ← lengthOf t
  let separator ← args.stringOr 2 ""
  let first := (← args.intOr 3 1).toInt
  let last := (← args.intOr 4 length).toInt
  return [← Proc.string (← joinFrom t separator last (last - first + 1).toNat first .empty)]

/-! ## Sorting -/

/-- Whether an item comes before another one. -/
def comesBefore (order : Value) (a b : Value) : Proc Bool :=
  match order with
  | .nil => Operators.less a b
  | f => do return (← Proc.callFor f [a, b]).isTruthy

/-- The first position after one whose item does not come before the pivot. -/
def climb (t order pivot : Value) (up : Int) : Nat → Int → Proc (Int × Value)
  | 0, i => do return (i, ← item t i)
  | fuel + 1, i => do
    let i := i + 1
    let v ← item t i
    if ← comesBefore order v pivot then
      if i = up - 1 then Proc.failWith "invalid order function for sorting"
      climb t order pivot up fuel i
    else return (i, v)

/-- The first position before one whose item the pivot does not come before. -/
def descend (t order pivot : Value) (i : Int) : Nat → Int → Proc (Int × Value)
  | 0, j => do return (j, ← item t j)
  | fuel + 1, j => do
    let j := j - 1
    let v ← item t j
    if ← comesBefore order pivot v then
      if j < i then Proc.failWith "invalid order function for sorting"
      descend t order pivot i fuel j
    else return (j, v)

/-- Parts the items between two positions by the pivot, which is the last but one.
Answers the place of the pivot. -/
def part (t order pivot : Value) (up : Int) (size : Nat) : Nat → Int → Int → Proc Int
  | 0, i, _ => pure i
  | fuel + 1, i, j => do
    let (i, a) ← climb t order pivot up size i
    let (j, b) ← descend t order pivot i size j
    if j < i then
      setItem t (up - 1) a
      setItem t i pivot
      return i
    else
      setItem t i b
      setItem t j a
      part t order pivot up size fuel i j

/-- Swaps the items at two positions if the second one comes before the first. -/
def arrange (t order : Value) (i j : Int) : Proc Bool := do
  let a ← item t i
  let b ← item t j
  if ← comesBefore order b a then
    setItem t i b
    setItem t j a
    return true
  else return false

/-- Sorts the items between two positions: first, middle and last are put in order,
the middle one is the pivot, and what lies on its two sides is sorted in turn. -/
def sortBetween (t order : Value) : Nat → Int → Int → Proc Unit
  | 0, _, _ => pure ()
  | fuel + 1, lo, up =>
    if up ≤ lo then pure ()
    else do
      let _ ← arrange t order lo up
      if up - lo = 1 then return
      let p := (lo + up) / 2
      let isSwapped ← arrange t order lo p
      if !isSwapped then
        let _ ← arrange t order p up
      if up - lo = 2 then return
      let pivot ← item t p
      let v ← item t (up - 1)
      setItem t p v
      setItem t (up - 1) pivot
      let size := (up - lo + 2).toNat
      let p ← part t order pivot up size size lo (up - 1)
      if p - lo < up - p then
        sortBetween t order fuel lo (p - 1)
        sortBetween t order fuel (p + 1) up
      else
        sortBetween t order fuel (p + 1) up
        sortBetween t order fuel lo (p - 1)

/-- Sorts the items of a table. -/
def tableSort (args : Arguments) : Proc Arguments := do
  let t ← args.tableLike 1 changing
  let n := (← lengthOf t).toInt
  if 1 < n then
    if 2 ^ 31 - 1 ≤ n then blame 1 "array too big"
    if !args.isNilAt 2 && !Operators.isFunction (args.nth 2) then blameType args 2 "function"
    sortBetween t (args.nth 2) (n.toNat + 1) 1 n
  return []

end Workflow.Script.Library
