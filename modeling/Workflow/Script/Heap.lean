import Std.Data.HashSet
import Workflow.Script.Code
import Workflow.Script.Random
import Workflow.Script.Table

/-!
# The heap

What the references of values point at: tables, functions, the cells of captured
variables, and the failures of the host that a script caught. The heap only grows,
so a reference stays valid and fresh ones need no search.

Memory is accounted for, not managed. Every allocation adds to `used`. When that
passes the limit, `survey` finds out how much of it can still be reached; a script
has run out of memory if that alone is too much, and otherwise the account starts
again from there.
-/

namespace Workflow.Script

/-- A function that is made while a script runs. -/
inductive Closure where
  /-- code with the cells of its captured variables -/
  | script (code : Nat) (upvalues : Array Nat)
  /-- a walk over the matches of a pattern in a string: where it goes on, and where
  the last match ended -/
  | matches (source pattern : Bytes) (position : Nat) (lastEnd : Option Nat)
  deriving Inhabited

/-- The heap. -/
structure Heap where
  /-- the tables -/
  tables : Array Table := #[]
  /-- the functions -/
  closures : Array Closure := #[]
  /-- the cells of captured variables -/
  cells : Array Value := #[]
  /-- the texts of caught failures -/
  failures : Array String := #[]
  /-- the code of all functions -/
  codes : Array Code := #[]
  /-- where random numbers come from -/
  random : RandomState := {}
  /-- how many bytes are accounted for -/
  used : Nat := 0
  /-- how many bytes there may be; zero for any number -/
  limit : Nat := 0
  deriving Inhabited

namespace Heap

/-! ## What is always there -/

/-- The table of globals. -/
def globals : Nat := 0

/-- The table that says how strings behave. -/
def stringBehaviour : Nat := 1

/-- The table that marks other tables as lists. -/
def listMark : Nat := 2

/-! ## Access -/

/-- The table that a reference points at. -/
def table (h : Heap) (r : Nat) : Table := h.tables.getD r default

/-- The value under a key of a table. -/
def get (h : Heap) (r : Nat) (k : TableKey) : Value :=
  if hr : r < h.tables.size then h.tables[r].get k else .nil

/-- The value under any value as a key; what can be no key has none. -/
def getAt (h : Heap) (r : Nat) (k : Value) : Value :=
  match k.toKey? with
  | some k => h.get r k
  | none => .nil

/-- Adds to the account. -/
def charge (h : Heap) (bytes : Nat) : Heap := { h with used := h.used + bytes }

/-- Changes a table and accounts for its growth. -/
def update (h : Heap) (r : Nat) (f : Table → Table) : Heap :=
  let size (h : Heap) : Nat := if hr : r < h.tables.size then h.tables[r].bytes else 0
  let before := size h
  let h := { h with tables := h.tables.modify r f }
  let after := size h
  { h with used := h.used + after - before }

/-- Sets the value under a key of a table. -/
def set (h : Heap) (r : Nat) (k : TableKey) (v : Value) : Heap := h.update r fun t => t.set k v

/-- Sets the value under a string. -/
def setText (h : Heap) (r : Nat) (name : String) (v : Value) : Heap := h.set r (.str name.toUTF8) v

/-- The value of a cell. -/
def cell (h : Heap) (r : Nat) : Value := h.cells.getD r .nil

/-- Sets the value of a cell. -/
def setCell (h : Heap) (r : Nat) (v : Value) : Heap := { h with cells := h.cells.set! r v }

/-! ## Allocation -/

/-- Adds a table. -/
def newTable (h : Heap) (t : Table) : Value × Heap :=
  (.table h.tables.size, { h with tables := h.tables.push t, used := h.used + t.bytes })

/-- Adds a function. -/
def newClosure (h : Heap) (c : Closure) : Value × Heap :=
  (.closure h.closures.size, { h with closures := h.closures.push c, used := h.used + 48 })

/-- Adds a cell. -/
def newCell (h : Heap) (v : Value) : Nat × Heap :=
  (h.cells.size, { h with cells := h.cells.push v, used := h.used + 40 })

/-- Adds a failure. -/
def newFailure (h : Heap) (text : String) : Value × Heap :=
  (.failure h.failures.size, { h with failures := h.failures.push text, used := h.used + 64 })

/-- Accounts for a string. -/
def newString (h : Heap) (s : Bytes) : Value × Heap :=
  (.str s, h.charge (s.size + 25))

/-! ## Behaviour -/

/-- The table that says how a value behaves. -/
def behaviour? (h : Heap) : Value → Option Nat
  | .table r => if hr : r < h.tables.size then h.tables[r].behaviour else none
  | .str _ => some stringBehaviour
  | _ => none

/-- What is done with a value on an event; nil if nothing is said about it. -/
def handler (h : Heap) (v : Value) (event : String) : Value :=
  match h.behaviour? v with
  | some r => h.get r (.str event.toUTF8)
  | none => .nil

/-- The name of the type of a value for messages; tables may bring their own. -/
def typeName (h : Heap) (v : Value) : Bytes :=
  match v with
  | .table _ =>
    match h.handler v "__name" with
    | .str s => s
    | _ => v.typeName.toUTF8
  | _ => v.typeName.toUTF8

/-- The length of a table. Asking changes where the next search starts. -/
def length (h : Heap) (r : Nat) : Nat × Heap :=
  if hr : r < h.tables.size then
    let (n, hint) := h.tables[r].border
    (n, { h with tables := h.tables.modify r fun t => { t with hint := hint } })
  else (0, h)

/-! ## The survey -/

/-- What a survey has met so far. -/
structure Survey where
  /-- which tables -/
  tables : Array Bool
  /-- which functions -/
  closures : Array Bool
  /-- which cells -/
  cells : Array Bool
  /-- which strings -/
  strings : Std.HashSet Bytes := {}
  /-- how many bytes they take -/
  bytes : Nat := 0

/-- Notes a value. Answers the values that can be reached from it, if it is new. -/
def Survey.meet (h : Heap) (s : Survey) : Value → List Value × Survey
  | .str b =>
    if s.strings.contains b then ([], s)
    else ([], { s with strings := s.strings.insert b, bytes := s.bytes + b.size + 25 })
  | .table r =>
    if s.tables.getD r true then ([], s)
    else
      let t := h.table r
      let inside := t.slots.toList ++
        t.entries.toList.flatMap (fun (k, v) => if v.isNil then [] else [k.toValue, v])
      (match t.behaviour with
        | some b => .table b :: inside
        | none => inside, { s with tables := s.tables.set! r true, bytes := s.bytes + t.bytes })
  | .closure r =>
    if s.closures.getD r true then ([], s)
    else
      let s := { s with closures := s.closures.set! r true, bytes := s.bytes + 48 }
      match h.closures.getD r default with
      | .script _ upvalues =>
        upvalues.toList.foldl (fun (found, s) c =>
          if s.cells.getD c true then (found, s)
          else (h.cell c :: found,
            { s with cells := s.cells.set! c true, bytes := s.bytes + 40 })) ([], s)
      | .matches source pattern .. => ([.str source, .str pattern], s)
  | _ => ([], s)

/-- Meets all that can be reached from some values. -/
def Survey.run (h : Heap) : Nat → Survey → List Value → Survey
  | 0, s, _ => s
  | _ + 1, s, [] => s
  | fuel + 1, s, v :: rest =>
    let (inside, s) := s.meet h v
    run h fuel s (inside.foldl (fun rest v =>
      match v with
      | .nil | .bool _ | .int _ | .float _ | .builtin _ | .failure _ => rest
      | v => v :: rest) rest)

/-- How many bytes can be reached from some values. -/
def survey (h : Heap) (roots : List Value) : Nat :=
  let start : Survey :=
    { tables := Array.replicate h.tables.size false
      closures := Array.replicate h.closures.size false
      cells := Array.replicate h.cells.size false }
  (start.run h (2 ^ 40) (.table globals :: .table stringBehaviour :: roots)).bytes

/-- Whether the account has passed the limit. -/
def isOver (h : Heap) : Bool := 0 < h.limit && h.limit < h.used

end Heap

end Workflow.Script
