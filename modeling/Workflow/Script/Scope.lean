import Workflow.Script.Code
import Workflow.Script.Token

/-!
# Scopes

The compiler's books: for each function under way its code so far, the variables
that are visible, the blocks that are open, the labels seen and the jumps that wait
for theirs.

A variable is found in the innermost function that declares it. Every function
between that one and the one that uses it captures it, and in its own function it
is marked as captured. Whether a variable lives in a cell is known only at the end
of its function; the instructions are then settled by one pass (`settle`).
-/

namespace Workflow.Script

/-! ## Books of one function -/

/-- What a name stands for. -/
inductive Binding where
  /-- a variable -/
  | var (id : Nat)
  /-- a variable that is never assigned again -/
  | readOnly (id : Nat)
  /-- a value known to the compiler -/
  | known (v : Value)

/-- A visible name. -/
structure Visible where
  /-- the name -/
  name : Bytes
  /-- what it stands for -/
  binding : Binding

/-- An open block. -/
structure Block where
  /-- how many names were visible before it -/
  level : Nat
  /-- whether a break leads out of it -/
  isLoop : Bool
  /-- whether leaving it closes variables -/
  closes : Bool := false
  /-- how many labels there were before it -/
  labels : Nat
  /-- how many jumps waited before it -/
  jumps : Nat

/-- A label. -/
structure Label where
  /-- its name -/
  name : Bytes
  /-- its line -/
  line : Nat
  /-- where it leads -/
  target : Nat
  /-- how many names are visible there -/
  level : Nat

/-- A jump that waits for its label. -/
structure Jump where
  /-- the name of the label -/
  name : Bytes
  /-- the line of the jump -/
  line : Nat
  /-- the instruction to complete -/
  place : Nat
  /-- how many names are visible there -/
  level : Nat

/-- A variable of an outer function that this one uses. -/
structure Captured where
  /-- its name -/
  name : Bytes
  /-- whether it is never assigned again -/
  isReadOnly : Bool
  /-- where it is found -/
  source : Capture

/-- The books of a function. -/
structure FunctionBooks where
  /-- the instructions so far -/
  instrs : Array Instr := #[]
  /-- their lines -/
  lines : Array Nat := #[]
  /-- the visible names, the innermost first -/
  visible : List Visible := []
  /-- the open blocks, the innermost first -/
  blocks : List Block := []
  /-- the labels of the open blocks, the latest first -/
  labels : List Label := []
  /-- the jumps that wait, the latest first -/
  jumps : List Jump := []
  /-- the captured variables -/
  captured : Array Captured := #[]
  /-- which variables inner functions use -/
  inCells : Array Bool := #[]
  /-- how many arguments are variables -/
  parameters : Nat := 0
  /-- whether further arguments are kept -/
  isVararg : Bool := false
  deriving Inhabited

namespace FunctionBooks

/-- How many names are visible. -/
def level (f : FunctionBooks) : Nat := f.visible.length

/-- Adds an instruction. -/
def emit (f : FunctionBooks) (line : Nat) (i : Instr) : FunctionBooks :=
  { f with instrs := f.instrs.push i, lines := f.lines.push line }

/-- Changes an instruction. -/
def amend (f : FunctionBooks) (place : Nat) (i : Instr) : FunctionBooks :=
  { f with instrs := f.instrs.set! place i }

/-- Finds a visible name. -/
def find? (f : FunctionBooks) (name : Bytes) : Option Binding :=
  (f.visible.find? fun v => v.name = name).map (·.binding)

/-- Finds a captured variable. -/
def findCaptured? (f : FunctionBooks) (name : Bytes) : Option Nat :=
  f.captured.findIdx? fun c => c.name = name

/-- Notes that inner functions use a variable. -/
def markCell (f : FunctionBooks) (id : Nat) : FunctionBooks :=
  { f with inCells := f.inCells.set! id true }

/-- Adds a captured variable. -/
def capture (f : FunctionBooks) (c : Captured) : Nat × FunctionBooks :=
  (f.captured.size, { f with captured := f.captured.push c })

/-- Notes that the innermost block, or the one a name was declared in, closes. -/
def markCloses (f : FunctionBooks) : FunctionBooks :=
  match f.blocks with
  | [] => f
  | b :: rest => { f with blocks := { b with closes := true } :: rest }

/-- An instruction as it is once it is known which variables live in cells. -/
def settleInstr (inCells : Array Bool) : Instr → Instr
  | .getVar id => if inCells.getD id false then .getCell id else .getVar id
  | .setVar id => if inCells.getD id false then .setCell id else .setVar id
  | .declare id => if inCells.getD id false then .declareCell id else .declare id
  | .forStep base id _ exit => .forStep base id (inCells.getD id false) exit
  | i => i

/-- The finished code of a function. -/
def settle (f : FunctionBooks) (chunk : Bytes) : Code where
  instrs := f.instrs.map (settleInstr f.inCells)
  lines := f.lines
  chunk := chunk
  parameters := f.parameters
  cellParameters := (List.range f.parameters).filter fun id => f.inCells.getD id false
  isVararg := f.isVararg
  locals := f.inCells.size
  hasCells := f.inCells.any id
  captures := f.captured.toList.map (·.source)

end FunctionBooks

/-! ## Finding a name through the functions -/

/-- What a name means in a function. -/
inductive Resolved where
  /-- a variable of the function -/
  | var (id : Nat) (isReadOnly : Bool)
  /-- a variable of an outer function -/
  | upvalue (i : Nat) (isReadOnly : Bool)
  /-- a value known to the compiler -/
  | known (v : Value)

/-- Resolves a name in the first of a stack of functions, the innermost first.
Answers the stack with its captures noted. -/
def resolve (name : Bytes) : List FunctionBooks → Option (Resolved × List FunctionBooks)
  | [] => none
  | f :: outer =>
    match f.find? name with
    | some (.var id) => some (.var id false, f :: outer)
    | some (.readOnly id) => some (.var id true, f :: outer)
    | some (.known v) => some (.known v, f :: outer)
    | none =>
      match f.findCaptured? name with
      | some i => some (.upvalue i ((f.captured[i]?.map (·.isReadOnly)).getD false), f :: outer)
      | none =>
        match resolve name outer with
        | none => none
        | some (.known v, outer) => some (.known v, f :: outer)
        | some (.var id isReadOnly, g :: rest) =>
          let (i, f) := f.capture ⟨name, isReadOnly, .cell id⟩
          some (.upvalue i isReadOnly, f :: g.markCell id :: rest)
        | some (.upvalue j isReadOnly, outer) =>
          let (i, f) := f.capture ⟨name, isReadOnly, .upvalue j⟩
          some (.upvalue i isReadOnly, f :: outer)
        | some (.var _ _, []) => none

end Workflow.Script
