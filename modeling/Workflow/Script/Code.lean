import Workflow.Script.Value

/-!
# Code

What a script is compiled to: for every function a list of instructions for a
machine with a stack of operands and numbered variables.

* **Variables** are numbered within their function, every declaration anew. A
  variable that an inner function uses lives in a cell, all others in registers;
  both are addressed by the same number.
* **Lists of unknown length** (results of a call, the further arguments) come only
  last in a list of values. An instruction that makes such a list leaves its
  length in the *tail count*, and the instruction after it adds that count to its
  own fixed number of operands.
* **Origins** say how the source got at a value. They serve messages only.
-/

namespace Workflow.Script

/-- How the source got at a value. -/
inductive Origin where
  /-- in a way that has no name -/
  | unknown
  /-- by a global name -/
  | global (name : Bytes)
  /-- by a local variable -/
  | localVar (name : Bytes)
  /-- by a variable of an outer function -/
  | upvalue (name : Bytes)
  /-- by a field of a table -/
  | field (name : Bytes)
  /-- by the method of an object -/
  | method (name : Bytes)
  /-- by writing it out -/
  | constant (text : Bytes)

/-- How messages name an origin: its kind and its name. -/
def Origin.words? : Origin → Option (String × Bytes)
  | unknown => none
  | global n => some ("global", n)
  | localVar n => some ("local", n)
  | upvalue n => some ("upvalue", n)
  | field n => some ("field", n)
  | method n => some ("method", n)
  | constant n => some ("constant", n)

/-- How many results a call is to give. -/
inductive Wanted where
  /-- so many, the rest dropped and the missing nil -/
  | exactly (n : Nat)
  /-- all, with the tail count set -/
  | all

/-- How many operands an instruction takes. -/
inductive Operands where
  /-- so many -/
  | fixed (n : Nat)
  /-- so many and the tail -/
  | withTail (n : Nat)

/-- The binary operators that work on values. -/
inductive BinaryOp where
  | add | sub | mul | div | mod | pow | idiv
  | band | bor | bxor | shl | shr
  deriving DecidableEq, Repr

/-- The comparisons. -/
inductive Relation where
  | eq | ne | lt | le | gt | ge
  deriving DecidableEq, Repr

/-- An instruction. -/
inductive Instr where
  /-- pushes a value -/
  | push (v : Value)
  /-- drops operands -/
  | drop (n : Nat)
  /-- duplicates the last operand -/
  | copy
  /-- pushes a variable -/
  | getVar (id : Nat)
  /-- pops into a variable -/
  | setVar (id : Nat)
  /-- pops into a fresh variable -/
  | declare (id : Nat)
  /-- pushes a variable that lives in a cell -/
  | getCell (id : Nat)
  /-- pops into a variable that lives in a cell -/
  | setCell (id : Nat)
  /-- pops into a fresh cell -/
  | declareCell (id : Nat)
  /-- pushes a variable of an outer function -/
  | getUp (i : Nat)
  /-- pops into a variable of an outer function -/
  | setUp (i : Nat)
  /-- pops an object and pushes its value under a name -/
  | getField (name : Bytes) (object : Origin)
  /-- pops a key and an object and pushes the value -/
  | index (object : Origin)
  /-- pops a value and stores it into the object below it, which stays `depth`
  operands further down -/
  | setField (name : Bytes) (depth : Nat) (object : Origin)
  /-- pops a value and stores it under the key and into the object `depth` operands
  further down -/
  | setIndex (depth : Nat) (object : Origin)
  /-- pops an object and pushes its method and the object -/
  | method (name : Bytes) (object : Origin)
  /-- pushes a new table with room for slots and entries -/
  | newTable (slots entries : Nat)
  /-- pops a value into a field of the table below it -/
  | initField (name : Bytes)
  /-- pops a value and a key into the table below them -/
  | initIndex
  /-- pops values into the table below them, from an index on -/
  | initList (first : Nat) (values : Operands)
  /-- pops two operands and pushes the result -/
  | binary (op : BinaryOp) (left right : Origin)
  /-- pops two operands and pushes whether they compare -/
  | compare (op : Relation)
  /-- pops so many operands and pushes their concatenation -/
  | concat (left right : Origin)
  /-- negates a number -/
  | negate (operand : Origin)
  /-- inverts bits -/
  | invert (operand : Origin)
  /-- inverts a truth value -/
  | not
  /-- takes a length -/
  | length (operand : Origin)
  /-- goes on elsewhere -/
  | jump (target : Nat)
  /-- pops a value and goes elsewhere if it is false -/
  | jumpIfFalse (target : Nat)
  /-- goes elsewhere if the last operand is false, else pops it -/
  | jumpIfFalseElsePop (target : Nat)
  /-- goes elsewhere if the last operand is true, else pops it -/
  | jumpIfTrueElsePop (target : Nat)
  /-- goes elsewhere after closing the variables above a level -/
  | leave (target : Nat) (level : Nat)
  /-- closes the variables above a level -/
  | close (level : Nat)
  /-- has a variable closed when its level is left -/
  | willClose (id : Nat) (level : Nat) (name : Bytes)
  /-- pushes the further arguments -/
  | further (wanted : Wanted)
  /-- pops arguments and a function and calls it while so many names are visible -/
  | call (arguments : Operands) (wanted : Wanted) (function : Origin) (level : Nat)
  /-- pops arguments and a function and calls it in place of this one -/
  | tailCall (arguments : Operands) (function : Origin) (level : Nat)
  /-- returns values -/
  | ret (values : Operands)
  /-- pushes a new function -/
  | closure (code : Nat)
  /-- prepares a loop over numbers: the start, limit and step are on the stack and
  become hidden variables -/
  | forPrepare (base : Nat) (exit : Nat)
  /-- steps a loop over numbers and declares its variable, or leaves -/
  | forStep (base : Nat) (id : Nat) (isCell : Bool) (exit : Nat)
  /-- calls the iterator of a loop; the hidden variables start at `base` -/
  | forCall (base : Nat) (count : Nat)
  /-- ends a loop if the last of `count` operands, its first variable, is nil; else
  keeps it as the control value -/
  | forTest (base : Nat) (count : Nat) (exit : Nat)

/-- Where a function finds a variable of an outer function. -/
inductive Capture where
  /-- in a cell of the enclosing function -/
  | cell (id : Nat)
  /-- among the captured variables of the enclosing function -/
  | upvalue (i : Nat)

/-- The code of a function. -/
structure Code where
  /-- the instructions -/
  instrs : Array Instr := #[]
  /-- the line of each instruction -/
  lines : Array Nat := #[]
  /-- what the source is called in messages -/
  chunk : Bytes := .empty
  /-- how many arguments are variables -/
  parameters : Nat := 0
  /-- which parameters live in cells -/
  cellParameters : List Nat := []
  /-- whether further arguments are kept -/
  isVararg : Bool := false
  /-- how many variables there are -/
  locals : Nat := 0
  /-- whether some of them live in cells -/
  hasCells : Bool := false
  /-- where captured variables come from -/
  captures : List Capture := []
  deriving Inhabited

end Workflow.Script
