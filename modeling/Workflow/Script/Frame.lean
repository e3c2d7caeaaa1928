import Workflow.Script.Library

/-!
# Frames

The activation of a function of a script: where it is in its code, its variables,
and the stack of its operands. Everything here stays within one frame; what needs
other functions is the machine's.
-/

namespace Workflow.Script

/-- The activation of a function. -/
structure Frame where
  /-- the code -/
  code : Code
  /-- the next instruction -/
  pc : Nat := 0
  /-- the variables in registers -/
  vars : Array Value
  /-- the cells of the variables that live in cells -/
  cells : Array Nat
  /-- the cells of captured variables -/
  upvalues : Array Nat
  /-- the further arguments -/
  further : Arguments := []
  /-- the operands, the last one at the end -/
  stack : Array Value := #[]
  /-- how long the list of values on top is, where an instruction made one -/
  tail : Nat := 0
  /-- the values to close, with the level that they close at, the latest first -/
  closings : List (Nat × Value) := []
  deriving Inhabited

namespace Frame

/-! ## Operands -/

/-- Pushes an operand. -/
def push (f : Frame) (v : Value) : Frame := { f with stack := f.stack.push v }

/-- Pushes operands. -/
def pushAll (f : Frame) (vs : List Value) : Frame :=
  { f with stack := vs.foldl Array.push f.stack }

/-- The operand with so many others above it. -/
def peek (f : Frame) (depth : Nat) : Value := f.stack.getD (f.stack.size - 1 - depth) .nil

/-- Drops operands. -/
def drop (f : Frame) (n : Nat) : Frame := { f with stack := f.stack.shrink (f.stack.size - n) }

/-- The last operand, taken off. -/
def pop (f : Frame) : Value × Frame :=
  let v := f.peek 0
  (v, { f with stack := f.stack.pop })

/-- How many operands an instruction takes. -/
def count (f : Frame) : Operands → Nat
  | .fixed n => n
  | .withTail n => n + f.tail

/-- The last operands in order, taken off. -/
def popMany (f : Frame) (n : Nat) : List Value × Frame :=
  ((f.stack.extract (f.stack.size - n) f.stack.size).toList, f.drop n)

/-- A list with so many values, the missing ones nil. -/
def padded : Nat → List Value → List Value
  | 0, _ => []
  | n + 1, [] => .nil :: padded n []
  | n + 1, v :: rest => v :: padded n rest

/-- Takes the results of a call. -/
def receive (f : Frame) (wanted : Wanted) (vs : List Value) : Frame :=
  match wanted with
  | .exactly 0 => f
  | .exactly 1 => f.push (vs.headD .nil)
  | .exactly n => f.pushAll (padded n vs)
  | .all => { f.pushAll vs with tail := vs.length }

/-! ## Variables and jumps -/

/-- A variable. -/
def var (f : Frame) (id : Nat) : Value := f.vars.getD id .nil

/-- Sets a variable. -/
def setVar (f : Frame) (id : Nat) (v : Value) : Frame := { f with vars := f.vars.set! id v }

/-- Goes on elsewhere. -/
def jump (f : Frame) (target : Nat) : Frame := { f with pc := target }

/-- Puts a variable into a new cell. -/
def declareCell (f : Frame) (id : Nat) (v : Value) (h : Heap) : Frame × Heap :=
  let (c, h) := h.newCell v
  ({ f with cells := f.cells.set! id c }, h)

/-- The line of the instruction that is carried out. -/
def line (f : Frame) : Nat := f.code.lines.getD (f.pc - 1) 0

/-- Where a frame is, for messages. -/
def position (f : Frame) : Bytes :=
  f.code.chunk ++ (":" ++ toString f.line ++ ": ").toUTF8

/-- The frame of a call. -/
def enter (code : Code) (upvalues : Array Nat) (args : Arguments) (h : Heap) : Frame × Heap :=
  let given := padded code.parameters args
  let vars := given.toArray ++ Array.replicate (code.locals - code.parameters) Value.nil
  let frame : Frame :=
    { code := code, vars := vars, upvalues := upvalues
      cells := if code.hasCells then Array.replicate code.locals 0 else #[]
      further := if code.isVararg then args.drop code.parameters else [] }
  code.cellParameters.foldl (fun (f, h) id => f.declareCell id (f.var id) h) (frame, h)

/-- All values that a frame holds. -/
def values (f : Frame) (h : Heap) : List Value :=
  f.vars.toList ++ f.stack.toList ++ f.further ++ f.cells.toList.map h.cell ++
    f.upvalues.toList.map h.cell ++ f.closings.map Prod.snd

/-! ## Loops over numbers -/

/-- The limit of a loop over integers: nothing if the loop does not run. -/
def intLimit (first step : Int64) (limit : Value) : Option (Option Int64) :=
  match limit.toNumeral? with
  | none => none
  | some n =>
    let bound : Option Int := match n with
      | .int i => some i.toInt
      | .float x =>
        if x.isNaN then (if 0 < step then none else some (-(2 ^ 63)))
        else if x.isInf then some (if x < 0.0 then -(2 ^ 63) - 1 else 2 ^ 63)
        else some (Numeral.truncated (if step < 0 then x.ceil else x.floor))
    some <| bound.bind fun b =>
      if 2 ^ 63 ≤ b && step < 0 then none
      else if b < -(2 ^ 63) && 0 < step then none
      else
        let b := Int64.ofInt (max (min b (2 ^ 63 - 1)) (-(2 ^ 63)))
        if (if 0 < step then first ≤ b else b ≤ first) then some b else none

/-- Prepares a loop over numbers: the first value, the bound and the step, or nothing
if the loop does not run, or the reason why it cannot. In a loop over integers the
bound is the last value that the variable takes. -/
def prepareLoop (h : Heap) (first limit step : Value) :
    Except Bytes (Option (Value × Value × Value)) :=
  let refuse {α : Type} (what : String) (v : Value) : Except Bytes α :=
    .error (("bad 'for' " ++ what ++ " (number expected, got ").toUTF8 ++ h.typeName v ++ ")".toUTF8)
  match first, step with
  | .int i, .int s =>
    if s = 0 then .error "'for' step is zero".toUTF8
    else
      match intLimit i s limit with
      | none => refuse "limit" limit
      | some none => .ok none
      | some (some b) =>
        let steps := Int.tdiv (b.toInt - i.toInt) s.toInt
        .ok (some (first, .int (Int64.ofInt (i.toInt + steps * s.toInt)), step))
  | _, _ =>
    match limit.toNumeral?, step.toNumeral?, first.toNumeral? with
    | none, _, _ => refuse "limit" limit
    | _, none, _ => refuse "step" step
    | _, _, none => refuse "initial value" first
    | some l, some s, some i =>
      let l := l.toFloat
      let s := s.toFloat
      let i := i.toFloat
      if s == 0.0 then .error "'for' step is zero".toUTF8
      else if (if 0.0 < s then l < i else i < l) then .ok none
      else .ok (some (.float i, .float l, .float s))

/-- The value after one in a loop over numbers; nil after the last. -/
def nextInLoop (v bound step : Value) : Value :=
  match v, bound, step with
  | .int i, .int b, .int s => if i = b then .nil else .int (i + s)
  | .float x, .float l, .float s =>
    let y := x + s
    if (if 0.0 < s then y ≤ l else l ≤ y) then .float y else .nil
  | _, _, _ => .nil

end Frame

end Workflow.Script
