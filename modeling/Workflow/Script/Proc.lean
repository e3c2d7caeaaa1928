import Workflow.Script.Heap
import Workflow.Script.Request

/-!
# Procedures

The functions that scripts start with, and the operators where a program has a say
in them, are procedures. A procedure computes on the heap until it is done or
fails, or until it needs what only the machine can do: to call a function, to call
one such that its faults are caught, or to ask the host. It then stops and says how
it will go on.

So a procedure is plain data, `Step`, over and over: nothing in it runs a script,
and the machine that does needs no knowledge of what procedures are for.
-/

namespace Workflow.Script

/-! ## Faults -/

/-- Why a procedure fails. -/
inductive Fault where
  /-- with a value -/
  | value (v : Value)
  /-- with a value; a string is told the position of the function at a level: zero is
  the one that runs, one the one that called it, and so on -/
  | placed (level : Nat) (v : Value)
  /-- with a reason why an argument is wrong -/
  | argument (n : Nat) (reason : Bytes)
  /-- as the host did -/
  | host (text : String)
  /-- for want of memory -/
  | memory

namespace Fault

/-- A failure with a message that tells the position of the caller. -/
def message (m : String) : Fault := .placed 1 (.text m)

/-- A failure of an operator, which tells the position of the code that uses it. -/
def operation (m : Bytes) : Fault := .placed 0 (.str m)

end Fault

/-! ## Steps -/

/-- A procedure that has run up to a point where it stops. -/
inductive Step (α : Type) where
  /-- it is done -/
  | done (a : α) (h : Heap)
  /-- it fails -/
  | fail (e : Fault) (h : Heap)
  /-- it calls a function -/
  | call (f : Value) (args : List Value) (h : Heap) (k : List Value → Heap → Step α)
  /-- it calls a function and wants to know if that fails, and with what value; if
  there is a handler, what that makes of it -/
  | protect (f : Value) (args : List Value) (handler : Option Value) (h : Heap)
      (k : Except Value (List Value) → Heap → Step α)
  /-- it asks the host -/
  | ask (r : Request) (h : Heap) (k : r.Answer → Heap → Step α)

/-- Goes on with the result. -/
def Step.bind {α β : Type} : Step α → (α → Heap → Step β) → Step β
  | .done a h, g => g a h
  | .fail e h, _ => .fail e h
  | .call f args h k, g => .call f args h fun vs h => (k vs h).bind g
  | .protect f args handler h k, g => .protect f args handler h fun r h => (k r h).bind g
  | .ask r h k, g => .ask r h fun a h => (k a h).bind g

/-- A procedure. -/
def Proc (α : Type) : Type := Heap → Step α

namespace Proc

instance : Monad Proc where
  pure a := fun h => .done a h
  bind p g := fun h => (p h).bind g

/-- Fails. -/
def fail {α : Type} (e : Fault) : Proc α := fun h => .fail e h

/-- Fails with a message that tells the position of the caller. -/
def failWith {α : Type} (m : String) : Proc α := fail (.message m)

/-- Looks at the heap. -/
def look {α : Type} (f : Heap → α) : Proc α := fun h => let a := f h; .done a h

/-- Changes the heap. -/
def change (f : Heap → Heap) : Proc Unit := fun h => .done () (f h)

/-- Changes the heap and answers something about it. -/
def alter {α : Type} (f : Heap → α × Heap) : Proc α := fun h => let (a, h) := f h; .done a h

/-- Calls a function. -/
def call (f : Value) (args : List Value) : Proc (List Value) := fun h =>
  .call f args h fun vs h => .done vs h

/-- Calls a function for its first result. -/
def callFor (f : Value) (args : List Value) : Proc Value := fun h =>
  .call f args h fun vs h => .done (vs.headD .nil) h

/-- Calls a function and catches its faults. -/
def protect (f : Value) (args : List Value) (handler : Option Value) :
    Proc (Except Value (List Value)) := fun h =>
  .protect f args handler h fun r h => .done r h

/-- Asks the host. -/
def ask (r : Request) : Proc r.Answer := fun h => .ask r h fun a h => .done a h

/-- Makes sure that so many bytes could be had at all. -/
def reserve (bytes : Nat) : Proc Unit := fun h =>
  if 0 < h.limit && h.limit < bytes then .fail .memory h else .done () h

/-- A string as a result, accounted for. -/
def string (s : Bytes) : Proc Value := alter fun h => h.newString s

end Proc

end Workflow.Script
