import Workflow.Script.Operators

/-!
# Arguments

How the functions of the library take their arguments: by number, with a type to
which some values are converted, and perhaps with a default. A wrong argument is a
fault that says which one it is and why.
-/

namespace Workflow.Script

/-- The arguments of a call. -/
abbrev Arguments := List Value

namespace Arguments

/-- The argument with a number, counted from one; nil if there is none. -/
def nth (args : Arguments) (n : Nat) : Value := args.getD (n - 1) .nil

/-- Whether there is no argument with a number. -/
def lacks (args : Arguments) (n : Nat) : Bool := args.length < n

/-- Whether an argument is nil or there is none. -/
def isNilAt (args : Arguments) (n : Nat) : Bool := (args.nth n).isNil

/-- Fails because of an argument. -/
def blame {α : Type} (n : Nat) (reason : String) : Proc α := Proc.fail (.argument n reason.toUTF8)

/-- Fails because an argument has the wrong type. -/
def blameType {α : Type} (args : Arguments) (n : Nat) (wanted : String) : Proc α := fun h =>
  let got := if args.lacks n then "no value".toUTF8 else h.typeName (args.nth n)
  .fail (.argument n (wanted.toUTF8 ++ " expected, got ".toUTF8 ++ got)) h

/-- An argument that may be anything but must be there. -/
def any (args : Arguments) (n : Nat) : Proc Value :=
  if args.lacks n then blame n "value expected" else pure (args.nth n)

/-- An integer, or what is equal to one or writes one. -/
def int (args : Arguments) (n : Nat) : Proc Int64 :=
  match (args.nth n).toNumeral? with
  | some x =>
    match x.toInt? with
    | some i => pure i
    | none => blame n "number has no integer representation"
  | none => blameType args n "number"

/-- What is made of each argument, which has to be an integer, and of its number. -/
def mapInts {α : Type} (args : Arguments) (f : Nat → Int64 → Proc α) : Proc (List α) :=
  (args.zipIdx 1).mapM fun (v, n) => do
    match v.toNumeral?.bind (·.toInt?) with
    | some i => f n i
    | none => f n (← args.int n)

/-- An integer with a default. -/
def intOr (args : Arguments) (n : Nat) (default : Int64) : Proc Int64 :=
  if args.isNilAt n then pure default else args.int n

/-- A number, or what writes one. -/
def number (args : Arguments) (n : Nat) : Proc Numeral :=
  match (args.nth n).toNumeral? with
  | some x => pure x
  | none => blameType args n "number"

/-- A float. -/
def float (args : Arguments) (n : Nat) : Proc Float := do return (← args.number n).toFloat

/-- A string, or a number as it is written. -/
def string (args : Arguments) (n : Nat) : Proc Bytes :=
  match (args.nth n).toBytes? with
  | some s => pure s
  | none => blameType args n "string"

/-- A string with a default. -/
def stringOr (args : Arguments) (n : Nat) (default : String) : Proc Bytes :=
  if args.isNilAt n then pure default.toUTF8 else args.string n

/-- A table. -/
def table (args : Arguments) (n : Nat) : Proc Nat :=
  match args.nth n with
  | .table r => pure r
  | _ => blameType args n "table"

/-- Something that behaves like a table on some events. -/
def tableLike (args : Arguments) (n : Nat) (events : List String) : Proc Value := fun h =>
  let v := args.nth n
  match v with
  | .table _ => .done v h
  | _ =>
    if (h.behaviour? v).isSome && events.all (fun e => !(h.handler v e).isNil) then .done v h
    else blameType args n "table" h

/-- The length of a value as an integer. -/
def lengthOf (v : Value) : Proc Int64 := do
  match ← Operators.length v .unknown with
  | .int i => return i
  | .float x =>
    match Numeral.exactInt? x with
    | some i => return i
    | none => Proc.failWith "object length is not an integer"
  | _ => Proc.failWith "object length is not an integer"

end Arguments

end Workflow.Script
