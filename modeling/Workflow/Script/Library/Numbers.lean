import Workflow.Script.Library.Arguments

/-!
# Mathematical functions

The functions that are found in `math`. Those that make sense for integers stay
among them; the others are done in floats.

Random numbers come from a generator of four words, and the heap keeps its state.
-/

namespace Workflow.Script.Library

open Arguments

/-! ## Rounding and kinds -/

/-- A function of floats. -/
def ofFloats (f : Float → Float) (args : Arguments) : Proc Arguments := do
  return [.float (f (← args.float 1))]

/-- The magnitude of a number. -/
def mathAbs (args : Arguments) : Proc Arguments := do
  match args.nth 1 with
  | .int i => return [.int (if i < 0 then -i else i)]
  | _ => return [.float (← args.float 1).abs]

/-- A number rounded down. -/
def mathFloor (args : Arguments) : Proc Arguments := do
  match ← args.number 1 with
  | .int i => return [.int i]
  | .float x => return [.ofNumeral (Numeral.floorOf x)]

/-- A number rounded up. -/
def mathCeil (args : Arguments) : Proc Arguments := do
  match ← args.number 1 with
  | .int i => return [.int i]
  | .float x => return [.ofNumeral (Numeral.ceilOf x)]

/-- The remainder of a division that rounds toward zero. -/
def mathFmod (args : Arguments) : Proc Arguments := do
  match args.nth 1, args.nth 2 with
  | .int i, .int j =>
    if j = 0 then blame 2 "zero" else return [.int (Int64.ofInt (Int.tmod i.toInt j.toInt))]
  | _, _ =>
    let x ← args.float 1
    return [.float (Numeral.remainder x (← args.float 2))]

/-- The integral and the fractional part of a number. -/
def mathModf (args : Arguments) : Proc Arguments := do
  match args.nth 1 with
  | .int i => return [.int i, .float 0.0]
  | _ =>
    let x ← args.float 1
    let whole := if x < 0.0 then x.ceil else x.floor
    return [.float whole, .float (if x == whole then 0.0 else x - whole)]

/-- The integer that a value is equal to. -/
def mathTointeger (args : Arguments) : Proc Arguments := do
  match (← args.any 1).toInt? with
  | some i => return [.int i]
  | none => return [.nil]

/-- The kind of a number. -/
def mathType (args : Arguments) : Proc Arguments := do
  match ← args.any 1 with
  | .int _ => return [.text "integer"]
  | .float _ => return [.text "float"]
  | _ => return [.nil]

/-- Whether an integer is below another one, both without sign. -/
def mathUlt (args : Arguments) : Proc Arguments := do
  let a ← args.int 1
  let b ← args.int 2
  return [.bool (a.toUInt64 < b.toUInt64)]

/-! ## Order -/

/-- The argument that is best by a comparison, the first of several. -/
def best (isBetter : Value → Value → Proc Bool) : Arguments → Proc Arguments
  | [] => blame 1 "value expected"
  | first :: rest => do
    return [← rest.foldlM (fun a b => do return if ← isBetter b a then b else a) first]

/-- The least argument. -/
def mathMin : Arguments → Proc Arguments := best Operators.less

/-- The greatest argument. -/
def mathMax : Arguments → Proc Arguments := best fun a b => Operators.less b a

/-! ## Functions of floats -/

/-- Half a turn in radians. -/
def pi : Float := 3.141592653589793

/-- A logarithm, to the base of the second argument if there is one. -/
def mathLog (args : Arguments) : Proc Arguments := do
  let x ← args.float 1
  if args.isNilAt 2 then return [.float x.log]
  let base ← args.float 2
  return [.float (if base == 2.0 then x.log2 else if base == 10.0 then x.log10
    else x.log / base.log)]

/-- The angle of a point, or of a slope. -/
def mathAtan (args : Arguments) : Proc Arguments := do
  let y ← args.float 1
  let x ← if args.isNilAt 2 then pure 1.0 else args.float 2
  return [.float (Float.atan2 y x)]

/-! ## Random numbers -/

/-- The next word of the heap's generator. -/
def nextWord : Proc UInt64 := Proc.alter fun h =>
  let (w, s) := h.random.next
  (w, { h with random := s })

/-- The least number of the form `2ⁿ - 1` that is not below another one. -/
def mask (n : UInt64) : UInt64 :=
  ([1, 2, 4, 8, 16, 32] : List UInt64).foldl (fun m s => m ||| (m >>> s)) n

/-- A word that is at most a limit, drawn again while it is not. -/
def project (limit : UInt64) : Nat → UInt64 → Proc UInt64
  | 0, _ => pure 0
  | fuel + 1, w => do
    let w := w &&& mask limit
    if w ≤ limit then return w else project limit fuel (← nextWord)

/-- A random number. -/
def mathRandom (args : Arguments) : Proc Arguments := do
  let w ← nextWord
  match args.length with
  | 0 => return [.float ((Float.ofNat (w >>> 11).toNat).scaleB (-53))]
  | 1 =>
    let high ← args.int 1
    if high = 0 then return [.int w.toInt64] else between 1 1 high w
  | 2 => between 2 (← args.int 1) (← args.int 2) w
  | _ => Proc.failWith "wrong number of arguments"
where
  /-- A random integer between two others. -/
  between (n : Nat) (low high : Int64) (w : UInt64) : Proc Arguments := do
    if high < low then blame n "interval is empty"
    let offset ← project (high.toUInt64 - low.toUInt64) 4096 w
    return [.int (offset + low.toUInt64).toInt64]

/-- Starts the generator anew. -/
def mathRandomseed (args : Arguments) : Proc Arguments := do
  if args.isEmpty then return []
  let a ← match ← args.number 1 with
    | .int i => pure i
    | .float x => pure ((Numeral.exactInt? x).getD x.toBits.toInt64)
  let b ← args.intOr 2 0
  Proc.change fun h => { h with random := RandomState.ofSeed a.toUInt64 b.toUInt64 }
  return [.int a, .int b]

end Workflow.Script.Library
