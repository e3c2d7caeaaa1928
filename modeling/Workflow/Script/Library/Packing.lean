import Workflow.Script.Library.Strings

/-!
# Packed values

Values laid out in bytes as a format says: integers of some size, floats, and
strings with their length in front or a zero behind. A format is read option by
option; each option has a size and perhaps an alignment.
-/

namespace Workflow.Script.Library

open Arguments

/-! ## Options -/

/-- How a value is laid out. -/
inductive PackKind where
  /-- an integer with a sign -/
  | int
  /-- an integer without a sign -/
  | uint
  /-- a float of four bytes -/
  | single
  /-- a float of eight bytes -/
  | double
  /-- a string of a fixed size -/
  | chars
  /-- a string after its length -/
  | counted
  /-- a string before a zero -/
  | zeroEnded
  /-- a byte of padding -/
  | padding
  /-- only an alignment -/
  | alignment
  /-- no value -/
  | nothing
  deriving DecidableEq

/-- The state of reading a format. -/
structure PackState where
  /-- what is left of the format -/
  rest : List UInt8
  /-- whether the least byte comes first -/
  isLittle : Bool := true
  /-- the greatest alignment -/
  maxAlign : Nat := 1

/-- The start of a format; a zero byte ends it. -/
def PackState.ofFormat (format : Bytes) : PackState :=
  { rest := (Bytes.bytes format).takeWhile (· ≠ 0) }

/-- An option with its size and the padding before it. -/
structure PackOption where
  /-- how the value is laid out -/
  kind : PackKind
  /-- its size -/
  size : Nat
  /-- how many bytes of padding come before it -/
  padding : Nat := 0

/-- Reads digits behind a number, as long as the number stays below `2^31` whatever digit
comes next. -/
def packDigits : Nat → List UInt8 → Nat × List UInt8
  | n, c :: rest =>
    if Byte.isDigit c && n ≤ (2 ^ 31 - 10) / 10 then packDigits (n * 10 + (c.toNat - 0x30)) rest
    else (n, c :: rest)
  | n, [] => (n, [])

/-- The number that a format goes on with. -/
def packNumber? (cs : List UInt8) : Option Nat × List UInt8 :=
  match cs with
  | c :: _ =>
    if Byte.isDigit c then
      let (n, rest) := packDigits 0 cs
      (some n, rest)
    else (none, cs)
  | [] => (none, [])

/-- The size of an integer that a format goes on with. -/
def packSize (cs : List UInt8) (default : Nat) : Except String (Nat × List UInt8) :=
  match packNumber? cs with
  | (none, rest) => .ok (default, rest)
  | (some n, rest) =>
    if n = 0 || 16 < n then .error s!"integral size ({n}) out of limits [1,16]" else .ok (n, rest)

/-- Reads an option without its padding. -/
def packOption (s : PackState) : Except String (PackKind × Nat × PackState) :=
  match s.rest with
  | [] => .ok (.nothing, 0, s)
  | c :: rest =>
    let s := { s with rest := rest }
    match Char.ofNat c.toNat with
    | 'b' => .ok (.int, 1, s)
    | 'B' => .ok (.uint, 1, s)
    | 'h' => .ok (.int, 2, s)
    | 'H' => .ok (.uint, 2, s)
    | 'l' | 'j' => .ok (.int, 8, s)
    | 'L' | 'J' | 'T' => .ok (.uint, 8, s)
    | 'f' => .ok (.single, 4, s)
    | 'd' | 'n' => .ok (.double, 8, s)
    | 'i' => do
      let (n, rest) ← packSize rest 4
      return (.int, n, { s with rest := rest })
    | 'I' => do
      let (n, rest) ← packSize rest 4
      return (.uint, n, { s with rest := rest })
    | 's' => do
      let (n, rest) ← packSize rest 8
      return (.counted, n, { s with rest := rest })
    | 'c' =>
      match packNumber? rest with
      | (some n, rest) => .ok (.chars, n, { s with rest := rest })
      | (none, _) => .error "missing size for format option 'c'"
    | 'z' => .ok (.zeroEnded, 0, s)
    | 'x' => .ok (.padding, 1, s)
    | 'X' => .ok (.alignment, 0, s)
    | ' ' => .ok (.nothing, 0, s)
    | '<' | '=' => .ok (.nothing, 0, { s with isLittle := true })
    | '>' => .ok (.nothing, 0, { s with isLittle := false })
    | '!' => do
      let (n, rest) ← packSize rest 8
      return (.nothing, 0, { s with rest := rest, maxAlign := n })
    | _ => .error ("invalid format option '" ++ FieldLayout.text [c] ++ "'")

/-- Fails because of the format itself. -/
def orFailFormat {α : Type} : Except String α → Proc α
  | .ok a => pure a
  | .error m => Proc.failWith m

/-- Reads an option after so many bytes. -/
def nextPackOption (s : PackState) (total : Nat) : Proc (PackOption × PackState) := do
  let (kind, size, s) ← orFailFormat (packOption s)
  let (align, s) ← if kind = .alignment then do
      if s.rest.isEmpty then blame 1 "invalid next option for option 'X'"
      let (next, n, s) ← orFailFormat (packOption s)
      if next = .chars || n = 0 then blame 1 "invalid next option for option 'X'"
      pure (n, s)
    else pure (size, s)
  if align ≤ 1 || kind = .chars then return (⟨kind, size, 0⟩, s)
  let align := min align s.maxAlign
  if align.nextPowerOfTwo ≠ align then blame 1 "format asks for alignment not power of 2"
  return (⟨kind, size, (align - total % align) % align⟩, s)

/-! ## Integers in bytes -/

/-- The lowest bytes of an integer, which goes on with its sign. -/
def packInt (isLittle : Bool) (size : Nat) (n : Int) : Bytes :=
  let m := (n % 256 ^ size).toNat
  let bytes := (List.range size).map fun i => UInt8.ofNat (m / 256 ^ i)
  Bytes.ofList (if isLittle then bytes else bytes.reverse)

/-- The number that bytes write. -/
def unpackNat (isLittle : Bool) (b : Bytes) : Nat :=
  (if isLittle then (Bytes.bytes b).reverse else Bytes.bytes b).foldl
    (fun n c => n * 256 + c.toNat) 0

/-- The integer that bytes write, if it fits. -/
def unpackInt? (isLittle hasSign : Bool) (b : Bytes) : Option Int64 :=
  let n := unpackNat isLittle b
  let bits := 8 * b.size
  let i : Int := if hasSign && 2 ^ (bits - 1) ≤ n then (n : Int) - 2 ^ bits else n
  if b.size ≤ 8 then some (Int64.ofInt i)
  else if hasSign then Numeral.int64? i
  else if n < 2 ^ 64 then some (Int64.ofInt i) else none

/-! ## Packing -/

/-- The bytes of an argument. -/
def packValue (o : PackOption) (isLittle : Bool) (args : Arguments) (n : Nat) : Proc Bytes := do
  match o.kind with
  | .int =>
    let i := (← args.int n).toInt
    if o.size < 8 && (i < -(2 ^ (8 * o.size - 1) : Int) || (2 ^ (8 * o.size - 1) : Int) ≤ i) then
      blame n "integer overflow"
    return packInt isLittle o.size i
  | .uint =>
    let i := (← args.int n).toInt
    if o.size < 8 && (i < 0 || (2 ^ (8 * o.size) : Int) ≤ i) then blame n "unsigned overflow"
    return packInt isLittle o.size (if i < 0 then i + 2 ^ 64 else i)
  | .single => return packInt isLittle 4 (← args.float n).toFloat32.toBits.toNat
  | .double => return packInt isLittle 8 (← args.float n).toBits.toNat
  | .chars =>
    let s ← args.string n
    if o.size < s.size then blame n "string longer than given size"
    return s ++ Bytes.ofList (List.replicate (o.size - s.size) 0)
  | .counted =>
    let s ← args.string n
    if o.size < 8 && 256 ^ o.size ≤ s.size then
      blame n "string length does not fit in given size"
    return packInt isLittle o.size s.size ++ s
  | .zeroEnded =>
    let s ← args.string n
    if s.data.contains 0 then blame n "string contains zeros"
    return s.push 0
  | .padding => return Bytes.single 0
  | .alignment | .nothing => return .empty

/-- Whether an option takes a value. -/
def PackKind.takesValue : PackKind → Bool
  | padding | alignment | nothing => false
  | _ => true

/-- Packs arguments by what is left of a format. -/
def packFrom (args : Arguments) : Nat → Nat → PackState → Bytes → Proc Bytes
  | 0, _, _, acc => pure acc
  | fuel + 1, n, s, acc =>
    if s.rest.isEmpty then pure acc
    else do
      let (o, s) ← nextPackOption s acc.size
      let acc := acc ++ Bytes.ofList (List.replicate o.padding 0)
      let b ← packValue o s.isLittle args n
      packFrom args fuel (if o.kind.takesValue then n + 1 else n) s (acc ++ b)

/-- Packs arguments by a format. -/
def stringPack (args : Arguments) : Proc Arguments := do
  let format ← args.string 1
  oneString (← packFrom args (format.size + 1) 2 (PackState.ofFormat format) .empty)

/-- The size of what a format lays out, after so many bytes. -/
def packedSize : Nat → PackState → Nat → Proc Nat
  | 0, _, total => pure total
  | fuel + 1, s, total =>
    if s.rest.isEmpty then pure total
    else do
      let (o, s) ← nextPackOption s total
      if o.kind = .counted || o.kind = .zeroEnded then blame 1 "variable-length format"
      if 2 ^ 31 ≤ total + o.padding + o.size then blame 1 "format result too large"
      packedSize fuel s (total + o.padding + o.size)

/-- The size of what a format lays out. -/
def stringPacksize (args : Arguments) : Proc Arguments := do
  let format ← args.string 1
  return [.nat (← packedSize (format.size + 1) (PackState.ofFormat format) 0)]

/-! ## Unpacking -/

/-- The value at a position and the position after it. -/
def unpackValue (o : PackOption) (isLittle : Bool) (data : Bytes) (i : Nat) :
    Proc (Value × Nat) := do
  let piece := data.extract i (i + o.size)
  match o.kind with
  | .int | .uint =>
    match unpackInt? isLittle (o.kind = .int) piece with
    | some n => return (.int n, i + o.size)
    | none => Proc.failWith s!"{o.size}-byte integer does not fit into Lua Integer"
  | .single =>
    return (.float (Float32.ofBits (UInt32.ofNat (unpackNat isLittle piece))).toFloat, i + o.size)
  | .double => return (.float (Float.ofBits (UInt64.ofNat (unpackNat isLittle piece))), i + o.size)
  | .chars => return (.str piece, i + o.size)
  | .counted =>
    if (unpackInt? isLittle false piece).isNone then
      Proc.failWith s!"{o.size}-byte integer does not fit into Lua Integer"
    let n := unpackNat isLittle piece
    if data.size < i + o.size + n then blame 2 "data string too short"
    return (.str (data.extract (i + o.size) (i + o.size + n)), i + o.size + n)
  | .zeroEnded =>
    match data.find? (Bytes.single 0) (data.size + 1) i with
    | some j => return (.str (data.extract i j), j + 1)
    | none => blame 2 "unfinished string for format 'z'"
  | .padding | .alignment | .nothing => return (.nil, i + o.size)

/-- Unpacks values by what is left of a format. -/
def unpackFrom (data : Bytes) : Nat → PackState → Nat → Proc Arguments
  | 0, _, i => pure [.nat (i + 1)]
  | fuel + 1, s, i =>
    if s.rest.isEmpty then pure [.nat (i + 1)]
    else do
      let (o, s) ← nextPackOption s i
      if data.size < i + o.padding + o.size then blame 2 "data string too short"
      let (v, j) ← unpackValue o s.isLittle data (i + o.padding)
      let rest ← unpackFrom data fuel s j
      return if o.kind.takesValue then v :: rest else rest

/-- Unpacks values by a format. -/
def stringUnpack (args : Arguments) : Proc Arguments := do
  let format ← args.string 1
  let data ← args.string 2
  let i := startPosition (← args.intOr 3 1) data.size - 1
  if data.size < i then blame 3 "initial position out of string"
  unpackFrom data (format.size + 1) (PackState.ofFormat format) i

end Workflow.Script.Library
