import Workflow.Decimal.Reading
import Workflow.Decimal.Rounded
import Workflow.Script.Bytes

/-!
# Numbers of scripts

A number is an integer of 64 bits or a float, and the two kinds mix: an operation
on integers stays among them and wraps, one that meets a float is done in floats,
and division and powers always are. Integers and floats compare by exact value.

Text is read as a number by one grammar for sources, conversions and arithmetic
on strings: decimal or hexadecimal, with blanks around it.
-/

namespace Workflow.Script

/-- A number. -/
inductive Numeral where
  /-- an integer, which wraps -/
  | int (i : Int64)
  /-- a float -/
  | float (x : Float)

namespace Numeral

/-! ## Conversions -/

/-- The float nearest to a number. -/
def toFloat : Numeral → Float
  | int i => i.toFloat
  | float x => x

/-- The integral part of a finite float. -/
def truncated (x : Float) : Int :=
  let b := Decimal.Binary.ofFloat x
  let magnitude : Nat :=
    if 0 ≤ b.exp then b.mant * 2 ^ b.exp.toNat else b.mant / 2 ^ (-b.exp).toNat
  if Decimal.isNegative x then -(magnitude : Int) else magnitude

/-- Whether a float is a whole number. -/
def isWhole (x : Float) : Bool := x.isFinite && x.floor == x

/-- An integer, if it is in range. -/
def int64? (i : Int) : Option Int64 :=
  if -(2 ^ 63 : Int) ≤ i ∧ i < 2 ^ 63 then some (Int64.ofInt i) else none

/-- The integer that a float is equal to. -/
def exactInt? (x : Float) : Option Int64 := if isWhole x then int64? (truncated x) else none

/-- The integer that a number is equal to. -/
def toInt? : Numeral → Option Int64
  | int i => some i
  | float x => exactInt? x

/-- A float rounded down, as an integer where it fits. -/
def floorOf (x : Float) : Numeral :=
  if x.isFinite then
    match int64? (truncated x.floor) with
    | some i => int i
    | none => float x.floor
  else float x

/-- A float rounded up, as an integer where it fits. -/
def ceilOf (x : Float) : Numeral :=
  if x.isFinite then
    match int64? (truncated x.ceil) with
    | some i => int i
    | none => float x.ceil
  else float x

/-! ## Comparison -/

/-- Whether two numbers are equal. -/
def eq : Numeral → Numeral → Bool
  | int i, int j => i = j
  | float x, float y => x == y
  | int i, float y => exactInt? y = some i
  | float x, int j => exactInt? x = some j

/-- Whether an integer is below a float. -/
def intBelow (i : Int64) (y : Float) : Bool :=
  if y.isNaN then false
  else if y.isFinite then i.toInt < truncated y.ceil
  else 0.0 < y

/-- Whether a float is below an integer. -/
def floatBelow (x : Float) (j : Int64) : Bool :=
  if x.isNaN then false
  else if x.isFinite then truncated x.floor < j.toInt
  else x < 0.0

/-- Whether a number is below another one. -/
def lt : Numeral → Numeral → Bool
  | int i, int j => i < j
  | float x, float y => x < y
  | int i, float y => intBelow i y
  | float x, int j => floatBelow x j

/-- Whether a number is below another one or equal to it. -/
def le : Numeral → Numeral → Bool
  | int i, int j => i ≤ j
  | float x, float y => x ≤ y
  | int i, float y => !y.isNaN && !floatBelow y i
  | float x, int j => !x.isNaN && !intBelow j x

/-! ## Arithmetic -/

/-- The remainder of a float division, with the sign of the dividend. It is
computed exactly, on the binary magnitudes. -/
def remainder (x y : Float) : Float :=
  if x.isNaN || y.isNaN || x.isInf || y == 0.0 then 0.0 / 0.0
  else if y.isInf || x == 0.0 then x
  else
    let a := Decimal.Binary.ofFloat x
    let b := Decimal.Binary.ofFloat y
    let e := min a.exp b.exp
    let r := a.mant * 2 ^ (a.exp - e).toNat % (b.mant * 2 ^ (b.exp - e).toNat)
    let magnitude := (Float.ofNat r).scaleB e
    if Decimal.isNegative x then -magnitude else magnitude

/-- The remainder of a float division, with the sign of the divisor. -/
def modFloat (x y : Float) : Float :=
  let m := remainder x y
  if m > 0.0 then (if y < 0.0 then m + y else m)
  else if m < 0.0 && !(y < 0.0) && !(y.isNaN) then m + y
  else m

/-- A power; squares are products. -/
def power (x y : Float) : Float := if y == 2.0 then x * x else Float.pow x y

/-- An integer shifted to the left; zeros come in, and a negative distance shifts
to the right. -/
def shiftLeft (i j : Int64) : Int64 :=
  let n := j.toInt
  let bits := i.toUInt64.toNat
  if n ≤ -64 ∨ 64 ≤ n then 0
  else if 0 ≤ n then (UInt64.ofNat (bits * 2 ^ n.toNat)).toInt64
  else (UInt64.ofNat (bits / 2 ^ (-n).toNat)).toInt64

/-! ## Reading -/

/-- Splits a sign off the front. -/
def splitSign : List UInt8 → Bool × List UInt8
  | 0x2D :: rest => (true, rest)
  | 0x2B :: rest => (false, rest)
  | cs => (false, cs)

/-- Drops the blanks around a number. -/
def trimBlanks (cs : List UInt8) : List UInt8 :=
  ((cs.dropWhile Byte.isSpace).reverse.dropWhile Byte.isSpace).reverse

/-- Whether a magnitude is written in hexadecimal, and what follows the mark. -/
def hexBody? : List UInt8 → Option (List UInt8)
  | 0x30 :: c :: rest => if c = 0x78 || c = 0x58 then some rest else none
  | _ => none

/-- The number that hexadecimal digits write. -/
def foldHex (n : Nat) (cs : List UInt8) : Nat :=
  cs.foldl (fun n c => n * 16 + (Byte.hexValue? c).getD 0) n

/-- The number that decimal digits write. -/
def foldDecimal (n : Nat) (cs : List UInt8) : Nat :=
  cs.foldl (fun n c => n * 10 + (c.toNat - 0x30)) n

/-- The number that hexadecimal digits write, without the bits above the first 64. -/
def wrapHex (cs : List UInt8) : UInt64 :=
  cs.foldl (fun n c => n * 16 + ((Byte.hexValue? c).getD 0).toUInt64) 0

/-- A magnitude read as an integer. Hexadecimal digits wrap; a decimal numeral out
of range is no integer. -/
def readInt? (neg : Bool) (cs : List UInt8) : Option Int64 :=
  match hexBody? cs with
  | some digits =>
    if digits.isEmpty || !digits.all Byte.isHex then none
    else
      let n := (wrapHex digits).toInt64
      some (if neg then -n else n)
  | none =>
    if cs.isEmpty || !cs.all Byte.isDigit then none
    else
      let digits := cs.dropWhile (· = 0x30)
      if 20 < digits.length then none
      else
        let n : Int := foldDecimal 0 digits
        int64? (if neg then -n else n)

/-- The exponent after its mark: an optional sign and digits. -/
def readExponent? (cs : List UInt8) : Option Int :=
  let (neg, digits) := splitSign cs
  if digits.isEmpty || !digits.all Byte.isDigit then none
  else
    let n : Int := Decimal.exponentOf (digits.map fun c => Char.ofNat c.toNat)
    some (if neg then -n else n)

/-- The float nearest to `m · 2^e`. Bits beyond the leading ones only decide which
way the rounding goes, so they are folded into one. -/
def ofBinary (m : Nat) (e : Int) : Float :=
  if m = 0 then 0.0
  else
    let length := Nat.log2 m + 1
    if (length : Int) + e > 1100 then 1.0 / 0.0
    else if (length : Int) + e < -1100 then 0.0
    else if length ≤ 62 then (Float.ofNat m).scaleB e
    else
      let cut := length - 62
      let top := m / 2 ^ cut
      let sticky := if m % 2 ^ cut = 0 then top else top / 2 * 2 + 1
      (Float.ofNat sticky).scaleB (e + cut)

/-- Hexadecimal digits with an optional point and a binary exponent. -/
def readHexFloat? (cs : List UInt8) : Option Float :=
  let whole := cs.takeWhile Byte.isHex
  let rest := cs.dropWhile Byte.isHex
  let (frac, rest) := match rest with
    | 0x2E :: r => (r.takeWhile Byte.isHex, r.dropWhile Byte.isHex)
    | r => ([], r)
  if whole.isEmpty && frac.isEmpty then none
  else
    let digits := (whole ++ frac).dropWhile (· = 0x30)
    let lost := digits.drop 20
    let sticky : Nat := if lost.all (· = 0x30) then 0 else 1
    let mantissa := foldHex 0 (digits.take 20) * 16 + sticky
    let scale : Int := 4 * lost.length - 4 * frac.length - 4
    match rest with
    | [] => some (ofBinary mantissa scale)
    | c :: r =>
      if c = 0x70 || c = 0x50 then
        (readExponent? r).map fun e => ofBinary mantissa (max (min (scale + e) 100000) (-100000))
      else none

/-- Decimal digits with an optional point and an optional exponent. -/
def readDecimalFloat? (cs : List UInt8) : Option Float :=
  let text := cs.map fun c => Char.ofNat c.toNat
  match Decimal.scan text with
  | some (s, []) => some s.toFloat
  | _ => none

/-- A magnitude read as a float. -/
def readFloat? (neg : Bool) (cs : List UInt8) : Option Float :=
  let magnitude := match hexBody? cs with
    | some digits => readHexFloat? digits
    | none => readDecimalFloat? cs
  magnitude.map fun x => if neg then -x else x

/-- The number that a list of bytes writes, blanks around it included. -/
def readBytes? (cs : List UInt8) : Option Numeral :=
  let (neg, body) := splitSign (trimBlanks cs)
  match readInt? neg body with
  | some i => some (int i)
  | none => (readFloat? neg body).map float

/-- The number that a string writes. -/
def read? (b : Bytes) : Option Numeral :=
  if b.size = 0 then none else readBytes? (Bytes.bytes b)

/-! ## Writing -/

/-- The text of a float: fourteen significant digits, and a point in any case. -/
def floatText (x : Float) : List Char :=
  if x.isNaN then "-nan".toList
  else if x.isInf then (if x < 0.0 then "-inf".toList else "inf".toList)
  else
    let digits := Decimal.general x 14 false
    let whole := if digits.all Decimal.isDigit then digits ++ ['.', '0'] else digits
    if Decimal.isNegative x then '-' :: whole else whole

/-- The text of a number. -/
def text : Numeral → String
  | int i => toString i.toInt
  | float x => String.ofList (floatText x)

end Numeral

end Workflow.Script
