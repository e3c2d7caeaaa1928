import Workflow.Script.Number

/-!
# Formatted values

The conversions of format strings: a number or a string laid out by flags, a width
and a precision. The conversions are pure; which arguments they get is for the
functions that use them.
-/

namespace Workflow.Script

/-- How a value is laid out. -/
structure FieldLayout where
  /-- to the left of its field -/
  left : Bool := false
  /-- with a sign in any case -/
  plus : Bool := false
  /-- with a blank in place of a plus sign -/
  blank : Bool := false
  /-- in the alternative form -/
  alternative : Bool := false
  /-- with zeros in front -/
  zeros : Bool := false
  /-- how wide the field is at least -/
  width : Nat := 0
  /-- how many digits or bytes -/
  precision : Option Nat := none

namespace FieldLayout

/-! ## Reading a layout -/

/-- The bytes that a layout may consist of. -/
def alphabet : List UInt8 := "-+ #0123456789.".toUTF8.data.toList

/-- The bytes of a list as text. -/
def text (cs : List UInt8) : String := (Bytes.ofList cs).toTextLossy

/-- Up to two digits as a number. -/
def twoDigits (cs : List UInt8) : Nat × List UInt8 :=
  let digits := (cs.take 2).takeWhile Byte.isDigit
  (Numeral.foldDecimal 0 digits, cs.drop digits.length)

/-- Reads a layout of which only some flags are allowed, and a precision perhaps. -/
def read? (flags : String) (withPrecision : Bool) (cs : List UInt8) : Option FieldLayout :=
  let allowed := flags.toUTF8.data.toList
  let marks := cs.takeWhile allowed.contains
  let rest := cs.drop marks.length
  let base : FieldLayout :=
    { left := marks.contains 0x2D, plus := marks.contains 0x2B, blank := marks.contains 0x20
      alternative := marks.contains 0x23, zeros := marks.contains 0x30 }
  match rest with
  | 0x30 :: _ => none
  | _ =>
    let (width, rest) := twoDigits rest
    match rest with
    | [] => some { base with width := width }
    | 0x2E :: rest =>
      if withPrecision then
        let (precision, rest) := twoDigits rest
        if rest.isEmpty then some { base with width := width, precision := some precision } else none
      else none
    | _ => none

/-! ## Fields -/

/-- Puts a sign and a body into their field. -/
def fill (l : FieldLayout) (sign body : List Char) (mayPadZeros : Bool) : List Char :=
  let missing := l.width - (sign.length + body.length)
  if l.left then sign ++ body ++ List.replicate missing ' '
  else if l.zeros && mayPadZeros then sign ++ List.replicate missing '0' ++ body
  else List.replicate missing ' ' ++ sign ++ body

/-- The sign of a number. -/
def sign (l : FieldLayout) (isNegative : Bool) : List Char :=
  if isNegative then ['-'] else if l.plus then ['+'] else if l.blank then [' '] else []

/-- At least as many digits as the precision asks for. Zero has none if it asks for
none. -/
def digits (l : FieldLayout) (base n : Nat) : List Char :=
  let ds := if n = 0 && l.precision = some 0 then [] else Nat.toDigits base n
  List.replicate (l.precision.getD 1 - ds.length) '0' ++ ds

/-- An integer in decimal. -/
def decimal (l : FieldLayout) (i : Int64) : List Char :=
  l.fill (l.sign (i < 0)) (l.digits 10 i.toInt.natAbs) l.precision.isNone

/-- The bits of an integer in decimal. -/
def unsigned (l : FieldLayout) (i : Int64) : List Char :=
  l.fill [] (l.digits 10 i.toUInt64.toNat) l.precision.isNone

/-- The bits of an integer in hexadecimal. -/
def hex (l : FieldLayout) (isUpper : Bool) (i : Int64) : List Char :=
  let n := i.toUInt64.toNat
  let ds := l.digits 16 n
  let mark := if l.alternative && n ≠ 0 then ['0', 'x'] else []
  let all := l.fill mark ds l.precision.isNone
  if isUpper then all.map Char.toUpper else all

/-- The bits of an integer in octal. -/
def octal (l : FieldLayout) (i : Int64) : List Char :=
  let ds := l.digits 8 i.toUInt64.toNat
  let ds := if l.alternative && ds.head? ≠ some '0' then '0' :: ds else ds
  l.fill [] ds l.precision.isNone

/-- A string, cut to the precision. -/
def string (l : FieldLayout) (s : Bytes) : Bytes :=
  let s := match l.precision with
    | some n => s.extract 0 n
    | none => s
  let blanks := Bytes.ofList (List.replicate (l.width - s.size) 0x20)
  if l.left then s ++ blanks else blanks ++ s

/-! ## Floats -/

/-- Adds a point to digits without one, before their exponent. -/
def withPoint (l : FieldLayout) (cs : List Char) : List Char :=
  if !l.alternative || cs.contains '.' then cs
  else
    let front := cs.takeWhile (fun c => c ≠ 'e' && c ≠ 'p')
    front ++ '.' :: cs.drop front.length

/-- A float that is not finite, or nothing. -/
def notFinite? (l : FieldLayout) (x : Float) : Option (List Char) :=
  if x.isNaN then some (l.fill ['-'] ['n', 'a', 'n'] false)
  else if x.isInf then some (l.fill (l.sign (x < 0.0)) ['i', 'n', 'f'] false)
  else none

/-- A float with digits after the point. -/
def fixed (l : FieldLayout) (x : Float) : List Char :=
  match l.notFinite? x with
  | some cs => cs
  | none =>
    l.fill (l.sign (Decimal.isNegative x)) (l.withPoint (Decimal.fixed x (l.precision.getD 6))) true

/-- A float with an exponent. -/
def exponential (l : FieldLayout) (x : Float) : List Char :=
  match l.notFinite? x with
  | some cs => cs
  | none =>
    l.fill (l.sign (Decimal.isNegative x))
      (l.withPoint (Decimal.exponential x (l.precision.getD 6))) true

/-- A float in whichever form is plainer. -/
def general (l : FieldLayout) (x : Float) : List Char :=
  match l.notFinite? x with
  | some cs => cs
  | none =>
    l.fill (l.sign (Decimal.isNegative x))
      (l.withPoint (Decimal.general x (l.precision.getD 6) l.alternative)) true

/-- The magnitude of a float as a hexadecimal significand and a binary exponent. -/
def hexMagnitude (l : FieldLayout) (x : Float) : List Char :=
  let bits : Nat := x.toBits.toNat % 2 ^ 63
  let fraction : Nat := bits % 2 ^ 52
  let biased : Nat := bits / 2 ^ 52
  let lead : Nat := if biased = 0 then 0 else 1
  let e : Int := if bits = 0 then 0 else if biased = 0 then -1022 else (biased : Int) - 1023
  let n := lead * 2 ^ 52 + fraction
  let (n, places) : Nat × Nat := match l.precision with
    | some p => if p < 13 then (Decimal.roundQuotient n (16 ^ (13 - p)), p) else (n * 16 ^ (p - 13), p)
    | none => (n, 13)
  let whole := n / 16 ^ places
  let ds := Nat.toDigits 16 (n % 16 ^ places)
  let padded := List.replicate (places - ds.length) '0' ++ ds
  let shown := if l.precision.isNone then (padded.reverse.dropWhile (· = '0')).reverse
    else if places = 0 then [] else padded
  let exponent := (if e < 0 then '-' else '+') :: Nat.toDigits 10 e.natAbs
  Nat.toDigits 16 whole ++ (if shown.isEmpty then [] else '.' :: shown) ++ 'p' :: exponent

/-- A float in hexadecimal. -/
def hexFloat (l : FieldLayout) (x : Float) : List Char :=
  match l.notFinite? x with
  | some cs => cs
  | none =>
    l.fill (l.sign (Decimal.isNegative x) ++ ['0', 'x']) (l.withPoint (l.hexMagnitude x)) true

end FieldLayout

/-! ## Literals -/

namespace SourceText

/-- The inside of a string literal. -/
def inside : List UInt8 → List UInt8
  | [] => []
  | c :: rest =>
    if c = 0x22 || c = 0x5C || c = 0x0A then 0x5C :: c :: inside rest
    else if Byte.isControl c then
      let ds := Nat.toDigits 10 c.toNat
      let isBeforeDigit := match rest with
        | d :: _ => Byte.isDigit d
        | [] => false
      let ds := if isBeforeDigit then List.replicate (3 - ds.length) '0' ++ ds else ds
      0x5C :: (ds.map fun d => UInt8.ofNat d.toNat) ++ inside rest
    else c :: inside rest

/-- A string as a source would write it. -/
def ofString (s : Bytes) : Bytes := Bytes.ofList (0x22 :: inside (Bytes.bytes s) ++ [0x22])

/-- A number as a source would write it, without loss. -/
def ofNumeral : Numeral → String
  | .int i => if i = Int64.minValue then "0x8000000000000000" else toString i.toInt
  | .float x =>
    if x.isNaN then "(0/0)"
    else if x.isInf then (if x < 0.0 then "-1e9999" else "1e9999")
    else String.ofList (({} : FieldLayout).hexFloat x)

end SourceText

end Workflow.Script
