import Workflow.Decimal.Power

/-!
# Reading decimals

A decimal is an optional sign, digits with an optional point among or around
them, and an optional exponent; infinities and NaN are spelled by name. The
value is the double nearest to the number written. Nothing may stand before or
after the number, blanks included.

The grammar of a magnitude is a value of its own, `Scanned`, so that other
readers (of scripts, of configuration files) share the rounding and bring their
own syntax.
-/

namespace Workflow.Decimal

/-- The number `numeral · 10^exp`, as read from its digits. -/
structure Scanned where
  /-- the digits written, as one number -/
  numeral : Nat
  /-- the power of ten of its last digit -/
  exp : Int
  deriving Repr, DecidableEq

/-- Whether a character is a decimal digit. -/
def isDigit (c : Char) : Bool := '0' ≤ c && c ≤ '9'

/-- The number that a list of digits writes, continuing from `n`. -/
def foldDigits (n : Nat) (ds : List Char) : Nat :=
  ds.foldl (fun n d => n * 10 + (d.toNat - '0'.toNat)) n

/-- The double nearest to a scanned number. A magnitude that is out of range by
its exponent alone is settled without building the power of ten. -/
def Scanned.toFloat (s : Scanned) : Float :=
  if s.numeral = 0 then 0.0
  else
    let size : Int := ((Nat.toDigits 10 s.numeral).length : Int) + s.exp
    if 400 < size then 1.0 / 0.0
    else if size < -400 then 0.0
    else if 0 ≤ s.exp then Float.ofScientific s.numeral false s.exp.toNat
    else Float.ofScientific s.numeral true (-s.exp).toNat

/-- How many digits of a number can matter to which double is nearest to it. Half the way
from one double to the next is written with fewer digits. -/
def maxDigits : Nat := 800

/-- The number that digits write, the last of them with a power of ten. Of digits beyond
those that can matter it is kept whether they are all zero. -/
def Scanned.ofDigits (digits : List Char) (exp : Int) : Scanned :=
  let digits := digits.dropWhile (· = '0')
  match digits.drop maxDigits with
  | [] => ⟨foldDigits 0 digits, exp⟩
  | lost =>
    let last := if lost.all (· = '0') then '0' else '1'
    ⟨foldDigits 0 (digits.take maxDigits ++ [last]), exp + (lost.length - 1 : Nat)⟩

/-- The number that the digits of an exponent write. It makes no difference how far it is
out of range. -/
def exponentOf (digits : List Char) : Nat :=
  let digits := digits.dropWhile (· = '0')
  if digits.length ≤ 20 then foldDigits 0 digits else 10 ^ 20

/-- Splits an exponent part `e…` off the front; `none` if it is malformed, and
exponent zero if there is none. -/
def scanExponent : List Char → Option (Int × List Char)
  | c :: rest =>
    if c = 'e' || c = 'E' then
      let (neg, digits) := match rest with
        | '-' :: r => (true, r)
        | '+' :: r => (false, r)
        | r => (false, r)
      let ds := digits.takeWhile isDigit
      if ds.isEmpty then none
      else
        let n := exponentOf ds
        some (if neg then -(n : Int) else n, digits.dropWhile isDigit)
    else some (0, c :: rest)
  | [] => some (0, [])

/-- Scans a magnitude off the front of a text: digits, an optional point with
digits on at least one of its sides, an optional exponent. -/
def scan (cs : List Char) : Option (Scanned × List Char) :=
  let whole := cs.takeWhile isDigit
  let afterWhole := cs.dropWhile isDigit
  let (frac, rest) := match afterWhole with
    | '.' :: r => (r.takeWhile isDigit, r.dropWhile isDigit)
    | r => ([], r)
  if whole.isEmpty && frac.isEmpty then none
  else
    (scanExponent rest).map fun (e, rest) =>
      (.ofDigits (whole ++ frac) (e - frac.length), rest)

/-- The value of a whole text: a sign, then a magnitude, or one of the names
`inf`, `infinity` and `nan` in any case. -/
def read? (text : String) : Option Float :=
  let (neg, cs) := match text.toList with
    | '-' :: r => (true, r)
    | '+' :: r => (false, r)
    | r => (false, r)
  let magnitude : Option Float :=
    match String.ofList (cs.map Char.toLower) with
    | "inf" | "infinity" => some (1.0 / 0.0)
    | "nan" => some (0.0 / 0.0)
    | _ =>
      match scan cs with
      | some (s, []) => some s.toFloat
      | _ => none
  magnitude.map fun x => if neg then -x else x

end Workflow.Decimal
