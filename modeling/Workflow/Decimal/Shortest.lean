import Workflow.Decimal.Power

/-!
# The shortest decimal of a binary float

A finite double is `m · 2^q` with natural `m`. The reals that round to it form
an interval around it, and the decimal we write is the one with the fewest
digits inside that interval, the nearest of those if there are several.

* `Binary` — a magnitude as `m · 2^q`, read off the bits of a float.
* `Digits` — a decimal magnitude as a numeral and a power of ten.
* `shortest` — tries the grids of one, two, … seventeen significant digits and
  takes the first that has a point in the interval. All arithmetic is exact, on
  naturals; no floating-point operation takes part.
* `Layout` — how a numeral and its exponent are laid out as text. A layout only
  places a point and an exponent, so it never changes which number is written.
-/

namespace Workflow.Decimal

/-! ## Binary magnitudes -/

/-- The magnitude `mant · 2^exp`, together with whether the next smaller float
is only half a step away (true at powers of two, where the spacing changes). -/
structure Binary where
  /-- the integral significand -/
  mant : Nat
  /-- the power of two it is scaled by -/
  exp : Int
  /-- whether the gap below is half the gap above -/
  halfBelow : Bool
  deriving Repr, DecidableEq

/-- Whether the sign bit is set; it is for `-0.0` too. -/
def isNegative (x : Float) : Bool := 2 ^ 63 ≤ x.toBits.toNat

/-- The magnitude of a finite float. Infinities and NaN have no magnitude, and
the answer for them is meaningless; callers ask for finiteness first. -/
def Binary.ofFloat (x : Float) : Binary :=
  let bits := x.toBits.toNat % 2 ^ 63
  let frac : Nat := bits % 2 ^ 52
  let field : Nat := bits / 2 ^ 52
  if field = 0 then ⟨frac, -1074, false⟩
  else ⟨frac + 2 ^ 52, Int.ofNat field - 1075, frac = 0 && field ≠ 1⟩

/-- The magnitude as a quotient of naturals. -/
def Binary.quotient (b : Binary) : Nat × Nat :=
  if 0 ≤ b.exp then (b.mant * 2 ^ b.exp.toNat, 1) else (b.mant, 2 ^ (-b.exp).toNat)

/-! ## Decimal magnitudes -/

/-- The magnitude `numeral · 10^scale`. -/
structure Digits where
  /-- the digits, as one number -/
  numeral : Nat
  /-- the power of ten of the last digit -/
  scale : Int
  deriving Repr, DecidableEq

/-- The number of decimal digits of a positive number; `0` has none. -/
def countDigits (n : Nat) : Nat := if n = 0 then 0 else (Nat.toDigits 10 n).length

/-- The least `t`, counting up from `t`, with `den ≤ num · 10^t`. -/
def raise (num den : Nat) : Nat → Nat → Nat
  | 0, t => t
  | fuel + 1, t => if den ≤ num * 10 ^ t then t else raise num den fuel (t + 1)

/-- The decimal exponent of the leading digit of the positive quotient
`num / den`: the `e` with `10^e ≤ num / den < 10^(e+1)`. -/
def leadingExponent (num den : Nat) : Int :=
  if den ≤ num then (countDigits (num / den) : Int) - 1
  else -(raise num den 400 1 : Int)

/-- The quotient `num / den` measured in units of `10^scale`. -/
def inUnits (num den : Nat) (scale : Int) : Nat × Nat :=
  if 0 ≤ scale then (num, den * 10 ^ scale.toNat) else (num * 10 ^ (-scale).toNat, den)

/-- Drops trailing zeros of a numeral into its scale. -/
def Digits.trim : Nat → Digits → Digits
  | 0, d => d
  | fuel + 1, d =>
    if d.numeral ≠ 0 ∧ d.numeral % 10 = 0 then Digits.trim fuel ⟨d.numeral / 10, d.scale + 1⟩ else d

/-- The scale of the grid of `count` significant digits. -/
def Binary.scale (b : Binary) (count : Nat) : Int :=
  leadingExponent b.quotient.1 b.quotient.2 - (count : Int) + 1

/-- The step from the float to the next larger one, in units of `10^scale` and over the same
denominator as the float itself. -/
def Binary.step (b : Binary) (scale : Int) : Nat :=
  (inUnits (if 0 ≤ b.exp then 2 ^ b.exp.toNat else 1) 1 scale).1

/-- Whether a number rounds to the float: it is closer than half a step, or just half a step away
and ties go to the float. -/
def reaches (gap half : Nat) (even : Bool) : Bool := gap < half || (even && gap = half)

/-- The point of a grid that lies in the rounding interval of the float, if one does: of the two
neighbours of the float the nearer one, and the even one when both are equally near. In units of
the grid the float is `n / d`. -/
def Binary.pointOf (b : Binary) (scale : Int) (n d : Nat) : Option Digits :=
  let lo := n / d
  let hi := lo + 1
  let gapLo := n - lo * d
  let gapHi := hi * d - n
  let even : Bool := b.mant % 2 = 0
  -- all distances are compared after multiplying by 4 * d
  let below := if b.halfBelow then b.step scale else 2 * b.step scale
  match reaches (4 * gapLo) below even, reaches (4 * gapHi) (2 * b.step scale) even with
  | true, true =>
    some ⟨if gapLo < gapHi || (gapLo = gapHi && lo % 2 = 0) then lo else hi, scale⟩
  | true, false => some ⟨lo, scale⟩
  | false, true => some ⟨hi, scale⟩
  | false, false => none

/-- The point of the grid of `count` significant digits that rounds to the float, if one does. -/
def Binary.onGrid (b : Binary) (count : Nat) : Option Digits :=
  let scale := b.scale count
  let (n, d) := inUnits b.quotient.1 b.quotient.2 scale
  b.pointOf scale n d

/-- The first grid, counting up from `count` digits, that meets the interval. -/
def Binary.search (b : Binary) : Nat → Nat → Digits
  | 0, _ => ⟨b.mant, 0⟩
  | fuel + 1, count =>
    match b.onGrid count with
    | some d => d.trim 20
    | none => b.search fuel (count + 1)

/-- The shortest decimal that reads back as the finite float `x`, sign aside. -/
def shortest (x : Float) : Digits :=
  let b := Binary.ofFloat x
  if b.mant = 0 then ⟨0, 0⟩ else b.search 18 1

/-! ## Laying digits out -/

/-- How digits become text: the decimal exponents (of the leading digit) that
are written with a point and no exponent, whether a whole number keeps a `.0`,
and whether a positive exponent carries its sign. -/
structure Layout where
  /-- the least exponent written positionally -/
  low : Int
  /-- the first exponent above that is no longer written positionally -/
  high : Int
  /-- a whole number ends in `.0` -/
  keepPoint : Bool
  /-- exponents that are not negative start with `+` -/
  plus : Bool

/-- `n` zeros. -/
def zeros (n : Nat) : List Char := List.replicate n '0'

/-- The digits of a numeral. -/
def numeralText (n : Nat) : List Char := Nat.toDigits 10 n

/-- Writes digits positionally, the exponent of the leading digit being `e`. -/
def Layout.positional (l : Layout) (ds : List Char) (e : Int) : List Char :=
  if e < 0 then '0' :: '.' :: (zeros ((-e).toNat - 1) ++ ds)
  else
    let whole := e.toNat + 1
    if ds.length ≤ whole then
      ds ++ zeros (whole - ds.length) ++ (if l.keepPoint then ['.', '0'] else [])
    else ds.take whole ++ '.' :: ds.drop whole

/-- Writes digits with an exponent. -/
def Layout.scientific (l : Layout) (ds : List Char) (e : Int) : List Char :=
  let mantissa := match ds with
    | [] => []
    | [d] => [d]
    | d :: rest => d :: '.' :: rest
  let sign := if e < 0 then ['-'] else if l.plus then ['+'] else []
  mantissa ++ 'e' :: (sign ++ numeralText e.natAbs)

/-- Writes digits as the layout says. -/
def Layout.write (l : Layout) (d : Digits) : List Char :=
  let ds := numeralText d.numeral
  let e := d.scale + (ds.length : Int) - 1
  if l.low ≤ e && e < l.high then l.positional ds e else l.scientific ds e

/-- Writes a finite float in its shortest form, sign first. -/
def Layout.writeFloat (l : Layout) (x : Float) : List Char :=
  (if isNegative x then ['-'] else []) ++ l.write (shortest x)

end Workflow.Decimal
