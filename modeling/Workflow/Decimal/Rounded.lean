import Workflow.Decimal.Shortest

/-!
# Decimals with a fixed number of digits

The other way to write a binary float: a stated number of digits after the
point (`fixed`), a stated number of digits altogether with an exponent
(`exponential`), or whichever of the two is plainer (`general`). The digits are
those of the exact value, rounded to nearest; an exact tie goes to the even
digit. As in the shortest form, all arithmetic is on naturals.
-/

namespace Workflow.Decimal

/-- The natural nearest to `num / den`, the even one if two are. -/
def roundQuotient (num den : Nat) : Nat :=
  let q := num / den
  let r := num % den
  if 2 * r < den then q
  else if den < 2 * r then q + 1
  else if q % 2 = 0 then q else q + 1

/-- Pads a numeral with leading zeros to at least `width` digits. -/
def padZeros (width : Nat) (ds : List Char) : List Char :=
  zeros (width - ds.length) ++ ds

/-- The magnitude of `x` with `places` digits after the point. -/
def fixed (x : Float) (places : Nat) : List Char :=
  let (num, den) := (Binary.ofFloat x).quotient
  let ds := padZeros (places + 1) (numeralText (roundQuotient (num * 10 ^ places) den))
  let whole := ds.length - places
  if places = 0 then ds else ds.take whole ++ '.' :: ds.drop whole

/-- The magnitude of `x` rounded to `count ≥ 1` significant digits, and the
exponent of the first of them. Rounding up may carry into a new digit. -/
def significant (x : Float) (count : Nat) : List Char × Int :=
  let b := Binary.ofFloat x
  if b.mant = 0 then (zeros count, 0)
  else
    let (num, den) := b.quotient
    let e := leadingExponent num den
    let (n, d) := inUnits num den (e - (count : Int) + 1)
    let ds := numeralText (roundQuotient n d)
    if ds.length > count then (ds.take count, e + 1) else (ds, e)

/-- An exponent with a sign and at least two digits. -/
def exponentText (e : Int) : List Char :=
  (if e < 0 then '-' else '+') :: padZeros 2 (numeralText e.natAbs)

/-- The magnitude of `x` with one digit before the point, `places` after it, and
an exponent. -/
def exponential (x : Float) (places : Nat) : List Char :=
  let (ds, e) := significant x (places + 1)
  (match ds with
    | [] => []
    | d :: rest => if rest.isEmpty then [d] else d :: '.' :: rest) ++ 'e' :: exponentText e

/-- Removes trailing zeros, and the point if nothing follows it. -/
def dropTrailingZeros (ds : List Char) : List Char :=
  let kept := (ds.reverse.dropWhile (· = '0'))
  (match kept with
    | '.' :: rest => rest
    | _ => kept).reverse

/-- The magnitude of `x` with `precision` significant digits, written with an
exponent only when that exponent is below `-4` or not below the precision.
Trailing zeros are dropped unless `keepZeros` asks for them. -/
def general (x : Float) (precision : Nat) (keepZeros : Bool) : List Char :=
  let p := max precision 1
  let (ds, e) := significant x p
  let strip (cs : List Char) := if keepZeros then cs else
    if cs.contains '.' then dropTrailingZeros cs else cs
  if e < -4 || (p : Int) ≤ e then
    let body := match ds with
      | [] => []
      | d :: rest => if rest.isEmpty then [d] else d :: '.' :: rest
    strip body ++ 'e' :: exponentText e
  else if e < 0 then
    strip ('0' :: '.' :: (zeros ((-e).toNat - 1) ++ ds))
  else
    let whole := e.toNat + 1
    strip (if whole < ds.length then ds.take whole ++ '.' :: ds.drop whole else ds)

end Workflow.Decimal
