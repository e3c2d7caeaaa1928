import Workflow.Script.Library.Strings

/-!
# Functions on UTF-8

The functions that are found in `utf8`. They read characters of up to six bytes, as
wide as the scheme allows; unless asked to be lax they refuse what is no character.
-/

namespace Workflow.Script.Library

open Arguments

/-! ## Characters -/

/-- The bytes of a character. -/
def encodeChar (n : Nat) : Bytes :=
  let tail (n k : Nat) : List UInt8 :=
    ((List.range k).reverse).map fun i => UInt8.ofNat (0x80 + n / 64 ^ i % 64)
  Bytes.ofList (
    if n < 0x80 then [UInt8.ofNat n]
    else if n < 0x800 then UInt8.ofNat (0xC0 + n / 64) :: tail n 1
    else if n < 0x10000 then UInt8.ofNat (0xE0 + n / 64 ^ 2) :: tail n 2
    else if n < 0x200000 then UInt8.ofNat (0xF0 + n / 64 ^ 3) :: tail n 3
    else if n < 0x4000000 then UInt8.ofNat (0xF8 + n / 64 ^ 4) :: tail n 4
    else UInt8.ofNat (0xFC + n / 64 ^ 5) :: tail n 5)

/-- The least character that needs so many bytes. -/
def leastOf : Nat → Nat
  | 2 => 0x80
  | 3 => 0x800
  | 4 => 0x10000
  | 5 => 0x200000
  | 6 => 0x4000000
  | _ => 0

/-- The character at a position and how many bytes it takes. -/
def decodeChar? (s : Bytes) (i : Nat) (isStrict : Bool) : Option (Nat × Nat) :=
  let c := (s.byteAt i).toNat
  if c < 0x80 then some (c, 1)
  else
    let length := if c < 0xC0 then 0 else if c < 0xE0 then 2 else if c < 0xF0 then 3
      else if c < 0xF8 then 4 else if c < 0xFC then 5 else if c < 0xFE then 6 else 0
    if length = 0 then none
    else
      let rest := (s.extract (i + 1) (i + length)).data.toList
      if rest.length + 1 < length || !rest.all Bytes.isContinuation then none
      else
        let n := rest.foldl (fun n b => n * 64 + (b.toNat - 0x80)) (c % 2 ^ (7 - length))
        if n < leastOf length then none
        else if isStrict && (0x10FFFF < n || (0xD800 ≤ n && n ≤ 0xDFFF)) then none
        else some (n, length)

/-- Whether a byte goes on with a character. -/
def continues (s : Bytes) (i : Nat) : Bool := Bytes.isContinuation (s.byteAt i)

/-- A position counted from the end if it is negative; zero if it is before the
front. -/
def position (i : Int64) (length : Nat) : Int :=
  let i := i.toInt
  if 0 ≤ i then i else if (length : Int) < -i then 0 else (length : Int) + i + 1

/-! ## Functions -/

/-- The string of characters with some codes. -/
def utf8Char (args : Arguments) : Proc Arguments := do
  let pieces ← args.mapInts fun n c =>
    if c < 0 || 0x7FFFFFFF < c then blame n "value out of range"
    else pure (encodeChar c.toNatClampNeg)
  oneString (pieces.foldl (· ++ ·) .empty)

/-- The codes of the characters that start between two positions, behind others of which
the latest comes first. -/
def codesBetween (s : Bytes) (isStrict : Bool) (stop : Nat) :
    Nat → Nat → Arguments → Proc Arguments
  | 0, _, codes => pure codes.reverse
  | fuel + 1, i, codes =>
    if stop ≤ i then pure codes.reverse
    else
      match decodeChar? s i isStrict with
      | none => Proc.failWith "invalid UTF-8 code"
      | some (n, length) => codesBetween s isStrict stop fuel (i + length) (.nat n :: codes)

/-- The codes of characters. -/
def utf8Codepoint (args : Arguments) : Proc Arguments := do
  let s ← args.string 1
  let first := position (← args.intOr 2 1) s.size
  let last := position (← args.intOr 3 (Int64.ofInt first)) s.size
  if first < 1 then blame 2 "out of bounds"
  if (s.size : Int) < last then blame 3 "out of bounds"
  if last < first then return []
  codesBetween s (!(args.nth 4).isTruthy) last.toNat (s.size + 1) (first.toNat - 1) []

/-- Counts the characters that start between two positions. -/
def countBetween (s : Bytes) (isStrict : Bool) (stop : Int) : Nat → Nat → Nat → Arguments
  | 0, _, n => [.nat n]
  | fuel + 1, i, n =>
    if stop < i then [.nat n]
    else
      match decodeChar? s i isStrict with
      | none => [.nil, .nat (i + 1)]
      | some (_, length) => countBetween s isStrict stop fuel (i + length) (n + 1)

/-- How many characters there are, or where there is none. -/
def utf8Len (args : Arguments) : Proc Arguments := do
  let s ← args.string 1
  let first := position (← args.intOr 2 1) s.size
  let last := position (← args.intOr 3 (-1)) s.size
  if first < 1 || (s.size : Int) < first - 1 then blame 2 "initial position out of bounds"
  if (s.size : Int) ≤ last - 1 then blame 3 "final position out of bounds"
  return countBetween s (!(args.nth 4).isTruthy) (last - 1) (s.size + 1) (first.toNat - 1) 0

/-- The first position not before one that does not go on with a character, walking
back. -/
def walkBack (s : Bytes) : Nat → Nat
  | 0 => 0
  | i + 1 => if continues s (i + 1) then walkBack s i else i + 1

/-- The position after the bytes that go on with a character. -/
def walkOn (s : Bytes) : Nat → Nat → Nat
  | 0, i => i
  | fuel + 1, i => if continues s i then walkOn s fuel (i + 1) else i

/-- Goes so many characters back from a position. -/
def goBack (s : Bytes) : Nat → Nat → Option Nat
  | 0, i => some i
  | n + 1, i => if i = 0 then none else goBack s n (walkBack s (i - 1))

/-- Goes so many characters on from a position. -/
def goOn (s : Bytes) : Nat → Nat → Option Nat
  | 0, i => some i
  | n + 1, i => if s.size ≤ i then none else goOn s n (walkOn s (s.size + 1) (i + 1))

/-- The position of a character counted from another position. -/
def utf8Offset (args : Arguments) : Proc Arguments := do
  let s ← args.string 1
  let n := (← args.int 2).toInt
  let default : Int64 := if 0 ≤ n then 1 else Int64.ofInt (s.size + 1)
  let i := position (← args.intOr 3 default) s.size
  if i < 1 || (s.size : Int) < i - 1 then blame 3 "position out of bounds"
  let i := i.toNat - 1
  if n = 0 then return [.nat (walkBack s i + 1)]
  if continues s i then Proc.failWith "initial position is a continuation byte"
  let found := if n < 0 then goBack s (-n).toNat i else goOn s (n.toNat - 1) i
  match found with
  | some j => return [.nat (j + 1)]
  | none => return [.nil]

/-- A step of a loop over characters. -/
def codesStep (isStrict : Bool) (args : Arguments) : Proc Arguments := do
  let s ← args.string 1
  let i := (← args.int 2).toUInt64.toNat
  let i := if i < s.size then walkOn s (s.size + 1) (if i = 0 then 0 else i) else i
  if s.size ≤ i then return []
  match decodeChar? s i isStrict with
  | none => Proc.failWith "invalid UTF-8 code"
  | some (n, length) =>
    if continues s (i + length) then Proc.failWith "invalid UTF-8 code"
    return [.nat (i + 1), .nat n]

/-- What a loop over characters needs. -/
def utf8Codes (args : Arguments) : Proc Arguments := do
  let s ← args.string 1
  if continues s 0 then blame 1 "invalid UTF-8 code"
  let step : Builtin := if (args.nth 2).isTruthy then .utf8CodesStepLax else .utf8CodesStep
  return [.builtin step, .str s, .int 0]

end Workflow.Script.Library
