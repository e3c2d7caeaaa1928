import Workflow.Decimal.Shortest
import Workflow.Decimal.Reading
import Workflow.Text.Blank
import Workflow.Json.Decode

/-!
# Instants

A moment in universal time, kept as its calendar date and clock time, so that
writing it needs no arithmetic. A leap second is second 59 with a fraction of
one second or more, which keeps the order of instants the order of their fields.

* `write` gives the usual form `2024-01-02T03:04:05Z`, with a fraction of three,
  six or nine digits if there is one.
* `read?` accepts more: a small `t` or a blank between date and time, blanks
  around the date's dashes and the clock's colons, any fraction, and an offset
  from universal time, which it removes.
-/

namespace Workflow

/-- A moment in universal time. -/
structure Instant where
  /-- the year; negative before year zero -/
  year : Int
  /-- the month, from 1 -/
  month : Nat
  /-- the day of the month, from 1 -/
  day : Nat
  /-- the hour, from 0 to 23 -/
  hour : Nat
  /-- the minute -/
  minute : Nat
  /-- the second, from 0 to 59 -/
  second : Nat
  /-- the fraction in nanoseconds; a billion and more in a leap second -/
  nano : Nat
  deriving DecidableEq, Repr, Inhabited

namespace Instant

/-! ## The calendar -/

/-- The years that the calendar knows. -/
def isYear (year : Int) : Bool := -262143 ≤ year && year ≤ 262142

/-- Whether a year has a leap day. -/
def isLeap (year : Int) : Bool := year % 4 = 0 && (year % 100 ≠ 0 || year % 400 = 0)

/-- The number of days of a month. -/
def daysIn (year : Int) (month : Nat) : Nat :=
  match month with
  | 2 => if isLeap year then 29 else 28
  | 4 | 6 | 9 | 11 => 30
  | _ => 31

/-- The date after a date. -/
def nextDay (year : Int) (month day : Nat) : Int × Nat × Nat :=
  if day < daysIn year month then (year, month, day + 1)
  else if month < 12 then (year, month + 1, 1)
  else (year + 1, 1, 1)

/-- The date before a date. -/
def previousDay (year : Int) (month day : Nat) : Int × Nat × Nat :=
  if 1 < day then (year, month, day - 1)
  else if 1 < month then (year, month - 1, daysIn year (month - 1))
  else (year - 1, 12, 31)

/-- The number of days from 1970-01-01 to a date. -/
def dayNumber (year : Int) (month day : Nat) : Int :=
  let y := if month ≤ 2 then year - 1 else year
  let era := y / 400
  let yearOfEra := y % 400
  let monthFromMarch : Int := ((month : Int) + 9) % 12
  let dayOfYear := (153 * monthFromMarch + 2) / 5 + (day : Int) - 1
  let dayOfEra := yearOfEra * 365 + yearOfEra / 4 - yearOfEra / 100 + dayOfYear
  era * 146097 + dayOfEra - 719468

/-- The date that lies a number of days after 1970-01-01. -/
def dateOfDayNumber (number : Int) : Int × Nat × Nat :=
  let z := number + 719468
  let era := z / 146097
  let dayOfEra := z % 146097
  let yearOfEra := (dayOfEra - dayOfEra / 1460 + dayOfEra / 36524 - dayOfEra / 146096) / 365
  let dayOfYear := dayOfEra - (365 * yearOfEra + yearOfEra / 4 - yearOfEra / 100)
  let monthFromMarch := (5 * dayOfYear + 2) / 153
  let day := dayOfYear - (153 * monthFromMarch + 2) / 5 + 1
  let month := if monthFromMarch < 10 then monthFromMarch + 3 else monthFromMarch - 9
  let year := yearOfEra + era * 400 + (if month ≤ 2 then 1 else 0)
  (year, month.toNat, day.toNat)

/-- The instant a number of nanoseconds after the start of 1970. -/
def ofEpochNanos (nanos : Int) : Instant :=
  let seconds := nanos / 1000000000
  let (year, month, day) := dateOfDayNumber (seconds / 86400)
  let ofDay := (seconds % 86400).toNat
  { year, month, day, hour := ofDay / 3600, minute := ofDay / 60 % 60, second := ofDay % 60
    nano := (nanos % 1000000000).toNat }

/-- The number of nanoseconds from the start of 1970 to an instant. -/
def toEpochNanos (t : Instant) : Int :=
  let ofDay : Int := t.hour * 3600 + t.minute * 60 + t.second
  (dayNumber t.year t.month t.day * 86400 + ofDay) * 1000000000 + t.nano

/-- The instant a number of milliseconds later. -/
def afterMillis (t : Instant) (millis : Nat) : Instant :=
  ofEpochNanos (t.toEpochNanos + millis * 1000000)

/-- The order of instants. -/
def before (a b : Instant) : Bool :=
  let key (t : Instant) : Int :=
    dayNumber t.year t.month t.day * 86400 + t.hour * 3600 + t.minute * 60 + t.second
  key a < key b || (key a = key b && a.nano < b.nano)

/-! ## Writing -/

/-- A numeral with leading zeros. -/
def digits (width n : Nat) : List Char :=
  let ds := Decimal.numeralText n
  Decimal.zeros (width - ds.length) ++ ds

/-- The year as four digits; one beyond them carries its sign. -/
def yearText (year : Int) : List Char :=
  if 0 ≤ year ∧ year ≤ 9999 then digits 4 year.toNat
  else (if year < 0 then '-' else '+') :: digits 4 year.natAbs

/-- The seconds as a clock shows them, 60 in a leap second. -/
def shownSecond (t : Instant) : Nat := t.second + t.nano / 1000000000

/-- The fraction of a second, in as few groups of three digits as hold it. -/
def fractionText (nano : Nat) : List Char :=
  if nano = 0 then []
  else if nano % 1000000 = 0 then '.' :: digits 3 (nano / 1000000)
  else if nano % 1000 = 0 then '.' :: digits 6 (nano / 1000)
  else '.' :: digits 9 nano

/-- The date as `2024-01-02`. -/
def dateText (t : Instant) : List Char :=
  yearText t.year ++ '-' :: (digits 2 t.month ++ '-' :: digits 2 t.day)

/-- The clock time as `03:04:05`. -/
def clockText (t : Instant) : List Char :=
  digits 2 t.hour ++ ':' :: (digits 2 t.minute ++ ':' :: digits 2 t.shownSecond)

/-- The instant as text. -/
def write (t : Instant) : List Char :=
  t.dateText ++ 'T' :: (t.clockText ++ (fractionText (t.nano % 1000000000) ++ ['Z']))

/-- The instant as text, with the distance from the zero meridian in place of its mark. -/
def offsetText (t : Instant) : String := String.ofList (t.write.dropLast ++ "+00:00".toList)

/-- The instant as a table shows it, to the second. -/
def tableText (t : Instant) : String := String.ofList (t.dateText ++ ' ' :: t.clockText)

/-! ## Reading -/

/-- Why a text is no instant. -/
inductive Fault where
  /-- the text ends too early -/
  | tooShort
  /-- another character was expected -/
  | invalid
  /-- a part is out of its range, or the day does not exist -/
  | outOfRange
  /-- something follows the instant -/
  | tooLong
  /-- the instant lies beyond the calendar once its offset is removed -/
  | impossible
  deriving DecidableEq, Repr

/-- The wording of a fault. -/
def Fault.message : Fault → String
  | tooShort => "premature end of input"
  | invalid => "input contains invalid characters"
  | outOfRange => "input is out of range"
  | tooLong => "trailing input"
  | impossible => "no possible date and time matching input"

/-- Reads a numeral of at least one and at most `width` digits. -/
def readNumeral (width : Nat) (cs : List Char) : Except Fault (Nat × List Char) :=
  match cs with
  | [] => .error .tooShort
  | c :: _ =>
    if !Decimal.isDigit c then .error .invalid
    else
      let ds := (cs.take width).takeWhile Decimal.isDigit
      .ok (Decimal.foldDigits 0 ds, cs.drop ds.length)

/-- Reads a numeral within bounds, after blanks. -/
def readWithin (width low high : Nat) (cs : List Char) : Except Fault (Nat × List Char) := do
  let (n, rest) ← readNumeral width (Text.trimStart cs)
  if low ≤ n ∧ n ≤ high then .ok (n, rest) else .error .outOfRange

/-- Reads one given character, after blanks. -/
def readMark (mark : Char) (cs : List Char) : Except Fault (List Char) :=
  match Text.trimStart cs with
  | [] => .error .tooShort
  | c :: rest => if c = mark then .ok rest else .error .invalid

/-- Reads a year: four digits at most, or a sign and any number of digits. -/
def readYear (cs : List Char) : Except Fault (Int × List Char) :=
  let signed (negative : Bool) (cs : List Char) : Except Fault (Int × List Char) := do
    let (n, rest) ← readNumeral cs.length cs
    if n < 2 ^ 31 then .ok (if negative then -(n : Int) else n, rest) else .error .outOfRange
  match Text.trimStart cs with
  | '-' :: rest => signed true rest
  | '+' :: rest => signed false rest
  | cs => (readNumeral 4 cs).map fun (n, rest) => ((n : Int), rest)

/-- Reads a fraction, if one follows: nine digits count, further ones do not. -/
def readFraction (cs : List Char) : Except Fault (Nat × List Char) :=
  match cs with
  | '.' :: rest => do
    let (n, after) ← readNumeral 9 rest
    let taken := rest.length - after.length
    .ok (n * 10 ^ (9 - taken), after.dropWhile Decimal.isDigit)
  | cs => .ok (0, cs)

/-- Reads two digits. -/
def readPair (cs : List Char) : Except Fault (Nat × List Char) :=
  match cs with
  | a :: b :: rest =>
    if Decimal.isDigit a && Decimal.isDigit b then .ok (Decimal.foldDigits 0 [a, b], rest)
    else .error .invalid
  | [c] => .error (if c.toNat < 0x80 then .tooShort else .invalid)
  | [] => .error .tooShort

/-- Reads an offset from universal time, in minutes. -/
def readOffset (cs : List Char) : Except Fault (Int × List Char) := do
  match Text.trimStart cs with
  | [] => .error .tooShort
  | c :: rest =>
    let isUtc := ((c :: rest).take 3).map Char.toLower = ['u', 't', 'c']
    if isUtc then .ok (0, rest.drop 2)
    else if c = 'Z' || c = 'z' then .ok (0, rest)
    else if c = '+' || c = '-' || c = '\u2212' then
      let (hours, rest) ← readPair rest
      let rest := rest.dropWhile fun c => c = ':' || Text.isBlank c
      let (minutes, rest) ← readPair rest
      let total : Int := hours * 60 + minutes
      if 60 ≤ minutes then .error .outOfRange
      else .ok (if c = '+' then total else -total, rest)
    else .error .invalid

/-- Moves an instant that was given at an offset of less than a day to universal
time. -/
def removeOffset (t : Instant) (minutes : Int) : Instant :=
  let m : Int := (t.hour * 60 + t.minute : Nat) - minutes
  let clock := (m % 1440).toNat
  let (year, month, day) :=
    if m < 0 then previousDay t.year t.month t.day
    else if 1440 ≤ m then nextDay t.year t.month t.day
    else (t.year, t.month, t.day)
  { t with year, month, day, hour := clock / 60, minute := clock % 60 }

/-- Reads an instant. -/
def read (text : List Char) : Except Fault Instant := do
  let (year, cs) ← readYear text
  let cs ← readMark '-' cs
  let (month, cs) ← readWithin 2 1 12 cs
  let cs ← readMark '-' cs
  let (day, cs) ← readWithin 2 1 31 cs
  let cs ← match cs with
    | [] => .error .tooShort
    | c :: rest => if c = 'T' || c = 't' || c = ' ' then .ok rest else .error .invalid
  let (hour, cs) ← readWithin 2 0 23 cs
  let cs ← readMark ':' cs
  let (minute, cs) ← readWithin 2 0 59 cs
  let cs ← readMark ':' cs
  let (second, cs) ← readWithin 2 0 60 cs
  let (fraction, cs) ← readFraction cs
  let (offset, cs) ← readOffset cs
  if !cs.all Text.isBlank then .error .tooLong
  else if daysIn year month < day || !isYear year || 1440 ≤ offset.natAbs then
    .error .outOfRange
  else
    let leap := second = 60
    let atOffset : Instant :=
      { year, month, day, hour, minute, second := if leap then 59 else second
        nano := if leap then fraction + 1000000000 else fraction }
    let t := atOffset.removeOffset offset
    if isYear t.year then .ok t else .error .impossible

/-- The decoder of instants. -/
def decode : Json.Decoder Instant
  | .str s =>
    match read s.toList with
    | .ok t => .ok t
    | .error e => Json.refuse (.malformed e.message) .value
  | v => Json.wrongType v "an RFC 3339 formatted date and time string"

/-- The JSON form of an instant. -/
def toJson (t : Instant) : Json := .str (String.ofList t.write)

end Instant

end Workflow
