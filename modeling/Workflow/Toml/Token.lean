import Workflow.Decimal.Reading
import Workflow.Json.Syntax

/-!
# Keys and scalar values of TOML

The parts of a TOML text that lie within one value: blanks and comments, the
four kinds of quoted text, keys, numbers in four bases, truth values and dates.
Each reader takes its part off the front of the text and answers `none` if the
text is not of that form; a text is either TOML or it is not, and no message
depends on why.

Values are kept as JSON. A date becomes an object under a name of its own, so
that nothing which expects a text or a number takes it for one.
-/

namespace Workflow.Toml

/-- The outcome of reading a part off the front of a text. -/
abbrev Part (α : Type) := Option (α × List Char)

/-! ## Blanks, comments and line ends -/

/-- Whether a character is a blank within a line. -/
def isBlank (c : Char) : Bool := c = ' ' || c = '\t'

/-- What is left after blanks within the line. -/
def skipBlanks (cs : List Char) : List Char := cs.dropWhile isBlank

/-- Whether a character may stand in comments and in quoted text: no control
character but the tab. -/
def isPlain (c : Char) : Bool := c = '\t' || (0x20 ≤ c.toNat && c.toNat ≠ 0x7F)

/-- Reads a line end. -/
def lineEnd? : List Char → Option (List Char)
  | '\n' :: rest => some rest
  | '\r' :: '\n' :: rest => some rest
  | _ => none

/-- What is left after a comment, if one starts here. -/
def skipComment (cs : List Char) : List Char :=
  match cs with
  | '#' :: rest => rest.dropWhile isPlain
  | cs => cs

/-- Reads the end of a statement: blanks, a comment, and a line end or the end of
the text. -/
def statementEnd? (cs : List Char) : Option (List Char) :=
  match skipComment (skipBlanks cs) with
  | [] => some []
  | rest => lineEnd? rest

/-- What is left after blanks, comments and line ends. -/
def skipLines : Nat → List Char → List Char
  | 0, cs => cs
  | fuel + 1, cs =>
    let rest := skipComment (skipBlanks cs)
    match lineEnd? rest with
    | some more => skipLines fuel more
    | none => rest

/-! ## Quoted text -/

/-- Reads hexadecimal digits as a number. -/
def hexNumber? (ds : List Char) : Option Nat :=
  ds.foldlM (fun n d => (Json.hexValue? d).map (n * 16 + ·)) 0

/-- The character with a code, if there is one. -/
def charOf? (n : Nat) : Option Char :=
  if n.isValidChar then some (Char.ofNat n) else none

/-- Reads an escape, the backslash being read already. -/
def escape? : List Char → Part Char
  | 'b' :: rest => some ('\x08', rest)
  | 't' :: rest => some ('\t', rest)
  | 'n' :: rest => some ('\n', rest)
  | 'f' :: rest => some ('\x0c', rest)
  | 'r' :: rest => some ('\r', rest)
  | '"' :: rest => some ('"', rest)
  | '\\' :: rest => some ('\\', rest)
  | 'u' :: rest => byCode 4 rest
  | 'U' :: rest => byCode 8 rest
  | _ => none
where
  /-- Reads a code of a fixed number of digits. -/
  byCode (count : Nat) (cs : List Char) : Part Char :=
    if (cs.take count).length = count then
      ((hexNumber? (cs.take count)).bind charOf?).map fun c => (c, cs.drop count)
    else none

/-- Reads text up to a closing double quote, on one line. -/
def basic? : Nat → List Char → List Char → Part (List Char)
  | 0, _, _ => none
  | _ + 1, _, [] => none
  | fuel + 1, acc, c :: cs =>
    if c = '"' then some (acc.reverse, cs)
    else if c = '\\' then (escape? cs).bind fun (d, rest) => basic? fuel (d :: acc) rest
    else if isPlain c then basic? fuel (c :: acc) cs
    else none

/-- Reads text up to a closing single quote, on one line. -/
def literal? (cs : List Char) : Part (List Char) :=
  let inner := cs.takeWhile fun c => c ≠ '\'' && isPlain c
  match cs.drop inner.length with
  | '\'' :: rest => some (inner, rest)
  | _ => none

/-- Splits three closing quotes off the front; up to two further quotes before
them belong to the text. -/
def tripleEnd? (mark : Char) (cs : List Char) : Part (List Char) :=
  let count := (cs.takeWhile (· = mark)).length
  if count < 3 then none
  else
    let extra := min (count - 3) 2
    some (List.replicate extra mark, cs.drop (extra + 3))

/-- What is left after the blanks and line ends behind a backslash that ends a
line. -/
def skipFold : Nat → List Char → List Char
  | 0, cs => cs
  | fuel + 1, cs =>
    match lineEnd? (skipBlanks cs) with
    | some rest => skipFold fuel rest
    | none => skipBlanks cs

/-- Reads text up to three closing double quotes. -/
def basicLines? : Nat → List Char → List Char → Part (List Char)
  | 0, _, _ => none
  | _ + 1, _, [] => none
  | fuel + 1, acc, c :: cs =>
    match tripleEnd? '"' (c :: cs) with
    | some (extra, rest) => some (acc.reverse ++ extra, rest)
    | none =>
      if c = '\\' then
        match lineEnd? (skipBlanks cs) with
        | some rest => basicLines? fuel acc (skipFold rest.length rest)
        | none => (escape? cs).bind fun (d, rest) => basicLines? fuel (d :: acc) rest
      else
        match lineEnd? (c :: cs) with
        | some rest => basicLines? fuel ('\n' :: acc) rest
        | none => if isPlain c then basicLines? fuel (c :: acc) cs else none

/-- Reads text up to three closing single quotes. -/
def literalLines? : Nat → List Char → List Char → Part (List Char)
  | 0, _, _ => none
  | _ + 1, _, [] => none
  | fuel + 1, acc, c :: cs =>
    match tripleEnd? '\'' (c :: cs) with
    | some (extra, rest) => some (acc.reverse ++ extra, rest)
    | none =>
      match lineEnd? (c :: cs) with
      | some rest => literalLines? fuel ('\n' :: acc) rest
      | none => if isPlain c then literalLines? fuel (c :: acc) cs else none

/-- What is left after a line end, if one follows the opening quotes. -/
def skipFirstLineEnd (cs : List Char) : List Char := (lineEnd? cs).getD cs

/-- Reads a quoted text of any kind. -/
def quoted? : List Char → Part (List Char)
  | '"' :: '"' :: '"' :: rest => basicLines? (rest.length + 1) [] (skipFirstLineEnd rest)
  | '\'' :: '\'' :: '\'' :: rest => literalLines? (rest.length + 1) [] (skipFirstLineEnd rest)
  | '"' :: rest => basic? (rest.length + 1) [] rest
  | '\'' :: rest => literal? rest
  | _ => none

/-! ## Keys -/

/-- Whether a character may stand in a key without quotes. -/
def isBareChar (c : Char) : Bool :=
  ('a' ≤ c && c ≤ 'z') || ('A' ≤ c && c ≤ 'Z') || Decimal.isDigit c || c = '_' || c = '-'

/-- Reads one part of a key. -/
def keyPart? (cs : List Char) : Part String :=
  match cs with
  | '"' :: rest => (basic? (rest.length + 1) [] rest).map fun (k, r) => (String.ofList k, r)
  | '\'' :: rest => (literal? rest).map fun (k, r) => (String.ofList k, r)
  | _ =>
    let name := cs.takeWhile isBareChar
    if name.isEmpty then none else some (String.ofList name, cs.drop name.length)

/-- Reads a key: parts separated by points, with blanks around them. -/
def key? : Nat → List Char → Part (List String)
  | 0, _ => none
  | fuel + 1, cs =>
    (keyPart? (skipBlanks cs)).bind fun (k, rest) =>
      match skipBlanks rest with
      | '.' :: more => (key? fuel more).map fun (ks, r) => (k :: ks, r)
      | rest => some ([k], rest)

/-! ## Numbers -/

/-- Reads digits with single underscores between them; `owed` tells that a digit
must come next. -/
def digitsFrom? (isDigit : Char → Bool) : Bool → List Char → Part (List Char)
  | owed, [] => if owed then none else some ([], [])
  | owed, c :: cs =>
    if isDigit c then (digitsFrom? isDigit false cs).map fun (ds, r) => (c :: ds, r)
    else if owed then none
    else if c = '_' then digitsFrom? isDigit true cs
    else some ([], c :: cs)

/-- Reads digits with single underscores between them. -/
def digits? (isDigit : Char → Bool) (cs : List Char) : Part (List Char) :=
  digitsFrom? isDigit true cs

/-- The number that digits write in a base. -/
def numberIn (base : Nat) (ds : List Char) : Nat :=
  ds.foldl (fun n d => n * base + (Json.hexValue? d).getD 0) 0

/-- A whole number, if it fits into 64 bits with a sign. -/
def wholeNumber? (neg : Bool) (n : Nat) : Option Json :=
  if neg then if n ≤ 2 ^ 63 then some (Json.int (-(n : Int))) else none
  else if n < 2 ^ 63 then some (Json.nat n) else none

/-- Reads a number in base 16, 8 or 2. -/
def basedNumber? (base : Nat) (isDigit : Char → Bool) (cs : List Char) : Part Json :=
  (digits? isDigit cs).bind fun (ds, rest) =>
    (wholeNumber? false (numberIn base ds)).map fun v => (v, rest)

/-- Removes a sign from the front. -/
def sign (cs : List Char) : Bool × List Char :=
  match cs with
  | '-' :: rest => (true, rest)
  | '+' :: rest => (false, rest)
  | _ => (false, cs)

/-- Reads the exponent of a float; leading zeros are allowed there. -/
def exponent? (cs : List Char) : Part Int :=
  let (neg, cs) := sign cs
  (digits? Decimal.isDigit cs).map fun (ds, rest) =>
    let n := Decimal.foldDigits 0 ds
    (if neg then -(n : Int) else n, rest)

/-- A float, which JSON does not hold if it is infinite or no number; such a value
fits nothing but must not be taken for null. -/
def floatValue (neg : Bool) (x : Float) : Json := .num (.float (if neg then -x else x))

/-- Reads a decimal number, whole or not. -/
def decimalNumber? (neg : Bool) (cs : List Char) : Part Json :=
  match cs with
  | 'i' :: 'n' :: 'f' :: rest => some (floatValue neg (1.0 / 0.0), rest)
  | 'n' :: 'a' :: 'n' :: rest => some (floatValue neg (0.0 / 0.0), rest)
  | _ =>
    (digits? Decimal.isDigit cs).bind fun (whole, rest) =>
      if whole.length > 1 && whole.head? = some '0' then none
      else
        let finish (frac : List Char) (e : Int) (rest : List Char) : Part Json :=
          let x := (Decimal.Scanned.mk (Decimal.foldDigits (Decimal.foldDigits 0 whole) frac)
            (e - frac.length)).toFloat
          if x.isInf then none else some (floatValue neg x, rest)
        let withExponent (frac : List Char) (rest : List Char) (plain : Part Json) : Part Json :=
          match rest with
          | 'e' :: more => (exponent? more).bind fun (e, r) => finish frac e r
          | 'E' :: more => (exponent? more).bind fun (e, r) => finish frac e r
          | _ => plain
        match rest with
        | '.' :: more =>
          (digits? Decimal.isDigit more).bind fun (frac, r) => withExponent frac r (finish frac 0 r)
        | _ =>
          withExponent [] rest
            ((wholeNumber? neg (Decimal.foldDigits 0 whole)).map fun v => (v, rest))

/-- Reads a number. -/
def number? (cs : List Char) : Part Json :=
  match cs with
  | '0' :: 'x' :: rest => basedNumber? 16 (fun c => (Json.hexValue? c).isSome) rest
  | '0' :: 'o' :: rest => basedNumber? 8 (fun c => '0' ≤ c && c ≤ '7') rest
  | '0' :: 'b' :: rest => basedNumber? 2 (fun c => c = '0' || c = '1') rest
  | _ =>
    let (neg, rest) := sign cs
    decimalNumber? neg rest

/-! ## Dates -/

/-- Reads a number of a fixed count of digits, within bounds. -/
def fixedNumber? (count low high : Nat) (cs : List Char) : Part Nat :=
  let ds := cs.take count
  if ds.length = count && ds.all Decimal.isDigit then
    let n := Decimal.foldDigits 0 ds
    if low ≤ n ∧ n ≤ high then some (n, cs.drop count) else none
  else none

/-- Reads one given character. -/
def mark? (mark : Char) : List Char → Option (List Char)
  | c :: rest => if c = mark then some rest else none
  | [] => none

/-- Whether a year has a leap day. -/
def isLeap (year : Nat) : Bool := year % 4 = 0 && (year % 100 ≠ 0 || year % 400 = 0)

/-- What is left after a calendar date. -/
def date? (cs : List Char) : Option (List Char) := do
  let (year, cs) ← fixedNumber? 4 0 9999 cs
  let cs ← mark? '-' cs
  let (month, cs) ← fixedNumber? 2 1 12 cs
  let cs ← mark? '-' cs
  let last := if month = 2 then if isLeap year then 29 else 28
    else if month = 4 || month = 6 || month = 9 || month = 11 then 30 else 31
  let (_, cs) ← fixedNumber? 2 1 last cs
  return cs

/-- What is left after a clock time. -/
def time? (cs : List Char) : Option (List Char) := do
  let (_, cs) ← fixedNumber? 2 0 23 cs
  let cs ← mark? ':' cs
  let (_, cs) ← fixedNumber? 2 0 59 cs
  let cs ← mark? ':' cs
  let (_, cs) ← fixedNumber? 2 0 60 cs
  match cs with
  | '.' :: rest =>
    let ds := rest.takeWhile Decimal.isDigit
    if ds.isEmpty then none else some (rest.drop ds.length)
  | cs => some cs

/-- What is left after an offset, if one follows. -/
def offset? (cs : List Char) : Option (List Char) :=
  let signed (rest : List Char) : Option (List Char) := do
    let (_, cs) ← fixedNumber? 2 0 23 rest
    let cs ← mark? ':' cs
    let (_, cs) ← fixedNumber? 2 0 59 cs
    return cs
  match cs with
  | 'Z' :: rest => some rest
  | 'z' :: rest => some rest
  | '+' :: rest => signed rest
  | '-' :: rest => signed rest
  | cs => some cs

/-- What is left after a date, a time, or both. -/
def dateTime? (cs : List Char) : Option (List Char) :=
  match date? cs with
  | some rest =>
    match rest with
    | c :: more =>
      if c = 'T' || c = 't' then (time? more).bind offset?
      else if c = ' ' then
        match time? more with
        | some r => offset? r
        | none => some rest
      else some rest
    | [] => some []
  | none => time? cs

/-- Whether a text starts like a date or a time. -/
def startsDate (cs : List Char) : Bool :=
  let count := (cs.takeWhile Decimal.isDigit).length
  (count = 4 && cs[4]? = some '-') || (count = 2 && cs[2]? = some ':')

/-- A date as a value. -/
def dateValue (text : List Char) : Json :=
  .obj [("$__toml_private_datetime", .str (String.ofList text))]

/-- Reads a value that is neither an array nor a table. -/
def scalar? (cs : List Char) : Part Json :=
  match cs with
  | '"' :: _ => (quoted? cs).map fun (s, r) => (.str (String.ofList s), r)
  | '\'' :: _ => (quoted? cs).map fun (s, r) => (.str (String.ofList s), r)
  | 't' :: 'r' :: 'u' :: 'e' :: rest => some (.bool true, rest)
  | 'f' :: 'a' :: 'l' :: 's' :: 'e' :: rest => some (.bool false, rest)
  | _ =>
    if startsDate cs then
      (dateTime? cs).map fun r => (dateValue (cs.take (cs.length - r.length)), r)
    else number? cs

end Workflow.Toml
