import Workflow.Decimal.Reading
import Workflow.Json.Basic

/-!
# Reading JSON text

`readValue` reads one value off the front of a list of characters. It keeps the
members of an object as they are written; `parse` sorts them afterwards.

* **Faults.** A text that is not JSON is refused with a `SyntaxError`: the kind
  of fault and the place where reading stopped, as what was left to read. Places
  become line and column numbers only when a message is written.
* **Depth.** Values may nest `depthLimit` containers deep and no deeper.
* **Numbers.** Whole numbers between `-2^63` and `2^64 - 1` stay whole. All
  others become floats: the digits are gathered into one 64-bit number, further
  digits count only by their place, and the result is scaled by a power of ten
  in floating point. A number too large for a float is refused.

Reading a container calls once for the container and once for each part, and
each part has a character of its own, so twice the length of the text is fuel
enough.
-/

namespace Workflow.Json

/-! ## Faults -/

/-- What can be wrong with a JSON text. -/
inductive Fault where
  /-- the text ends where a value should be -/
  | endInValue
  /-- the text ends inside an array -/
  | endInList
  /-- the text ends inside an object -/
  | endInObject
  /-- the text ends inside quotes -/
  | endInString
  /-- a name without its colon -/
  | expectedColon
  /-- items without a comma between them -/
  | expectedListEnd
  /-- members without a comma between them -/
  | expectedObjectEnd
  /-- a misspelled `null`, `true` or `false` -/
  | expectedWord
  /-- a character that starts no value -/
  | expectedValue
  /-- an unknown escape -/
  | badEscape
  /-- a malformed number -/
  | badNumber
  /-- a number too large for a float -/
  | outOfRange
  /-- a bare control character inside quotes -/
  | controlCharacter
  /-- a name that is not in quotes -/
  | keyNotText
  /-- a comma before a closing bracket -/
  | trailingComma
  /-- something after the value -/
  | trailing
  /-- the second half of a surrogate pair without the first -/
  | loneSurrogate
  /-- the first half of a surrogate pair without the second -/
  | endInSurrogate
  /-- containers nested too deep -/
  | tooDeep
  deriving DecidableEq, Repr

/-- The wording of a fault. -/
def Fault.message : Fault → String
  | endInValue => "EOF while parsing a value"
  | endInList => "EOF while parsing a list"
  | endInObject => "EOF while parsing an object"
  | endInString => "EOF while parsing a string"
  | expectedColon => "expected `:`"
  | expectedListEnd => "expected `,` or `]`"
  | expectedObjectEnd => "expected `,` or `\x7d`"
  | expectedWord => "expected ident"
  | expectedValue => "expected value"
  | badEscape => "invalid escape"
  | badNumber => "invalid number"
  | outOfRange => "number out of range"
  | controlCharacter => "control character (\\u0000-\\u001F) found while parsing a string"
  | keyNotText => "key must be a string"
  | trailingComma => "trailing comma"
  | trailing => "trailing characters"
  | loneSurrogate => "lone leading surrogate in hex escape"
  | endInSurrogate => "unexpected end of hex escape"
  | tooDeep => "recursion limit exceeded"

/-- A place in a text, by what is left to read there: `ahead` bytes past the
start of `rest`. -/
structure Place where
  /-- the part of the text that is left -/
  rest : List Char
  /-- bytes of it that count as read -/
  ahead : Nat

/-- A fault and its place. -/
structure SyntaxError where
  /-- what is wrong -/
  fault : Fault
  /-- where reading stopped -/
  place : Place

/-- The outcome of reading something off the front of a text. -/
abbrev Reading (α : Type) := Except SyntaxError (α × List Char)

/-- A fault noticed after reading up to `rest`. -/
def failAt {α : Type} (fault : Fault) (rest : List Char) : Except SyntaxError α :=
  .error ⟨fault, ⟨rest, 0⟩⟩

/-- A fault noticed by looking at the next character of `rest`. -/
def failPeek {α : Type} (fault : Fault) (rest : List Char) : Except SyntaxError α :=
  .error ⟨fault, ⟨rest, 1⟩⟩

/-! ## Places as lines and columns -/

/-- The length of a text in bytes. -/
def byteLength (cs : List Char) : Nat := cs.foldl (fun n c => n + c.utf8Size) 0

/-- Counts lines and bytes of the last line over the first `n` bytes. -/
def lineColumn : List Char → Nat → Nat → Nat → Nat × Nat
  | [], _, line, column => (line, column)
  | c :: rest, n, line, column =>
    if n = 0 then (line, column)
    else if n < c.utf8Size then (line, column + n)
    else if c = '\n' then lineColumn rest (n - 1) (line + 1) 0
    else lineColumn rest (n - c.utf8Size) line (column + c.utf8Size)

/-- The line and column of a place: lines count from one, columns count the bytes
of the line that have been read. -/
def Place.lineColumn (p : Place) (text : List Char) : Nat × Nat :=
  let total := byteLength text
  Json.lineColumn text (min total (total - byteLength p.rest + p.ahead)) 1 0

/-- How a message names a place. -/
def Place.describe (p : Place) (text : List Char) : String :=
  let (line, column) := p.lineColumn text
  s!" at line {line} column {column}"

/-! ## Blanks and words -/

/-- Whether a character is one of the four blanks of JSON. -/
def isSpace (c : Char) : Bool := c = ' ' || c = '\n' || c = '\t' || c = '\r'

/-- What is left after blanks. -/
def skipSpace (cs : List Char) : List Char := cs.dropWhile isSpace

/-- Reads the rest of a word. -/
def readWord {α : Type} (value : α) : List Char → List Char → Reading α
  | [], cs => .ok (value, cs)
  | _ :: _, [] => failAt .endInValue []
  | w :: ws, c :: cs => if c = w then readWord value ws cs else failAt .expectedWord cs

/-! ## Numbers -/

/-- The largest whole number that is kept whole. -/
def maxWhole : Nat := 2 ^ 64 - 1

/-- Gathers digits into `n` while the number stays within `maxWhole`; counts the
digits taken and returns those left over. -/
def gather : Nat → Nat → List Char → Nat × Nat × List Char
  | n, count, [] => (n, count, [])
  | n, count, c :: cs =>
    let m := n * 10 + (c.toNat - '0'.toNat)
    if m ≤ maxWhole then gather m (count + 1) cs else (n, count, c :: cs)

/-- The power of ten as a float. -/
def powerOfTen (n : Nat) : Float := Float.ofScientific 1 false n

/-- Scales a float by a power of ten, in steps that stay within range; `none` if
the result is too large. -/
def scaleFloat : Nat → Float → Int → Option Float
  | 0, x, _ => some x
  | fuel + 1, x, exp =>
    if exp.natAbs ≤ 308 then
      if 0 ≤ exp then
        let y := x * powerOfTen exp.natAbs
        if y.isInf then none else some y
      else some (x / powerOfTen exp.natAbs)
    else if x == 0.0 then some x
    else if 0 ≤ exp then none
    else scaleFloat fuel (x / powerOfTen 308) (exp + 308)

/-- The float with the given digits and exponent; `rest` is what follows it. -/
def floatOf (neg : Bool) (digits : Nat) (exp : Int) (rest : List Char) : Reading Number :=
  match scaleFloat 8 digits.toUInt64.toFloat exp with
  | some x => .ok (.float (if neg then -x else x), rest)
  | none => failAt .outOfRange rest

/-- The largest size of an exponent that is taken as it stands. -/
def maxExponent : Nat := 2 ^ 31 - 1

/-- What is left after the digit with which an exponent that begins with `n` exceeds
`maxExponent`; nothing if it does not. -/
def pastMaxExponent? : Nat → List Char → Option (List Char)
  | _, [] => none
  | n, c :: cs =>
    if Decimal.isDigit c then
      let m := n * 10 + (c.toNat - '0'.toNat)
      if maxExponent < m then some cs else pastMaxExponent? m cs
    else none

/-- Reads an exponent, the letter being read already. One that is too large to be taken
makes a number that is zero or out of range, whatever digits follow. -/
def readExponent (neg : Bool) (digits : Nat) (exp : Int) (cs : List Char) : Reading Number :=
  let (down, cs) := match cs with
    | '+' :: r => (false, r)
    | '-' :: r => (true, r)
    | r => (false, r)
  match cs with
  | [] => failAt .endInValue []
  | c :: after =>
    if Decimal.isDigit c then
      let rest := cs.dropWhile Decimal.isDigit
      match pastMaxExponent? 0 cs with
      | some past =>
        if digits ≠ 0 && !down then failAt .outOfRange past
        else .ok (.float (if neg then -0.0 else 0.0), rest)
      | none =>
        let size := Decimal.foldDigits 0 (cs.takeWhile Decimal.isDigit)
        floatOf neg digits (if down then exp - size else exp + size) rest
    else failAt .badNumber after

/-- What may follow the digits of a float: an exponent, or nothing. -/
def readFloatEnd (neg : Bool) (digits : Nat) (exp : Int) : List Char → Reading Number
  | [] => floatOf neg digits exp []
  | c :: cs =>
    if c = 'e' || c = 'E' then readExponent neg digits exp cs else floatOf neg digits exp (c :: cs)

/-- Reads the digits after a point, the point being read already. -/
def readFraction (neg : Bool) (digits : Nat) (exp : Int) (cs : List Char) : Reading Number :=
  match cs.takeWhile Decimal.isDigit with
  | [] => failPeek (if cs.isEmpty then .endInValue else .badNumber) cs
  | ds =>
    let (digits, taken, _) := gather digits 0 ds
    readFloatEnd neg digits (exp - taken) (cs.dropWhile Decimal.isDigit)

/-- The whole number of the given digits. Minus zero is a float, and so is what
is too small for a whole number. -/
def wholeOf (neg : Bool) (digits : Nat) : Number :=
  if neg then
    if digits = 0 || 2 ^ 63 < digits then .float (-(digits.toUInt64.toFloat))
    else .int (-(digits : Int))
  else .int digits

/-- Reads a number, its sign being read already. -/
def readNumber (neg : Bool) (cs : List Char) : Reading Number :=
  match cs with
  | [] => failAt .endInValue []
  | c :: after =>
    if !Decimal.isDigit c then failAt .badNumber after
    else
      let ds := cs.takeWhile Decimal.isDigit
      if c = '0' && ds.length > 1 then failPeek .badNumber after
      else
        let (digits, _, left) := gather 0 0 ds
        let rest := cs.dropWhile Decimal.isDigit
        match rest with
        | '.' :: r => readFraction neg digits left.length r
        | _ =>
          match left, rest with
          | [], 'e' :: _ => readFloatEnd neg digits 0 rest
          | [], 'E' :: _ => readFloatEnd neg digits 0 rest
          | [], _ => .ok (wholeOf neg digits, rest)
          | _ :: _, _ => readFloatEnd neg digits left.length rest

/-! ## Quoted text -/

/-- The value of a hexadecimal digit. -/
def hexValue? (c : Char) : Option Nat :=
  if '0' ≤ c ∧ c ≤ '9' then some (c.toNat - '0'.toNat)
  else if 'a' ≤ c ∧ c ≤ 'f' then some (c.toNat - 'a'.toNat + 10)
  else if 'A' ≤ c ∧ c ≤ 'F' then some (c.toNat - 'A'.toNat + 10)
  else none

/-- Reads the four digits of an escape by code. -/
def readHex (cs : List Char) : Reading Nat :=
  match cs with
  | a :: b :: c :: d :: rest =>
    match hexValue? a, hexValue? b, hexValue? c, hexValue? d with
    | some a, some b, some c, some d => .ok (((a * 16 + b) * 16 + c) * 16 + d, rest)
    | _, _, _, _ => .error ⟨.badEscape, ⟨cs, 4⟩⟩
  | _ =>
    if 4 ≤ byteLength cs then .error ⟨.badEscape, ⟨cs, 4⟩⟩ else failAt .endInString []

/-- Reads an escape by code. Characters beyond the first plane are written as two
escapes in a row, neither of which may stand alone. -/
def readCodeEscape (cs : List Char) : Reading Char :=
  match readHex cs with
  | .error e => .error e
  | .ok (n, rest) =>
    if 0xDC00 ≤ n && n ≤ 0xDFFF then failAt .loneSurrogate rest
    else if n < 0xD800 || 0xDBFF < n then .ok (Char.ofNat n, rest)
    else
      match rest with
      | [] => failPeek .endInString []
      | '\\' :: [] => failPeek .endInString []
      | '\\' :: 'u' :: low =>
        match readHex low with
        | .error e => .error e
        | .ok (m, rest) =>
          if m < 0xDC00 || 0xDFFF < m then failAt .loneSurrogate rest
          else .ok (Char.ofNat ((n - 0xD800) * 0x400 + (m - 0xDC00) + 0x10000), rest)
      | '\\' :: _ :: _ => .error ⟨.endInSurrogate, ⟨rest.drop 1, 1⟩⟩
      | _ :: _ => failPeek .endInSurrogate rest

/-- Reads an escape, the backslash being read already. -/
def readEscape : List Char → Reading Char
  | [] => failAt .endInString []
  | c :: cs =>
    if c = '"' then .ok ('"', cs)
    else if c = '\\' then .ok ('\\', cs)
    else if c = '/' then .ok ('/', cs)
    else if c = 'b' then .ok ('\x08', cs)
    else if c = 'f' then .ok ('\x0c', cs)
    else if c = 'n' then .ok ('\n', cs)
    else if c = 'r' then .ok ('\r', cs)
    else if c = 't' then .ok ('\t', cs)
    else if c = 'u' then readCodeEscape cs
    else failAt .badEscape cs

/-- Reads the rest of a quoted text, `acc` holding what was read so far in
reverse. -/
def readQuoted : Nat → List Char → List Char → Reading String
  | 0, _, cs => failAt .endInString cs
  | _ + 1, _, [] => failAt .endInString []
  | fuel + 1, acc, c :: cs =>
    if c = '"' then .ok (String.ofList acc.reverse, cs)
    else if c = '\\' then
      match readEscape cs with
      | .error e => .error e
      | .ok (d, rest) => readQuoted fuel (d :: acc) rest
    else if c.toNat < 0x20 then failAt .controlCharacter cs
    else readQuoted fuel (c :: acc) cs

/-- Reads a quoted text, the opening quote being read already. -/
def readString (cs : List Char) : Reading String := readQuoted (cs.length + 1) [] cs

/-! ## Values -/

/-- Containers may nest this deep. -/
def depthLimit : Nat := 127

/-- Reads the name of a member. -/
def readKey : List Char → Reading String
  | '"' :: cs => readString cs
  | cs => failPeek .keyNotText cs

/-- Reads the colon between a name and its value. -/
def readColon (cs : List Char) : Except SyntaxError (List Char) :=
  match skipSpace cs with
  | [] => failPeek .endInObject []
  | c :: rest => if c = ':' then .ok rest else failPeek .expectedColon (c :: rest)

mutual

/-- Reads a value that may hold `depth` levels of containers. -/
def readValue : Nat → Nat → List Char → Reading Json
  | 0, _, cs => failPeek .endInValue cs
  | fuel + 1, depth, cs =>
    match skipSpace cs with
    | [] => failPeek .endInValue []
    | c :: rest =>
      if c = 'n' then readWord .null ['u', 'l', 'l'] rest
      else if c = 't' then readWord (.bool true) ['r', 'u', 'e'] rest
      else if c = 'f' then readWord (.bool false) ['a', 'l', 's', 'e'] rest
      else if c = '"' then (readString rest).map fun (s, r) => (.str s, r)
      else if c = '-' then (readNumber true rest).map fun (n, r) => (.num n, r)
      else if Decimal.isDigit c then (readNumber false (c :: rest)).map fun (n, r) => (.num n, r)
      else if c = '[' then
        match depth with
        | 0 => failPeek .tooDeep (c :: rest)
        | depth + 1 => (readItems fuel depth true rest).map fun (vs, r) => (.arr vs, r)
      else if c = '\x7b' then
        match depth with
        | 0 => failPeek .tooDeep (c :: rest)
        | depth + 1 => (readMembers fuel depth true rest).map fun (ms, r) => (.obj ms, r)
      else failPeek .expectedValue (c :: rest)

/-- Reads the items of an array up to its closing bracket; `first` tells that no
item has been read yet. -/
def readItems : Nat → Nat → Bool → List Char → Reading (List Json)
  | 0, _, _, cs => failPeek .endInList cs
  | fuel + 1, depth, first, cs =>
    match skipSpace cs with
    | [] => failPeek .endInList []
    | c :: rest =>
      if c = ']' then .ok ([], rest)
      else
        let start : Except SyntaxError (List Char) :=
          if first then .ok (c :: rest)
          else if c = ',' then
            match skipSpace rest with
            | [] => failPeek .endInValue []
            | d :: more => if d = ']' then failPeek .trailingComma (d :: more) else .ok (d :: more)
          else failPeek .expectedListEnd (c :: rest)
        match start with
        | .error e => .error e
        | .ok cs =>
          match readValue fuel depth cs with
          | .error e => .error e
          | .ok (v, rest) =>
            (readItems fuel depth false rest).map fun (vs, r) => (v :: vs, r)

/-- Reads the members of an object up to its closing bracket. -/
def readMembers : Nat → Nat → Bool → List Char → Reading (List (String × Json))
  | 0, _, _, cs => failPeek .endInObject cs
  | fuel + 1, depth, first, cs =>
    match skipSpace cs with
    | [] => failPeek .endInObject []
    | c :: rest =>
      if c = '\x7d' then .ok ([], rest)
      else
        let start : Except SyntaxError (List Char) :=
          if first then .ok (c :: rest)
          else if c = ',' then
            match skipSpace rest with
            | [] => failPeek .endInValue []
            | d :: more => if d = '\x7d' then failPeek .trailingComma (d :: more) else .ok (d :: more)
          else failPeek .expectedObjectEnd (c :: rest)
        match start with
        | .error e => .error e
        | .ok cs =>
          match readKey cs with
          | .error e => .error e
          | .ok (k, rest) =>
            match readColon rest with
            | .error e => .error e
            | .ok rest =>
              match readValue fuel depth rest with
              | .error e => .error e
              | .ok (v, rest) =>
                (readMembers fuel depth false rest).map fun (ms, r) => ((k, v) :: ms, r)

end

/-- Fuel that suffices to read a text. -/
def fuelFor (text : List Char) : Nat := 2 * text.length + 2

/-- Refuses what follows a value but blanks. -/
def readEnd (rest : List Char) : Except SyntaxError Unit :=
  match skipSpace rest with
  | [] => .ok ()
  | c :: more => failPeek .trailing (c :: more)

/-- Reads a text that is one value and nothing else but blanks. The members of
objects stay as written. -/
def parseRaw (text : List Char) : Except SyntaxError Json :=
  match readValue (fuelFor text) depthLimit text with
  | .error e => .error e
  | .ok (v, rest) => (readEnd rest).map fun _ => v

/-- Reads a text that is one value. -/
def parse (text : List Char) : Except SyntaxError Json := (parseRaw text).map canonical

/-- The value of a text, if it is one. -/
def parse? (s : String) : Option Json :=
  match parse s.toList with
  | .ok v => some v
  | .error _ => none

/-- The message of a syntax error in a text, with its place. -/
def SyntaxError.message (e : SyntaxError) (text : List Char) : String :=
  e.fault.message ++ e.place.describe text

end Workflow.Json
