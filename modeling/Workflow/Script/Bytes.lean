/-!
# Byte strings

The strings of scripts are strings of bytes. Most hold UTF-8, but nothing asks
them to, so they meet the texts of the library at a border: a text always has its
bytes, and bytes are a text if they are well-formed UTF-8.

`faultAt` looks at the character that starts at a position. What makes a sequence
ill-formed is told apart: bytes that can never start or go on like this, and a
character that the end of the string cuts off.
-/

namespace Workflow.Script

/-- A string of bytes. -/
abbrev Bytes := ByteArray

/-- Byte strings are compared as the core library does, whatever else is at hand. -/
instance (priority := high) decEqBytes : DecidableEq Bytes := ByteArray.instDecidableEq

namespace Bytes

/-- The bytes of a text. -/
def ofString (s : String) : Bytes := s.toUTF8

/-- The byte at a position; zero beyond the end. -/
def byteAt (b : Bytes) (i : Nat) : UInt8 := if h : i < b.size then b[i] else 0

/-- The byte at a position. -/
def get? (b : Bytes) (i : Nat) : Option UInt8 := if h : i < b.size then some b[i] else none

/-- The bytes of a list. -/
def ofList (bs : List UInt8) : Bytes := ⟨bs.toArray⟩

/-- The bytes as a list. -/
def bytes (b : Bytes) : List UInt8 := b.data.toList

/-- The bytes of a list of ASCII characters. -/
def ofAscii (cs : List Char) : Bytes :=
  cs.foldl (fun b c => b.push (UInt8.ofNat c.toNat)) ByteArray.empty

/-- One byte as a string. -/
def single (c : UInt8) : Bytes := ByteArray.empty.push c

/-! ## Well-formed UTF-8 -/

/-- What is wrong with the character at a position. -/
inductive Utf8Fault where
  /-- so many bytes can be no character -/
  | invalid (length : Nat)
  /-- the character is cut off -/
  | incomplete
  deriving DecidableEq, Repr

/-- Whether a byte goes on with a character. -/
def isContinuation (c : UInt8) : Bool := 0x80 ≤ c && c ≤ 0xBF

/-- Whether the second byte of a character fits the first. -/
def fitsSecond (first second : UInt8) : Bool :=
  if first = 0xE0 then 0xA0 ≤ second && second ≤ 0xBF
  else if first = 0xED then 0x80 ≤ second && second ≤ 0x9F
  else if first = 0xF0 then 0x90 ≤ second && second ≤ 0xBF
  else if first = 0xF4 then 0x80 ≤ second && second ≤ 0x8F
  else isContinuation second

/-- The length that the first byte of a character announces; zero if it can start
none. -/
def announcedLength (first : UInt8) : Nat :=
  if first < 0x80 then 1
  else if first < 0xC2 then 0
  else if first < 0xE0 then 2
  else if first < 0xF0 then 3
  else if first < 0xF5 then 4
  else 0

/-- The length of the character at a position, or what is wrong with it. -/
def charAt (b : Bytes) (i : Nat) : Except Utf8Fault Nat :=
  let first := b.byteAt i
  let length := announcedLength first
  if length = 0 then .error (.invalid 1)
  else if length = 1 then .ok 1
  else
    match b.get? (i + 1) with
    | none => .error .incomplete
    | some second =>
      if !fitsSecond first second then .error (.invalid 1)
      else if length = 2 then .ok 2
      else
        match b.get? (i + 2) with
        | none => .error .incomplete
        | some third =>
          if !isContinuation third then .error (.invalid 2)
          else if length = 3 then .ok 3
          else
            match b.get? (i + 3) with
            | none => .error .incomplete
            | some fourth => if isContinuation fourth then .ok 4 else .error (.invalid 3)

/-- The first fault from a position on, and where it is. -/
def findFault (b : Bytes) : Nat → Nat → Option (Nat × Utf8Fault)
  | 0, _ => none
  | fuel + 1, i =>
    if b.size ≤ i then none
    else
      match charAt b i with
      | .ok n => findFault b fuel (i + n)
      | .error e => some (i, e)

/-- Why bytes are no text. -/
def Utf8Fault.message (place : Nat) : Utf8Fault → String
  | invalid n => s!"invalid utf-8 sequence of {n} bytes from index {place}"
  | incomplete => s!"incomplete utf-8 byte sequence from index {place}"

/-- The text of bytes, or why they have none. -/
def toText (b : Bytes) : Except String String :=
  match String.fromUTF8? b with
  | some s => .ok s
  | none =>
    match findFault b (b.size + 1) 0 with
    | some (i, e) => .error (e.message i)
    | none => .error ((Utf8Fault.invalid 1).message 0)

/-- Replaces every ill-formed sequence by the replacement character, from a
position on. -/
def mend (b : Bytes) : Nat → Nat → Bytes → Bytes
  | 0, _, acc => acc
  | fuel + 1, i, acc =>
    if b.size ≤ i then acc
    else
      match charAt b i with
      | .ok n => mend b fuel (i + n) (acc ++ b.extract i (i + n))
      | .error (.invalid n) => mend b fuel (i + n) (acc ++ "\uFFFD".toUTF8)
      | .error .incomplete => acc ++ "\uFFFD".toUTF8

/-- The text of bytes, with replacement characters where they are ill-formed. -/
def toTextLossy (b : Bytes) : String :=
  match String.fromUTF8? b with
  | some s => s
  | none => (String.fromUTF8? (mend b (b.size + 1) 0 .empty)).getD ""

/-! ## Order -/

/-- Compares two strings byte by byte from a position on. -/
def compareFrom (a b : Bytes) : Nat → Nat → Ordering
  | 0, _ => .eq
  | fuel + 1, i =>
    match a.get? i, b.get? i with
    | none, none => .eq
    | none, some _ => .lt
    | some _, none => .gt
    | some x, some y => if x < y then .lt else if y < x then .gt else compareFrom a b fuel (i + 1)

/-- Compares two strings byte by byte; a string comes before its extensions. -/
def order (a b : Bytes) : Ordering := compareFrom a b (a.size + 1) 0

/-! ## Searching -/

/-- Whether a string stands at a position of another one. -/
def standsAt (part whole : Bytes) (start : Nat) : Nat → Bool
  | 0 => true
  | n + 1 => whole.byteAt (start + n) = part.byteAt n && standsAt part whole start n

/-- The first position from `start` on at which a string stands in another one. -/
def find? (whole part : Bytes) : Nat → Nat → Option Nat
  | 0, _ => none
  | fuel + 1, start =>
    if whole.size < start + part.size then none
    else if standsAt part whole start part.size then some start
    else find? whole part fuel (start + 1)

/-- A string repeated, with a separator between the copies. -/
def repeated (b separator : Bytes) : Nat → Bytes
  | 0 => .empty
  | n + 1 => (List.range n).foldl (fun acc _ => acc ++ separator ++ b) b

end Bytes

/-! ## Classes of bytes -/

namespace Byte

/-- Whether a byte is a blank. -/
def isSpace (c : UInt8) : Bool := c = 0x20 || (0x09 ≤ c && c ≤ 0x0D)

/-- Whether a byte is a decimal digit. -/
def isDigit (c : UInt8) : Bool := 0x30 ≤ c && c ≤ 0x39

/-- Whether a byte is a small letter. -/
def isLower (c : UInt8) : Bool := 0x61 ≤ c && c ≤ 0x7A

/-- Whether a byte is a capital letter. -/
def isUpper (c : UInt8) : Bool := 0x41 ≤ c && c ≤ 0x5A

/-- Whether a byte is a letter. -/
def isLetter (c : UInt8) : Bool := isLower c || isUpper c

/-- Whether a byte is a letter or a digit. -/
def isAlnum (c : UInt8) : Bool := isLetter c || isDigit c

/-- Whether a byte is a control character. -/
def isControl (c : UInt8) : Bool := c < 0x20 || c = 0x7F

/-- Whether a byte is visible, blanks apart. -/
def isVisible (c : UInt8) : Bool := 0x21 ≤ c && c ≤ 0x7E

/-- Whether a byte is visible and neither letter nor digit. -/
def isPunctuation (c : UInt8) : Bool := isVisible c && !isAlnum c

/-- The value of a hexadecimal digit. -/
def hexValue? (c : UInt8) : Option Nat :=
  if isDigit c then some (c.toNat - 0x30)
  else if 0x61 ≤ c && c ≤ 0x66 then some (c.toNat - 0x61 + 10)
  else if 0x41 ≤ c && c ≤ 0x46 then some (c.toNat - 0x41 + 10)
  else none

/-- Whether a byte is a hexadecimal digit. -/
def isHex (c : UInt8) : Bool := (hexValue? c).isSome

/-- A capital letter made small. -/
def toLower (c : UInt8) : UInt8 := if isUpper c then c + 32 else c

/-- A small letter made capital. -/
def toUpper (c : UInt8) : UInt8 := if isLower c then c - 32 else c

end Byte

end Workflow.Script
