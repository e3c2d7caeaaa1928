import Workflow.Decimal.Shortest
import Workflow.Json.Basic

/-!
# Writing JSON

A value has a compact text, without any blanks, and an indented text, with two
blanks per level. Both write the members of an object in the order in which the
value holds them, and both share the spelling of numbers and of quoted text.

`floatLayout` fixes how floats look: positional from `0.00001` up to sixteen
digits before the point, with an exponent beyond; a whole float keeps its `.0`.
-/

namespace Workflow

/-- Floats are positional while the exponent of the first digit is from `-5` to
`15`; a whole one ends in `.0`; exponents carry their sign. -/
def floatLayout : Decimal.Layout where
  low := -5
  high := 16
  keepPoint := true
  plus := true

/-- The text of a float. Infinities and NaN have no JSON form and become null. -/
def floatText (x : Float) : List Char :=
  if x.isFinite then floatLayout.writeFloat x else ['n', 'u', 'l', 'l']

/-- Whether a whole number is one that is kept whole. -/
def isWhole (i : Int) : Bool := -2 ^ 63 ≤ i && i < 2 ^ 64

/-- The text of a number. -/
def Number.write : Number → List Char
  | .int i =>
    if isWhole i then
      if i < 0 then '-' :: Decimal.numeralText i.natAbs else Decimal.numeralText i.natAbs
    else floatText (Float.ofInt i)
  | .float x => floatText x

namespace Json

/-- The escape of a character in a quoted text; most stand for themselves. -/
def escapeChar (c : Char) : List Char :=
  if c = '"' then ['\\', '"']
  else if c = '\\' then ['\\', '\\']
  else if c = '\n' then ['\\', 'n']
  else if c = '\r' then ['\\', 'r']
  else if c = '\t' then ['\\', 't']
  else if c = '\x08' then ['\\', 'b']
  else if c = '\x0c' then ['\\', 'f']
  else if c.toNat < 0x20 then
    '\\' :: 'u' :: '0' :: '0' :: [Nat.digitChar (c.toNat / 16), Nat.digitChar (c.toNat % 16)]
  else [c]

/-- A text in quotes. -/
def quote (s : String) : List Char := '"' :: (s.toList.flatMap escapeChar ++ ['"'])

/-! ## The compact form -/

mutual

/-- The compact text of a value. -/
def write : Json → List Char
  | .null => ['n', 'u', 'l', 'l']
  | .bool true => ['t', 'r', 'u', 'e']
  | .bool false => ['f', 'a', 'l', 's', 'e']
  | .num n => n.write
  | .str s => quote s
  | .arr items => '[' :: (writeItems items ++ [']'])
  | .obj members => '\x7b' :: (writeMembers members ++ ['\x7d'])

/-- The items of an array, separated by commas. -/
def writeItems : List Json → List Char
  | [] => []
  | [v] => write v
  | v :: w :: rest => write v ++ ',' :: writeItems (w :: rest)

/-- The members of an object, separated by commas. -/
def writeMembers : List (String × Json) → List Char
  | [] => []
  | [(k, v)] => quote k ++ ':' :: write v
  | (k, v) :: m :: rest => quote k ++ ':' :: (write v ++ ',' :: writeMembers (m :: rest))

end

/-- The compact text of a value. -/
def compact (v : Json) : String := String.ofList v.write

/-! ## The indented form -/

/-- A new line at an indentation of `depth` levels. -/
def newline (depth : Nat) : List Char := '\n' :: List.replicate (2 * depth) ' '

mutual

/-- The indented text of a value that stands at the given depth. -/
def writeIndented (depth : Nat) : Json → List Char
  | .arr [] => ['[', ']']
  | .arr (v :: rest) => '[' :: (itemsIndented (depth + 1) (v :: rest) ++ newline depth ++ [']'])
  | .obj [] => ['\x7b', '\x7d']
  | .obj (m :: rest) =>
    '\x7b' :: (membersIndented (depth + 1) (m :: rest) ++ newline depth ++ ['\x7d'])
  | .null => ['n', 'u', 'l', 'l']
  | .bool true => ['t', 'r', 'u', 'e']
  | .bool false => ['f', 'a', 'l', 's', 'e']
  | .num n => n.write
  | .str s => quote s

/-- The items of an array, one a line. -/
def itemsIndented (depth : Nat) : List Json → List Char
  | [] => []
  | [v] => newline depth ++ writeIndented depth v
  | v :: w :: rest => newline depth ++ writeIndented depth v ++ ',' :: itemsIndented depth (w :: rest)

/-- The members of an object, one a line. -/
def membersIndented (depth : Nat) : List (String × Json) → List Char
  | [] => []
  | [(k, v)] => newline depth ++ quote k ++ ':' :: ' ' :: writeIndented depth v
  | (k, v) :: m :: rest =>
    newline depth ++ quote k ++ ':' :: ' ' :: (writeIndented depth v ++
      ',' :: membersIndented depth (m :: rest))

end

/-- The indented text of a value. -/
def indented (v : Json) : String := String.ofList (v.writeIndented 0)

end Json

end Workflow
