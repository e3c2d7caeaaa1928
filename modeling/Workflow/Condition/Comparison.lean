import Workflow.Condition.Literal
import Workflow.Text.Word
import Workflow.Vars

/-!
# Comparisons in labels

An edge label may compare a variable with a literal: `status != 'done'`. The
grammar is generous. A label is, with blanks allowed between all parts:

    [if] [(] name operator literal [)]

The parts are found as follows.

* The word `if` counts as such only when blanks and a name follow it.
* A name starts with a letter, an underscore or a dollar sign and goes on with
  word characters, dollar signs, points, colons and dashes.
* Of the operators, the longest that leaves a literal behind it is taken.
* The literal is the shortest text that has nothing behind it but blanks and at
  most one closing parenthesis. It holds no line feed.

A comparison with a number, or by order, compares numbers; a missing variable or
one that is no number makes every such comparison false but an inequality.
-/

namespace Workflow

/-- A comparison operator. -/
inductive CompareOp where
  /-- equal in kind and value -/
  | strictEq
  /-- unlike in kind or value -/
  | strictNe
  /-- equal as text or truth value -/
  | looseEq
  /-- unlike as text or truth value -/
  | looseNe
  /-- at most -/
  | le
  /-- at least -/
  | ge
  /-- less -/
  | lt
  /-- greater -/
  | gt
  deriving DecidableEq, Repr

namespace CompareOp

/-- The operators and their spelling, the longer before the shorter. -/
def spellings : List (List Char × CompareOp) := [
  (['=', '=', '='], strictEq), (['!', '=', '='], strictNe), (['=', '='], looseEq),
  (['!', '='], looseNe), (['<', '='], le), (['>', '='], ge), (['<'], lt), (['>'], gt)]

/-- Whether an operator compares by order. -/
def isRelational : CompareOp → Bool
  | le | ge | lt | gt => true
  | _ => false

/-- Whether an operator says that its sides differ. -/
def isNegative : CompareOp → Bool
  | strictNe | looseNe => true
  | _ => false

/-- Whether an operator compares kinds too. -/
def isStrict : CompareOp → Bool
  | strictEq | strictNe => true
  | _ => false

/-- Compares two numbers. -/
def onNumbers (op : CompareOp) (a b : Float) : Bool :=
  match op with
  | lt => a < b
  | gt => b < a
  | le => a ≤ b
  | ge => b ≤ a
  | strictEq | looseEq => a == b
  | strictNe | looseNe => a != b

end CompareOp

/-- A comparison of a variable with a literal. -/
structure Comparison where
  /-- the variable, or a reference into it -/
  name : String
  /-- how it is compared -/
  op : CompareOp
  /-- what it is compared with -/
  literal : Literal

namespace Comparison

/-! ## The grammar -/

/-- Whether a character may start a name. -/
def isNameStart (c : Char) : Bool := Text.isAsciiLetter c || c = '_' || c = '$'

/-- Whether a character may continue a name. -/
def isNameChar (c : Char) : Bool :=
  Text.isWord c || c = '$' || c = '.' || c = ':' || c = '-'

/-- Removes a text from the front. -/
def dropFront? : List Char → List Char → Option (List Char)
  | [], cs => some cs
  | _ :: _, [] => none
  | p :: ps, c :: cs => if p = c then dropFront? ps cs else none

/-- Whether nothing follows but blanks and at most one closing mark. -/
def ends (mark : Char) (cs : List Char) : Bool :=
  match Text.trimStart cs with
  | [] => true
  | c :: rest => c = mark && rest.all Text.isBlank

/-- The shortest text, not empty and without line feeds, behind which nothing
follows but blanks and at most one closing mark. -/
def shortestBefore (mark : Char) : List Char → Option (List Char)
  | [] => none
  | c :: cs =>
    if c = '\n' then none
    else if ends mark cs then some [c]
    else (shortestBefore mark cs).map (c :: ·)

/-- The texts that remain when blanks are removed from the front, from all of
them down to `least`. -/
def afterBlanks (least : Nat) (cs : List Char) : List (List Char) :=
  let count := (cs.takeWhile Text.isBlank).length
  (List.range (count + 1 - least)).map fun k => cs.drop (count - k)

/-- The literal behind an operator. -/
def literalIn (cs : List Char) : Option (List Char) :=
  (afterBlanks 0 cs).findSome? (shortestBefore ')')

/-- The operator and the literal behind a name. -/
def tailIn (cs : List Char) : Option (CompareOp × List Char) :=
  let cs := Text.trimStart cs
  CompareOp.spellings.findSome? fun (spelling, op) =>
    (dropFront? spelling cs).bind fun rest => (literalIn rest).map fun lit => (op, lit)

/-- The comparison that starts with an optional parenthesis and a name. -/
def bodyIn (cs : List Char) : Option Comparison :=
  let cs := match cs with
    | '(' :: rest => rest
    | cs => cs
  match Text.trimStart cs with
  | [] => none
  | c :: rest =>
    if isNameStart c then
      let name := c :: rest.takeWhile isNameChar
      (tailIn (rest.dropWhile isNameChar)).map fun (op, lit) =>
        ⟨String.ofList name, op, Literal.sniff (String.ofList lit)⟩
    else none

/-- What follows the word `if` and the blanks behind it. -/
def afterIf? (cs : List Char) : Option (List Char) :=
  match cs with
  | i :: f :: b :: rest =>
    if Text.asciiLower i = 'i' && Text.asciiLower f = 'f' && Text.isBlank b then
      some (Text.trimStart rest)
    else none
  | _ => none

/-- The comparison in a label. -/
def parse? (label : String) : Option Comparison :=
  let cs := Text.trimStart label.toList
  ((afterIf? cs).bind bodyIn).or (bodyIn cs)

/-- Whether a label reads like a condition: a comparison, the word `else`, or
anything that starts with `if` and a blank. -/
def looksConditional (label : String) : Bool :=
  let s := Text.trimmed label
  Text.sameIgnoringCase s "else" ||
    (dropFront? ['i', 'f', ' '] (s.toList.map Text.asciiLower)).isSome ||
    (parse? s).isSome

/-! ## Evaluation -/

/-- The number that a value stands for. -/
def numberOf : Json → Option Float
  | .num n => some n.toFloat
  | .str s => Literal.numberIn s
  | .bool b => some (if b then 1.0 else 0.0)
  | _ => none

/-- The truth value that a value stands for where kinds do not matter. -/
def looseBool : Json → Option Bool
  | .bool b => some b
  | .num n => some (n.toFloat != 0.0)
  | .str s =>
    match Text.asciiLowered (Text.trimmed s) with
    | "true" | "1" => some true
    | "false" | "0" | "" => some false
    | _ => none
  | _ => none

/-- The text of a value where kinds do not matter. -/
def valueText : Json → String
  | .str s => s
  | .null => ""
  | v => v.compact

/-- A null value counts as no value. -/
def unlessNull : Json → Option Json
  | .null => none
  | v => some v

/-- Whether a value equals a literal; numbers are not compared here. -/
def equals (strict : Bool) (actual : Option Json) : Literal → Bool
  | .null => actual.isNone
  | .bool b =>
    if strict then
      match actual with
      | some (.bool a) => a = b
      | _ => false
    else actual.bind looseBool = some b
  | .text s =>
    if strict then actual.bind Json.asString? = some s
    else actual.map valueText = some s
  | .number _ => false

/-- Whether a comparison is between numbers. -/
def isNumeric (c : Comparison) : Bool :=
  c.op.isRelational ||
    match c.literal with
    | .number _ => true
    | _ => false

/-- Evaluates a comparison of numbers. -/
def onNumbers (c : Comparison) (actual : Option Json) : Bool :=
  match actual.bind numberOf, c.literal.asNumber? with
  | some a, some b => c.op.onNumbers a b
  | _, _ => c.op.isNegative

/-- Evaluates a comparison for the value that the name leads to. -/
def holdsFor (c : Comparison) (actual : Option Json) : Bool :=
  if c.isNumeric then c.onNumbers actual
  else equals c.op.isStrict actual c.literal != c.op.isNegative

/-- Evaluates a comparison. A variable that is null counts as missing. -/
def holds (c : Comparison) (vars : Vars) : Bool :=
  c.holdsFor ((vars.resolve? c.name).bind unlessNull)

end Comparison

end Workflow
