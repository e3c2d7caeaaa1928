import Workflow.Decimal.Reading
import Workflow.Text.Blank
import Workflow.Text.Lowercase

/-!
# Literals in labels

The right-hand side of a comparison is typed by its looks. Text in quotes of one
of three kinds is that text; otherwise a few words and every number mean what
they say, and all else is the text itself.
-/

namespace Workflow

/-- A literal value in a label. -/
inductive Literal where
  /-- a truth value -/
  | bool (b : Bool)
  /-- no value -/
  | null
  /-- a finite number -/
  | number (x : Float)
  /-- a text -/
  | text (s : String)

namespace Literal

/-- The characters that may quote a text. -/
def quoteMarks : List Char := ['"', '\'', '\x60']

/-- What stands between two marks of the same kind at the ends of a text. -/
def between (mark : Char) (cs : List Char) : Option (List Char) :=
  match cs with
  | c :: rest =>
    if c = mark then
      match rest.reverse with
      | d :: inner => if d = mark then some inner.reverse else none
      | [] => none
    else none
  | [] => none

/-- Removes the quotes around a text, if it has them. -/
def unquote? (cs : List Char) : Option (List Char) :=
  quoteMarks.findSome? fun mark => between mark cs

/-- Reads a literal. -/
def sniff (raw : String) : Literal :=
  let cs := Text.trim raw.toList
  match unquote? cs with
  | some inner => .text (String.ofList inner)
  | none =>
    let s := String.ofList cs
    match Text.asciiLowered s with
    | "true" => .bool true
    | "false" => .bool false
    | "null" | "undefined" | "none" => .null
    | _ =>
      match Decimal.read? s with
      | some x => if x.isFinite then .number x else .text s
      | none => .text s

/-- The number that a text writes, blanks around it aside. -/
def numberIn (s : String) : Option Float := Decimal.read? (Text.trimmed s)

/-- The number that a literal stands for. -/
def asNumber? : Literal → Option Float
  | .number x => some x
  | .text s => numberIn s
  | .bool b => some (if b then 1.0 else 0.0)
  | .null => none

end Literal

end Workflow
