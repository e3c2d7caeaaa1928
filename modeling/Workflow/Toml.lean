import Workflow.Toml.Token

/-!
# TOML documents

A document is a list of statements: assignments, table headers, and headers of
arrays of tables. Reading one keeps, for every table, how it came about, because
that decides what later statements may still do to it:

* a table with a header of its own gets no second header and no dotted keys;
* a table that was only passed through by a header may get one;
* a table made by dotted keys may get more dotted keys from the same table;
* a table or array written as a value is closed.

The result is an object. Numbers and dates are as in `Workflow.Toml.Token`.
-/

namespace Workflow.Toml

/-- How a table came about. -/
inductive Origin where
  /-- by a header of its own -/
  | header
  /-- by being on the way of a header -/
  | passed
  /-- by a dotted key -/
  | dotted
  deriving DecidableEq

/-- A part of a document. -/
inductive Item where
  /-- a value, which is closed -/
  | value (v : Json)
  /-- a table that statements build -/
  | table (origin : Origin) (members : List (String × Item))
  /-- an array of tables that headers build -/
  | tables (elements : List (List (String × Item)))

/-- A table under construction. -/
abbrev Table := Origin × List (String × Item)

/-- Changes the table that a path leads to, making tables on the way. An array of
tables is entered at its last element. -/
def update (byDots : Bool) (f : Table → Option Table) : List String → Table → Option Table
  | [], t => f t
  | k :: path, (origin, members) =>
    match Fields.find? members k with
    | none => do
      let made := if byDots then Origin.dotted else .passed
      let (o, ms) ← update byDots f path (made, [])
      return (origin, Fields.put members k (.table o ms))
    | some (.table o ms) =>
      if byDots && o = .header then none
      else do
        let (o, ms) ← update byDots f path (o, ms)
        return (origin, Fields.put members k (.table o ms))
    | some (.tables elements) =>
      match elements.reverse with
      | [] => none
      | last :: before => do
        let (_, ms) ← update byDots f path (.header, last)
        return (origin, Fields.put members k (.tables (ms :: before).reverse))
    | some (.value _) => none

/-- Assigns a value to a key of a table. The last table on a dotted path must
itself be made by dots. -/
def assign (path : List String) (key : String) (v : Item) (t : Table) : Option Table :=
  update true (fun (origin, members) =>
    if !path.isEmpty && origin ≠ .dotted then none
    else if Fields.has members key then none
    else some (origin, Fields.put members key v)) path t

/-- Opens the table of a header. -/
def openTable (path : List String) (t : Table) : Option Table :=
  match path.reverse with
  | [] => none
  | key :: before =>
    update false (fun (origin, members) =>
      match Fields.find? members key with
      | none => some (origin, Fields.put members key (.table .header []))
      | some (.table .passed ms) => some (origin, Fields.put members key (.table .header ms))
      | some _ => none) before.reverse t

/-- Opens a further element of an array of tables. -/
def openElement (path : List String) (t : Table) : Option Table :=
  match path.reverse with
  | [] => none
  | key :: before =>
    update false (fun (origin, members) =>
      match Fields.find? members key with
      | none => some (origin, Fields.put members key (.tables [[]]))
      | some (.tables es) => some (origin, Fields.put members key (.tables (es ++ [[]])))
      | some _ => none) before.reverse t

mutual

/-- A part of a document as a value. -/
def Item.toJson : Item → Json
  | .value v => v
  | .table _ members => .obj (membersJson members)
  | .tables elements => .arr (elementsJson elements)

/-- The members of a table as values. -/
def membersJson : List (String × Item) → List (String × Json)
  | [] => []
  | (k, v) :: rest => (k, v.toJson) :: membersJson rest

/-- The elements of an array of tables as values. -/
def elementsJson : List (List (String × Item)) → List Json
  | [] => []
  | ms :: rest => .obj (membersJson ms) :: elementsJson rest

end

/-! ## Reading -/

mutual

/-- Reads a value. -/
def value? : Nat → List Char → Part Json
  | 0, _ => none
  | fuel + 1, cs =>
    match cs with
    | '[' :: rest => (items? fuel rest).map fun (vs, r) => (.arr vs, r)
    | '\x7b' :: rest =>
      match skipBlanks rest with
      | '\x7d' :: r => some (.obj [], r)
      | r => (pairs? fuel (.header, []) r).map fun (t, r) => (.obj (membersJson t.2), r)
    | cs => scalar? cs

/-- Reads the items of an array up to its closing bracket. -/
def items? : Nat → List Char → Part (List Json)
  | 0, _ => none
  | fuel + 1, cs =>
    match skipLines cs.length cs with
    | ']' :: rest => some ([], rest)
    | cs =>
      (value? fuel cs).bind fun (v, rest) =>
        match skipLines rest.length rest with
        | ',' :: more => (items? fuel more).map fun (vs, r) => (v :: vs, r)
        | ']' :: more => some ([v], more)
        | _ => none

/-- Reads the pairs of a table in braces. -/
def pairs? : Nat → Table → List Char → Part Table
  | 0, _, _ => none
  | fuel + 1, t, cs =>
    (key? cs.length cs).bind fun (path, rest) =>
      match path.reverse, rest with
      | key :: before, '=' :: rest =>
        (value? fuel (skipBlanks rest)).bind fun (v, rest) =>
          (assign before.reverse key (.value v) t).bind fun t =>
            match skipBlanks rest with
            | ',' :: more => pairs? fuel t more
            | '\x7d' :: more => some (t, more)
            | _ => none
      | _, _ => none

end

/-- Reads the key in a header, up to its closing bracket. -/
def headerKey? (cs : List Char) : Part (List String) :=
  (key? cs.length cs).bind fun (path, rest) =>
    match rest with
    | ']' :: rest => some (path, rest)
    | _ => none

/-- Changes the table that the last header opened. -/
def inCurrent (current : List String) (f : Table → Option Table) (root : Table) : Option Table :=
  update false f current root

/-- Reads statements up to the end of the text. -/
def statements? : Nat → List String → Table → List Char → Option Table
  | 0, _, _, _ => none
  | fuel + 1, current, root, cs =>
    match skipLines cs.length cs with
    | [] => some root
    | '[' :: '[' :: rest => do
      let (path, rest) ← headerKey? rest
      let rest ← mark? ']' rest
      let rest ← statementEnd? rest
      let root ← openElement path root
      statements? fuel path root rest
    | '[' :: rest => do
      let (path, rest) ← headerKey? rest
      let rest ← statementEnd? rest
      let root ← openTable path root
      statements? fuel path root rest
    | cs => do
      let (path, rest) ← key? cs.length cs
      let rest ← mark? '=' rest
      let (v, rest) ← value? (2 * rest.length + 2) (skipBlanks rest)
      let rest ← statementEnd? rest
      match path.reverse with
      | [] => none
      | key :: before =>
        let root ← inCurrent current (assign before.reverse key (.value v)) root
        statements? fuel current root rest

/-- The object that a document describes. -/
def parse? (text : String) : Option Json :=
  let cs := match text.toList with
    | '\uFEFF' :: rest => rest
    | cs => cs
  (statements? (cs.length + 1) [] (.header, []) cs).map fun t => .obj (membersJson t.2)

/-! ## Writing -/

/-- How a text is quoted. -/
inductive Style where
  /-- on one line, with escapes -/
  | escaped
  /-- on several lines, with escapes -/
  | escapedLines
  /-- between single quotes -/
  | plain
  /-- between three single quotes, on one line -/
  | plainTriple
  /-- between three single quotes, on several lines -/
  | plainLines
  deriving DecidableEq

/-- The longest row of single quotes in a text. -/
def longestQuoteRow (cs : List Char) : Nat :=
  (cs.foldl (fun (best, row) c =>
    if c = '\'' then (max best (row + 1), row + 1) else (best, 0)) (0, 0)).1

/-- How a text is best quoted. Single quotes serve a text with double quotes or
backslashes in it, if nothing in it needs an escape. -/
def styleOf (cs : List Char) : Style :=
  let lines := cs.contains '\n'
  let wantsPlain := cs.contains '"' || cs.contains '\\'
  let allowsPlain := cs.all (fun c => c = '\n' || isPlain c) && longestQuoteRow cs < 3 &&
    cs.getLast? ≠ some '\''
  if wantsPlain && allowsPlain then
    if lines then .plainLines else if cs.contains '\'' then .plainTriple else .plain
  else if lines then .escapedLines else .escaped

/-- The escape for one character. -/
def escapeText (lines : Bool) (c : Char) : List Char :=
  if c = '\x08' then ['\\', 'b']
  else if c = '\t' then ['\\', 't']
  else if c = '\n' then if lines then ['\n'] else ['\\', 'n']
  else if c = '\x0c' then ['\\', 'f']
  else if c = '\r' then ['\\', 'r']
  else if c = '"' then ['\\', '"']
  else if c = '\\' then ['\\', '\\']
  else if c.toNat < 0x20 || c.toNat = 0x7F then
    '\\' :: 'u' :: (List.replicate (4 - (Nat.toDigits 16 c.toNat).length) '0' ++
      (Nat.toDigits 16 c.toNat).map Char.toUpper)
  else [c]

/-- A text in quotes. -/
def writeText (s : String) : String :=
  let cs := s.toList
  match styleOf cs with
  | .escaped => "\"" ++ String.ofList (cs.flatMap (escapeText false)) ++ "\""
  | .escapedLines => "\"\"\"\n" ++ String.ofList (cs.flatMap (escapeText true)) ++ "\"\"\""
  | .plain => "'" ++ s ++ "'"
  | .plainTriple => "'''" ++ s ++ "'''"
  | .plainLines => "'''\n" ++ s ++ "'''"

/-- A value in a section that is written out. -/
inductive Entry where
  /-- a number -/
  | number (n : Nat)
  /-- a text -/
  | text (s : String)

/-- A line that assigns a value. -/
def Entry.line (name : String) : Entry → String
  | .number n => name ++ " = " ++ toString n ++ "\n"
  | .text s => name ++ " = " ++ writeText s ++ "\n"

/-- Sections with their values, a blank line between two sections. -/
def writeSections (sections : List (String × List (String × Entry))) : String :=
  String.intercalate "\n" (sections.map fun (title, entries) =>
    "[" ++ title ++ "]\n" ++ String.join (entries.map fun (name, e) => e.line name))

end Workflow.Toml
