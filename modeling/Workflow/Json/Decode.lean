import Workflow.Json.Syntax
import Workflow.Json.Printer
import Workflow.Text.Quoted

/-!
# Decoding: from JSON values to types of the domain

A decoder takes a value and answers a value of its own type or the first thing
that does not fit, in the order in which the value is written.

* **What does not fit** is a `Mismatch`; its `message` is the wording.
* **Where** it is noticed is a `Spot`: a trail of positions into the value, and
  a side of the part found there. A decoder never looks at text, so the same
  decoder serves values and texts.
* `decodeText` decodes a text. It turns the spot into a line and a column, and
  it keeps to reading order when a text is both malformed and of the wrong
  shape: whichever comes first in the text is reported.

Records may be given as objects or as arrays in field order. In an object,
unknown names are ignored and a name given twice is refused; a field that has a
default may be left out, but null is a value like any other.
-/

namespace Workflow.Json

/-! ## Mismatches -/

/-- The ways in which a value does not fit. -/
inductive Mismatch where
  /-- a value of another kind than expected -/
  | wrongType (found : Json) (expected : String)
  /-- a value of the right kind outside its range -/
  | wrongValue (found : Json) (expected : String)
  /-- an array with too few items for a record -/
  | tooShort (length : Nat) (expected : String)
  /-- an array with more items than a record has fields -/
  | tooLong (length : Nat)
  /-- a name that is none of the known ones -/
  | unknownVariant (name : String) (known : List String)
  /-- a value that cannot name a variant -/
  | notVariant (found : Json)
  /-- an object that should have exactly one member -/
  | notSingle
  /-- a required field that is absent -/
  | missing (field : String)
  /-- a field given twice -/
  | duplicate (field : String)
  /-- a text that its own grammar refuses -/
  | malformed (reason : String)

/-- How a message names a value that does not fit. -/
def found : Json → String
  | .null => "null"
  | .bool b => s!"boolean `{b}`"
  | .num (.int i) => s!"integer `{i}`"
  | .num (.float x) => s!"floating point `{String.ofList (Number.write (.float x))}`"
  | .str s => "string " ++ Text.quoted s
  | .arr _ => "sequence"
  | .obj _ => "map"

/-- A list of names as a message shows it. -/
def namesText (names : List String) : String :=
  let ticked := names.map fun n => s!"`{n}`"
  match ticked with
  | [] => "there are no variants"
  | [a] => s!"expected {a}"
  | [a, b] => s!"expected {a} or {b}"
  | _ => "expected one of " ++ String.intercalate ", " ticked

/-- The wording of a mismatch. -/
def Mismatch.message : Mismatch → String
  | wrongType v expected => s!"invalid type: {found v}, expected {expected}"
  | wrongValue v expected => s!"invalid value: {found v}, expected {expected}"
  | tooShort n expected => s!"invalid length {n}, expected {expected}"
  | tooLong n => s!"invalid length {n}, expected fewer elements in array"
  | unknownVariant name known => s!"unknown variant `{name}`, {namesText known}"
  | notVariant v => s!"invalid type: {found v}, expected string or map"
  | notSingle => "invalid value: map, expected map with a single key"
  | missing field => s!"missing field `{field}`"
  | duplicate field => s!"duplicate field `{field}`"
  | malformed reason => reason

/-- The wording of a mismatch that was noticed while reading text: there, an item
too many is noticed as text that should not follow, and what names no variant as
a value that cannot start here. -/
def Mismatch.messageInText : Mismatch → String
  | tooLong _ => Fault.trailing.message
  | notVariant _ => Fault.expectedValue.message
  | m => m.message

/-! ## Spots -/

/-- The side of a part of a value on which a mismatch is noticed. -/
inductive Side where
  /-- at its first character -/
  | start
  /-- at the value itself: after a scalar, at the bracket of a container -/
  | value
  /-- after the opening bracket -/
  | inside
  /-- after the name of a member -/
  | name (index : Nat)
  /-- after a member -/
  | member (index : Nat)
  /-- after the closing bracket -/
  | close

/-- A mismatch and where it was noticed. The trail holds the positions to follow
into the value, outermost first. -/
structure DecodeError where
  /-- what does not fit -/
  mismatch : Mismatch
  /-- the positions that lead to the part in question -/
  trail : List Nat
  /-- the side of that part -/
  side : Side

/-- A decoder for values of a type. -/
abbrev Decoder (α : Type) := Json → Except DecodeError α

/-- Fails at the value under decoding. -/
def refuse {α : Type} (m : Mismatch) (side : Side) : Except DecodeError α := .error ⟨m, [], side⟩

/-- Fails because the value is of another kind than expected. -/
def wrongType {α : Type} (v : Json) (expected : String) : Except DecodeError α :=
  refuse (.wrongType v expected) .value

/-- Runs a decoder on the part at a position. -/
def under {α : Type} (index : Nat) (d : Decoder α) (v : Json) : Except DecodeError α :=
  match d v with
  | .ok a => .ok a
  | .error e => .error { e with trail := index :: e.trail }

/-! ## Decoders for single values -/

/-- Any value; kept in canonical form. -/
def anyValue : Decoder Json := fun v => .ok v.canonical

/-- A text. -/
def text : Decoder String
  | .str s => .ok s
  | v => wrongType v "a string"

/-- A value, or null for none. -/
def optional {α : Type} (d : Decoder α) : Decoder (Option α)
  | .null => .ok none
  | v => (d v).map some

/-- A whole number from zero to `max`; `name` is what messages call the range. -/
def bounded (max : Nat) (name : String) : Decoder Nat
  | .num (.int i) =>
    if 0 ≤ i ∧ i ≤ max then .ok i.toNat else refuse (.wrongValue (.num (.int i)) name) .value
  | v => wrongType v name

/-- Decodes the items of an array, counting positions from `index`. -/
def decodeItems {α : Type} (d : Decoder α) : Nat → List Json → Except DecodeError (List α)
  | _, [] => .ok []
  | index, v :: rest => do
    let a ← under index d v
    let as ← decodeItems d (index + 1) rest
    .ok (a :: as)

/-- A list, from an array. -/
def list {α : Type} (d : Decoder α) : Decoder (List α)
  | .arr items => decodeItems d 0 items
  | v => wrongType v "a sequence"

/-- Decodes the members of an object into fields, counting positions from
`index`; of two members with one name the later one stays. -/
def decodeMembers {α : Type} (d : Decoder α) :
    Nat → List (String × Json) → Fields α → Except DecodeError (Fields α)
  | _, [], acc => .ok acc
  | index, (k, v) :: rest, acc => do
    let a ← under index d v
    decodeMembers d (index + 1) rest (acc.put k a)

/-- Fields, from an object. -/
def fields {α : Type} (d : Decoder α) : Decoder (Fields α)
  | .obj members => decodeMembers d 0 members []
  | v => wrongType v "a map"

/-- One of the named values. A text names it; so does an object with that name
as its only member and null as the member's value. -/
def variant {α : Type} (known : List (String × α)) : Decoder α := fun v =>
  let resolve (name : String) (side : Side) : Except DecodeError α :=
    match Fields.find? known name with
    | some a => .ok a
    | none => refuse (.unknownVariant name (known.map Prod.fst)) side
  match v with
  | .str s => resolve s .value
  | .obj [(k, content)] => do
    let a ← resolve k (.name 0)
    let _ ← under 0 (fun
      | .null => .ok ()
      | other => wrongType other "unit") content
    .ok a
  | .obj _ => refuse .notSingle .value
  | other => refuse (.notVariant other) .start

/-! ## Decoders for records -/

/-- Fills the slot of a field from a member; a slot is filled once. -/
def fill {α : Type} (slot : Option α) (field : String) (index : Nat) (d : Decoder α) (v : Json) :
    Except DecodeError (Option α) :=
  match slot with
  | some _ => refuse (.duplicate field) (.name index)
  | none => (under index d v).map some

/-- The value of a field that must be there. -/
def require {α : Type} (slot : Option α) (field : String) : Except DecodeError α :=
  match slot with
  | some a => .ok a
  | none => refuse (.missing field) .close

/-- Runs a step on each member of an object in order, with its position. -/
def foldMembers {δ : Type} (step : δ → Nat → String → Json → Except DecodeError δ) :
    Nat → List (String × Json) → δ → Except DecodeError δ
  | _, [], acc => .ok acc
  | index, (k, v) :: rest, acc => do
    let acc ← step acc index k v
    foldMembers step (index + 1) rest acc

/-- The field at a position of an array that stands for a record. -/
def item {α : Type} (items : List Json) (index : Nat) (expected : String) (d : Decoder α) :
    Except DecodeError α :=
  match items[index]? with
  | some v => under index d v
  | none => refuse (.tooShort index expected) .close

/-- The field at a position of an array, or its default if the array ends
before it. -/
def itemOr {α : Type} (items : List Json) (index : Nat) (default : α) (d : Decoder α) :
    Except DecodeError α :=
  match items[index]? with
  | some v => under index d v
  | none => .ok default

/-- Refuses an array with more items than the record has fields. -/
def noMoreThan (items : List Json) (count : Nat) : Except DecodeError Unit :=
  if items.length ≤ count then .ok ()
  else .error ⟨.tooLong items.length, [count], .start⟩

/-- A record, from an object by `ofMembers` or from an array by `ofItems`. -/
def record {α : Type} (name : String) (ofMembers : List (String × Json) → Except DecodeError α)
    (ofItems : List Json → Except DecodeError α) : Decoder α
  | .obj members => ofMembers members
  | .arr items => ofItems items
  | v => wrongType v name

/-- A record that is only ever given as an object. -/
def recordOfMembers {α : Type} (name : String)
    (ofMembers : List (String × Json) → Except DecodeError α) : Decoder α
  | .obj members => ofMembers members
  | .arr items => refuse (.wrongType (.arr items) name) .inside
  | v => wrongType v name

/-! ## Decoding a text -/

/-- What is left at the value of the member or item at a position, the text
starting inside the brackets of its container; or where it would be if only a comma
were there. -/
def seekPart (fuel : Nat) (isObject : Bool) : Nat → List Char → Option (List Char)
  | index, cs => do
    let cs := skipSpace cs
    let atValue ←
      if isObject then
        match readKey cs with
        | .ok (_, rest) => (readColon rest).toOption.map skipSpace
        | .error _ => none
      else some cs
    match index with
    | 0 => some atValue
    | index + 1 =>
      match readValue fuel depthLimit atValue with
      | .ok (_, rest) =>
        match skipSpace rest with
        | ',' :: more => seekPart fuel isObject index more
        | rest => if index = 0 then some rest else none
      | .error _ => none

/-- What is left at the part that a trail leads to. -/
def seek (fuel : Nat) : List Nat → List Char → Option (List Char)
  | [], cs => some (skipSpace cs)
  | index :: trail, cs =>
    match skipSpace cs with
    | '[' :: rest => (seekPart fuel false index rest).bind (seek fuel trail)
    | '\x7b' :: rest => (seekPart fuel true index rest).bind (seek fuel trail)
    | _ => none

/-- Skips blanks and a closing bracket, if one follows. -/
def skipClose (cs : List Char) : List Char :=
  match skipSpace cs with
  | '\x7d' :: rest => rest
  | ']' :: rest => rest
  | rest => rest

/-- What is left after a value. -/
def skipValue (fuel : Nat) (cs : List Char) : List Char :=
  match readValue fuel depthLimit cs with
  | .ok (_, rest) => rest
  | .error e => e.place.rest

/-- What is left just inside the brackets of the container at the front, before
the name of the member at a position. -/
def seekName (fuel : Nat) (index : Nat) (cs : List Char) : Option (List Char) :=
  match index with
  | 0 => some (skipSpace (cs.drop 1))
  | index + 1 => do
    let v ← seekPart fuel true index (cs.drop 1)
    match skipSpace (skipValue fuel v) with
    | ',' :: more => some (skipSpace more)
    | _ => none

/-- The place in a text at which a decoding error is noticed. -/
def DecodeError.place (e : DecodeError) (text : List Char) : Place :=
  let fuel := fuelFor text
  match seek fuel e.trail text with
  | none => ⟨[], 0⟩
  | some cs =>
    match e.side with
    | .start => ⟨cs, 1⟩
    | .value =>
      match cs with
      | '[' :: _ => ⟨cs, 0⟩
      | '\x7b' :: _ => ⟨cs, 0⟩
      | _ => ⟨skipValue fuel cs, 0⟩
    | .inside => ⟨skipClose (cs.drop 1), 0⟩
    | .name index =>
      match seekName fuel index cs with
      | some ('"' :: rest) =>
        match readString rest with
        | .ok (_, rest) => ⟨skipClose rest, 0⟩
        | .error e => e.place
      | _ => ⟨[], 0⟩
    | .member index =>
      match seekPart fuel true index (cs.drop 1) with
      | some v => ⟨skipClose (skipValue fuel v), 0⟩
      | none => ⟨[], 0⟩
    | .close => ⟨skipValue fuel cs, 0⟩

/-! ### Texts that break off

When a text is malformed, the part before the fault may already fail to decode.
`salvage` rebuilds what was complete before the fault: the containers that were
still open are closed where the text breaks, and the part that was being read is
null. The trail to that part is the *break*. An error found in the salvaged value
counts only if the reader would have met it before the break. An array that does not
end where it may gets a null for the item that follows instead: a record that is full
refuses it, whatever it is. -/

/-- The value complete before the fault and the trail to the break. -/
def salvage : Nat → List Char → Json × List Nat
  | 0, _ => (.null, [])
  | fuel + 1, cs =>
    match skipSpace cs with
    | '[' :: rest => go fuel false 0 [] [] rest
    | '\x7b' :: rest => go fuel true 0 [] [] rest
    | _ => (.null, [])
where
  /-- Collects complete parts of a container, in reverse. -/
  go : Nat → Bool → Nat → List Json → List (String × Json) → List Char → Json × List Nat
    | 0, _, _, _, _, _ => (.null, [])
    | fuel + 1, isObject, index, items, members, cs =>
      let cs := skipSpace cs
      let close (items : List Json) (members : List (String × Json)) : Json :=
        if isObject then .obj members.reverse else .arr items.reverse
      let named : Option (String × List Char) :=
        if isObject then
          match readKey cs with
          | .ok (k, rest) => some (k, rest)
          | .error _ => none
        else if cs.head? = some ']' || (cs.isEmpty && items.isEmpty) then none
        else some ("", cs)
      match named with
      | none => (close items members, [index])
      | some (k, rest) =>
        let atValue := if isObject then (readColon rest).toOption else some rest
        match atValue with
        | none => (close (.null :: items) ((k, .null) :: members), [index])
        | some rest =>
          match readValue (fuelFor rest) depthLimit rest with
          | .error _ =>
            let (v, trail) := salvage fuel rest
            (close (v :: items) ((k, v) :: members), index :: trail)
          | .ok (v, rest) =>
            let items := v :: items
            let members := (k, v) :: members
            match skipSpace rest with
            | ',' :: more => go fuel isObject (index + 1) items members more
            | [] => (close items members, [index + 1])
            | _ => (close (.null :: items) members, [index + 1])

/-- Whether an error in a salvaged value would be met before the break. -/
def DecodeError.before (e : DecodeError) (breakTrail : List Nat) : Bool :=
  if e.trail.isPrefixOf breakTrail then
    match e.side with
    | .close => false
    | .value | .inside => e.trail ≠ breakTrail
    | .start =>
      match e.mismatch with
      | .tooLong _ => true
      | _ => e.trail ≠ breakTrail
    | .name index => index ≤ (breakTrail.drop e.trail.length).headD 0
    | .member index => index < (breakTrail.drop e.trail.length).headD 0
  else true

/-- Why a text does not give a value of the wanted type. -/
inductive TextError where
  /-- the text is not JSON -/
  | syntaxFault (e : SyntaxError)
  /-- the value does not fit -/
  | mismatch (e : DecodeError)

/-- Decodes a text. What follows the value is looked at only once the value fits. -/
def decodeText {α : Type} (d : Decoder α) (text : List Char) : Except TextError α :=
  match readValue (fuelFor text) depthLimit text with
  | .ok (v, rest) =>
    match d v with
    | .error e => .error (.mismatch e)
    | .ok a =>
      match readEnd rest with
      | .ok _ => .ok a
      | .error fault => .error (.syntaxFault fault)
  | .error fault =>
    let (v, breakTrail) := salvage (fuelFor text) text
    match d v with
    | .ok _ => .error (.syntaxFault fault)
    | .error e => .error (if e.before breakTrail then .mismatch e else .syntaxFault fault)

/-- The message of a decoding error in a text, with its place. -/
def TextError.message (text : List Char) : TextError → String
  | .syntaxFault e => e.message text
  | .mismatch e => e.mismatch.messageInText ++ (e.place text).describe text

/-- The message of a decoding error in a value. -/
def DecodeError.message (e : DecodeError) : String := e.mismatch.message

end Workflow.Json
