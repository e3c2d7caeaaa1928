import Workflow.Json.Decode
import Workflow.Vars.Key

/-!
# The store of a run

The variables that the scripts of one run share: JSON values under folded keys.
Every access folds the key it is given, so all spellings of a key are one slot.

A *reference* `key:path` reaches into a value. The path is split at its points;
each segment steps into an object (by the exact name, else by the first name
that folds to the same key) or into an array (by index).

Two keys are reserved: a script that sets the wait flag asks the run to stop
before it leaves the node, and may say why under the reason key.
-/

namespace Workflow

/-- The variables of a run. -/
structure Vars where
  /-- the values under their folded keys -/
  fields : Fields Json := []

namespace Vars

/-- The key of the wait flag. -/
def waitFlag : String := "waiting_wait"

/-- The key of the reason for waiting. -/
def waitReasonKey : String := "waiting_reason"

/-- No variables. -/
def empty : Vars := ⟨[]⟩

/-- The value under a key. -/
def get? (vars : Vars) (key : String) : Option Json := vars.fields.find? (Key.normalize key)

/-- Whether a key has a value; null is one. -/
def contains (vars : Vars) (key : String) : Bool := (vars.get? key).isSome

/-- Sets the value under a key. -/
def set (vars : Vars) (key : String) (value : Json) : Vars :=
  ⟨vars.fields.put (Key.normalize key) value⟩

/-- Removes a key. -/
def remove (vars : Vars) (key : String) : Vars := ⟨vars.fields.erase (Key.normalize key)⟩

/-- The variables given by names in any spelling. Names are taken in order, so of
two that fold to one key the later one stays. -/
def ofFields (raw : Fields Json) : Vars := raw.foldl (fun vars (k, v) => vars.set k v) empty

/-- The variables as an object. -/
def toJson (vars : Vars) : Json := .obj vars.fields

/-- The variables in an object; its members are taken in order of their names. -/
def decode : Json.Decoder Vars := fun v => (Json.fields Json.anyValue v).map ofFields

/-! ## References -/

/-- Splits a list at every occurrence of a separator. -/
def splitAt (separator : Char) : List Char → List (List Char)
  | [] => [[]]
  | c :: cs =>
    if c = separator then [] :: splitAt separator cs
    else
      match splitAt separator cs with
      | [] => [[c]]
      | first :: rest => (c :: first) :: rest

/-- An index in a path: digits, with an optional plus sign. -/
def index? (segment : List Char) : Option Nat :=
  let digits := match segment with
    | '+' :: rest => rest
    | cs => cs
  if digits.isEmpty || !digits.all Decimal.isDigit then none
  else
    let n := Decimal.foldDigits 0 digits
    if n < 2 ^ 64 then some n else none

/-- Steps from a value into one of its parts. -/
def step (segment : List Char) : Json → Option Json
  | .obj members =>
    let name := String.ofList segment
    (Fields.find? members name).or
      ((members.find? fun (k, _) => Key.normalize k = Key.normalize name).map Prod.snd)
  | .arr items => (index? segment).bind fun i => items[i]?
  | _ => none

/-- Steps along the segments of a path. -/
def walk : List (List Char) → Json → Option Json
  | [], v => some v
  | segment :: rest, v => (step segment v).bind (walk rest)

/-- The segments of a path; a blank path has none. -/
def segments (path : String) : List (List Char) :=
  let cs := Text.trim path.toList
  if cs.isEmpty then [] else (splitAt '.' cs).map Text.trim

/-- The value that a key and a path lead to. -/
def getPath? (vars : Vars) (key : String) (path : Option String) : Option Json :=
  (vars.get? key).bind (walk ((path.map segments).getD []))

/-- The value that a reference `key` or `key:path` leads to. -/
def resolve? (vars : Vars) (reference : String) : Option Json :=
  let cs := reference.toList
  let key := cs.takeWhile (· ≠ ':')
  match cs.dropWhile (· ≠ ':') with
  | _ :: path => vars.getPath? (String.ofList key) (some (String.ofList path))
  | [] => vars.get? reference

/-! ## Waiting -/

/-- Whether a script asked the run to wait: the flag is true, the text `true` in
any case, or a number other than zero. -/
def isWaiting (vars : Vars) : Bool :=
  match vars.get? waitFlag with
  | some (.bool b) => b
  | some (.str s) => Text.sameIgnoringCase s "true"
  | some (.num n) => n.toFloat != 0.0
  | _ => false

/-- The reason for waiting, as text. -/
def waitReason? (vars : Vars) : Option String :=
  match vars.get? waitReasonKey with
  | none => none
  | some .null => none
  | some (.str s) => some s
  | some v => some v.compact

/-- Asks the run to wait. -/
def setWaiting (vars : Vars) (reason : Option String) : Vars :=
  (vars.set waitFlag (.bool true)).set waitReasonKey (Json.orNull .str reason)

/-- Forgets that the run was asked to wait. -/
def clearWait (vars : Vars) : Vars :=
  ⟨(vars.fields.erase waitFlag).erase waitReasonKey⟩

/-- Of all keys only the two of waiting are forgotten, in any spelling. -/
theorem get?_clearWait (vars : Vars) (key : String) :
    vars.clearWait.get? key =
      if Key.normalize key = waitFlag ∨ Key.normalize key = waitReasonKey then none
      else vars.get? key := by
  rw [get?, clearWait, Fields.find?_erase, Fields.find?_erase, get?]
  by_cases hflag : waitFlag = Key.normalize key
  · rw [if_pos hflag, ite_self, if_pos (Or.inl hflag.symm)]
  · by_cases hreason : waitReasonKey = Key.normalize key
    · rw [if_pos hreason, if_pos (Or.inr hreason.symm)]
    · rw [if_neg hreason, if_neg hflag, if_neg]
      rintro (heq | heq)
      · exact hflag heq.symm
      · exact hreason heq.symm

end Vars

end Workflow
