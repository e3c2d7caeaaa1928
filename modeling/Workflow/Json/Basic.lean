import Workflow.Fields

/-!
# JSON values

The one dynamic type of the library: what scripts store, what definitions carry
in their free-form parts and what travels in events.

* A number is a whole number or a float, and the two are told apart even when
  they are equal: `1` and `1.0` are different values that print differently.
* An object is the list of its members. Text may give members in any order and
  more than once; `canonical` sorts them at every depth, of equal names keeping
  the last, and everything that is stored is canonical.
-/

namespace Workflow

/-- A JSON number. Whole numbers lie between `-2^63` and `2^64 - 1`; a larger
one is read as a float. -/
inductive Number where
  /-- a whole number -/
  | int : Int → Number
  /-- a finite float -/
  | float : Float → Number

/-- The numbers as floats, the nearest one for a large whole number. -/
def Number.toFloat : Number → Float
  | .int i => Float.ofInt i
  | .float x => x

/-- Two numbers are the same if they are of one kind and equal. -/
def Number.same : Number → Number → Bool
  | .int i, .int j => i = j
  | .float x, .float y => x == y
  | _, _ => false

/-- A JSON value. -/
inductive Json where
  /-- the null value -/
  | null
  /-- a truth value -/
  | bool (b : Bool)
  /-- a number -/
  | num (n : Number)
  /-- a text -/
  | str (s : String)
  /-- an array -/
  | arr (items : List Json)
  /-- an object: its members in order -/
  | obj (members : List (String × Json))
  deriving Inhabited

namespace Json

/-- A whole number. -/
def int (i : Int) : Json := .num (.int i)

/-- A count. -/
def nat (n : Nat) : Json := .num (.int n)

/-- A float. Infinities and NaN have no JSON form and become null. -/
def float (x : Float) : Json := if x.isFinite then .num (.float x) else .null

/-- The text of a text value. -/
def asString? : Json → Option String
  | .str s => some s
  | _ => none

/-- The items of an array. -/
def asArray? : Json → Option (List Json)
  | .arr items => some items
  | _ => none

/-- The members of an object. -/
def asObject? : Json → Option (List (String × Json))
  | .obj members => some members
  | _ => none

/-- The member of an object under a name. -/
def member? (v : Json) (name : String) : Option Json :=
  match v with
  | .obj members => Fields.find? members name
  | _ => none

/-- An optional value, null if absent. -/
def orNull {α : Type} (f : α → Json) : Option α → Json
  | some a => f a
  | none => .null

mutual

/-- Sorts the members of every object by name; of two members with one name the
later one stays. -/
def canonical : Json → Json
  | .arr items => .arr (canonicalItems items)
  | .obj members => .obj (canonicalMembers members [])
  | v => v

/-- `canonical` on each item. -/
def canonicalItems : List Json → List Json
  | [] => []
  | v :: rest => canonical v :: canonicalItems rest

/-- `canonical` on each member, put into the fields collected so far. -/
def canonicalMembers : List (String × Json) → Fields Json → Fields Json
  | [], acc => acc
  | (k, v) :: rest, acc => canonicalMembers rest (acc.put k (canonical v))

end

mutual

/-- Whether two canonical values are the same, number by number and member by
member. It is not equality of terms only because a float may differ from itself
and equal another: `0.0` and `-0.0` are the same. -/
def same : Json → Json → Bool
  | .null, .null => true
  | .bool a, .bool b => a = b
  | .num a, .num b => a.same b
  | .str a, .str b => a = b
  | .arr as, .arr bs => sameItems as bs
  | .obj as, .obj bs => sameMembers as bs
  | _, _ => false

/-- `same` item by item. -/
def sameItems : List Json → List Json → Bool
  | [], [] => true
  | a :: as, b :: bs => same a b && sameItems as bs
  | _, _ => false

/-- `same` member by member, names included. -/
def sameMembers : List (String × Json) → List (String × Json) → Bool
  | [], [] => true
  | (j, a) :: as, (k, b) :: bs => j = k && same a b && sameMembers as bs
  | _, _ => false

end

end Json

end Workflow
