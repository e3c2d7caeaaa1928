import Workflow.Script.Proc

/-!
# Exchange with the host

Values of scripts and JSON values are turned into each other where a script meets
its host.

* **In** (`ofJson`): null becomes nil; whole numbers that do not fit become floats;
  an array becomes a table that is marked as a list, so that it stays one when it
  is empty.
* **Out**: a value is first taken out of the heap as a tree (`Data`), which a
  recursive table has none of; what has no data in it, functions and failures, is
  left out. The tree then becomes JSON or a request, and messages say what does not
  fit.
-/

namespace Workflow.Script.Exchange

/-! ## In -/

mutual

/-- A JSON value as a value of scripts. -/
def ofJson : Json → Heap → Value × Heap
  | .null, h => (.nil, h)
  | .bool b, h => (.bool b, h)
  | .num (.int i), h =>
    (match Numeral.int64? i with
      | some n => .int n
      | none => .float (Float.ofInt i), h)
  | .num (.float x), h => (.float x, h)
  | .str s, h => h.newString s.toUTF8
  | .arr items, h =>
    let (vs, h) := ofItems items h
    let slots := vs.toArray
    h.newTable { slots := slots, hint := slots.size, behaviour := some Heap.listMark }
  | .obj members, h =>
    let (fields, h) := ofMembers members h
    h.newTable (fields.foldl (fun t (k, v) => t.set (.str k) v) (Table.withRoom 0 fields.length))

/-- The items of an array. -/
def ofItems : List Json → Heap → List Value × Heap
  | [], h => ([], h)
  | j :: rest, h =>
    let (v, h) := ofJson j h
    let (vs, h) := ofItems rest h
    (v :: vs, h)

/-- The members of an object. -/
def ofMembers : List (String × Json) → Heap → List (Bytes × Value) × Heap
  | [], h => ([], h)
  | (k, j) :: rest, h =>
    let (v, h) := ofJson j h
    let (fields, h) := ofMembers rest h
    ((k.toUTF8, v) :: fields, h)

end

/-! ## Out of the heap -/

/-- A value as a tree. -/
inductive Data where
  /-- nothing -/
  | null
  /-- a truth value -/
  | bool (b : Bool)
  /-- an integer -/
  | int (i : Int64)
  /-- a float -/
  | float (x : Float)
  /-- a string -/
  | str (s : Bytes)
  /-- the values of `1, 2, …` of a table -/
  | list (items : List Data)
  /-- all entries of a table -/
  | entries (pairs : List (Data × Data))
  deriving Inhabited

/-- Whether a value has data in it. -/
def hasData : Value → Bool
  | .closure _ | .builtin _ | .failure _ => false
  | _ => true

/-- Whether a table stands for a list: it has values from one on or is marked. -/
def isList (t : Table) : Bool := t.behaviour = some Heap.listMark || 0 < t.length

/-- The tree of a value. `path` holds the tables that the value lies in; the fuel is
used up only by a path longer than there are tables. -/
def take (h : Heap) : Nat → List Nat → Value → Option Data
  | _, _, .nil => some .null
  | _, _, .bool b => some (.bool b)
  | _, _, .int i => some (.int i)
  | _, _, .float x => some (.float x)
  | _, _, .str s => some (.str s)
  | _, _, .closure _ | _, _, .builtin _ | _, _, .failure _ => some .null
  | 0, _, .table _ => none
  | fuel + 1, path, .table r =>
    if path.contains r then none
    else
      let path := r :: path
      let t := h.table r
      if isList t then
        (t.sequence.filter hasData).mapM (take h fuel path) |>.map .list
      else
        let pairs := t.toList.filter fun (k, v) => hasData (TableKey.toValue k) && hasData v
        pairs.mapM (fun (k, v) => do
          return (← take h fuel path (TableKey.toValue k), ← take h fuel path v)) |>.map .entries

/-- The tree of a value, unless it is recursive. `path` holds the tables that the
value lies in. -/
def Data.ofValue (h : Heap) (path : List Nat) (v : Value) : Except String Data :=
  match take h (h.tables.size + 1) path v with
  | some d => .ok d
  | none => .error "recursive table detected"

/-! ## Data as JSON -/

/-- How floats look in messages: always positional. -/
def floatLayout : Decimal.Layout where
  low := -400
  high := 400
  keepPoint := true
  plus := false

/-- How messages name data that do not fit. -/
def Data.found : Data → String
  | null => "unit value"
  | bool b => s!"boolean `{b}`"
  | int i => s!"integer `{i.toInt}`"
  | float x =>
    let text := if x.isNaN then "NaN" else if x.isInf then (if x < 0.0 then "-inf" else "inf")
      else String.ofList (floatLayout.writeFloat x)
    s!"floating point `{text}`"
  | str s =>
    match s.toText with
    | .ok t => "string " ++ Text.quoted t
    | .error _ => "byte array"
  | list _ => "sequence"
  | entries _ => "map"

/-- The name of the type of data. -/
def Data.typeName : Data → String
  | null => "nil"
  | bool _ => "boolean"
  | int _ => "integer"
  | float _ => "number"
  | str _ => "string"
  | list _ | entries _ => "table"

/-- Data as the name of a member of an object; `isFirst` tells the first one. -/
def Data.toKey (isFirst : Bool) (d : Data) : Except String String :=
  let expected := if isFirst then "a string key" else "a string"
  match d with
  | str s =>
    match s.toText with
    | .ok t => .ok t
    | .error _ =>
      .error ((if isFirst then "invalid type: " else "invalid value: ") ++ "byte array, expected " ++
        expected)
  | d => .error s!"invalid type: {d.found}, expected {expected}"

mutual

/-- Data as JSON. -/
def Data.toJson : Data → Except String Json
  | .null => .ok .null
  | .bool b => .ok (.bool b)
  | .int i => .ok (.int i.toInt)
  | .float x => .ok (.float x)
  | .str s =>
    match s.toText with
    | .ok t => .ok (.str t)
    | .error _ => .error "invalid type: byte array, expected any valid JSON value"
  | .list items => (itemsToJson items).map .arr
  | .entries pairs => (pairsToJson pairs []).map .obj

/-- Items as JSON. -/
def itemsToJson : List Data → Except String (List Json)
  | [] => .ok []
  | d :: rest => do
    let v ← d.toJson
    return v :: (← itemsToJson rest)

/-- Entries as members, put into those so far. -/
def pairsToJson : List (Data × Data) → Fields Json → Except String (Fields Json)
  | [], acc => .ok acc
  | (k, d) :: rest, acc => do
    let k ← k.toKey acc.isEmpty
    let v ← d.toJson
    pairsToJson rest (acc.put k v)

end

/-! ## Data as a request -/

/-- Data as a text. -/
def Data.toText (d : Data) : Except String String :=
  match d with
  | .str s =>
    match s.toText with
    | .ok t => .ok t
    | .error _ => .error "invalid value: byte array, expected a string"
  | d => .error s!"invalid type: {d.found}, expected a string"

/-- The entries of a table, whatever it stands for. -/
def entriesOf (h : Heap) (r : Nat) : List (Value × Value) :=
  ((h.table r).toList.map fun (k, v) => (TableKey.toValue k, v)).filter fun (k, v) => hasData k && hasData v

/-- A value as headers. -/
def toHeaders (h : Heap) (path : List Nat) (v : Value) : Except String (Fields String) :=
  match v with
  | .table r => (entriesOf h r).foldlM (fun acc (k, v) => do
      let name ← (← Data.ofValue h (r :: path) k).toText
      return acc.put name (← (← Data.ofValue h (r :: path) v).toText)) []
  | v => do
    let d ← Data.ofValue h path v
    .error s!"invalid type: {d.typeName}, expected table"

/-- A request whose fields were read so far; an address is still optional. -/
structure Draft where
  /-- the method -/
  method : String := "GET"
  /-- the address -/
  url : Option String := none
  /-- the headers -/
  headers : Fields String := []
  /-- the body, as text -/
  body : Option String := none
  /-- the body, as JSON -/
  json : Option Json := none

/-- Takes up one field. -/
def Draft.take (h : Heap) (path : List Nat) (d : Draft) (k v : Value) : Except String Draft := do
  match k with
  | .str name =>
    match name.toText with
    | .ok "method" => return { d with method := ← (← Data.ofValue h path v).toText }
    | .ok "url" => return { d with url := some (← (← Data.ofValue h path v).toText) }
    | .ok "headers" => return { d with headers := ← toHeaders h path v }
    | .ok "body" => return { d with body := some (← (← Data.ofValue h path v).toText) }
    | .ok "json" => return { d with json := some (← (← Data.ofValue h path v).toJson) }
    | _ =>
      let _ ← Data.ofValue h path v
      return d
  | k => .error s!"invalid type: {(← Data.ofValue h path k).found}, expected field identifier"

/-- A table as a request. -/
def toRequest (h : Heap) (r : Nat) : Except String HttpRequest := do
  let d ← (entriesOf h r).foldlM (fun d (k, v) => Draft.take h [r] d k v) {}
  match d.url with
  | none => .error "missing field `url`"
  | some url =>
    return { method := d.method, url := url, headers := d.headers, body := d.body, json := d.json }

/-! ## Faults -/

/-- The fault of a value that does not fit. -/
def misfit (reason : String) : Fault := .host ("deserialize error: " ++ reason)

/-- A value as JSON. -/
def toJson (h : Heap) (v : Value) : Except String Json := do (← Data.ofValue h [] v).toJson

end Workflow.Script.Exchange
