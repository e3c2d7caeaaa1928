import Workflow.Script.Compiler
import Workflow.Script.Library.Arguments

/-!
# Basic functions

The functions that are found under global names.
-/

namespace Workflow.Script.Library

open Arguments

/-! ## Chunks -/

/-- How messages name a source: in full if it is short and on one line. -/
def chunkText (name : Bytes) : Bytes :=
  let room := 60
  match Bytes.bytes name with
  | 0x3D :: rest => Bytes.ofList (rest.take (room - 1))
  | 0x40 :: rest =>
    if rest.length < room then Bytes.ofList rest
    else "...".toUTF8 ++ Bytes.ofList (rest.drop (rest.length + 4 - room))
  | bytes =>
    let line := bytes.takeWhile (· ≠ 0x0A)
    let limit := room - 15
    let inner := if line.length = bytes.length && bytes.length < limit then name
      else Bytes.ofList (line.take limit) ++ "...".toUTF8
    "[string \"".toUTF8 ++ inner ++ "\"]".toUTF8

/-- Why a source is refused, in words. -/
def syntaxMessage (chunk : Bytes) : SyntaxFault → Bytes
  | .malformed line reason =>
    chunk ++ (":" ++ toString line ++ ": ").toUTF8 ++ reason
  | .tooDeep => "C stack overflow".toUTF8

/-- Adds the code of a source to the heap and makes it a function over a table of
globals. -/
def loadSource (name source : Bytes) (environment : Value) (h : Heap) :
    Except Bytes Value × Heap :=
  let chunk := chunkText name
  let codes := h.codes
  match compile chunk source codes with
  | .error e => (.error (syntaxMessage chunk e), h)
  | .ok codes =>
    let h := { h with codes := codes, used := h.used + 8 * source.size }
    let (c, h) := h.newCell environment
    let (f, h) := h.newClosure (.script (codes.size - 1) #[c])
    (.ok f, h)

/-- Gathers the pieces of a source that a function delivers, or the value that this
fails with. -/
def gather (f : Value) : Nat → Bytes → Proc (Except Value Bytes)
  | 0, acc => pure (.ok acc)
  | fuel + 1, acc => do
    match ← Proc.protect f [] none with
    | .error v => return .error v
    | .ok vs =>
      let piece := vs.headD .nil
      match piece.toBytes? with
      | some s =>
        if s.size = 0 then return .ok acc
        else
          Proc.reserve (acc.size + s.size)
          gather f fuel (acc ++ s)
      | none =>
        if piece.isNil then return .ok acc
        else
          -- a fault that blames the place where the source is asked for
          let fault := [.text "reader function must return a string", .int 2]
          match ← Proc.protect (.builtin .error) fault none with
          | .error v => return .error v
          | .ok _ => return .ok acc

/-- What the sources begin with that hold compiled code. -/
def compiledMark : Bytes := "\x1bLua".toUTF8

/-- Why a source is refused before it is read, if it is: its kind may not be allowed,
and compiled code is never complete. -/
def refusal? (name source mode : Bytes) : Option Bytes :=
  let compiled := source.data[0]? = some 0x1B
  let (letter, kind) : UInt8 × String := if compiled then (0x62, "binary") else (0x74, "text")
  if !(Bytes.bytes mode).contains letter then
    some (("attempt to load a " ++ kind ++ " chunk (mode is '").toUTF8 ++ mode ++ "')".toUTF8)
  else if compiled then
    let shown := match Bytes.bytes name with
      | 0x40 :: rest | 0x3D :: rest => Bytes.ofList rest
      | 0x1B :: _ => "binary string".toUTF8
      | _ => name
    let reason := if source.size < 4 || source.extract 0 4 = compiledMark
      then "truncated chunk" else "not a binary chunk"
    some (shown ++ (": bad binary format (" ++ reason ++ ")").toUTF8)
  else none

/-- Makes a function of a source. -/
def load (args : Arguments) : Proc Arguments := do
  let chunk := args.nth 1
  let mode ← args.stringOr 3 "bt"
  let defaultName := (chunk.toBytes?).getD "=(load)".toUTF8
  let name ← if args.isNilAt 2 then pure defaultName else args.string 2
  let environment := if args.lacks 4 then Value.table Heap.globals else args.nth 4
  let gathered ← match chunk.toBytes? with
    | some s => pure (.ok s)
    | none =>
      if Operators.isFunction chunk then gather chunk (2 ^ 30) .empty
      else blameType args 1 "function"
  match gathered with
  | .error v => return [.nil, v]
  | .ok source =>
    match refusal? name source mode with
    | some m => return [.nil, .str m]
    | none =>
      match ← Proc.alter (loadSource name source environment) with
      | .ok f => return [f]
      | .error m => return [.nil, .str m]

/-- Why a file cannot be read: there are none. -/
def loadfile (args : Arguments) : Proc Arguments := do
  if args.isNilAt 1 then return [.nil, .text "cannot read stdin"]
  let name ← args.string 1
  return [.nil, .str ("cannot open ".toUTF8 ++ name)]

/-- Fails, as there are no files. -/
def dofile (args : Arguments) : Proc Arguments := do
  let name ← args.stringOr 1 "stdin"
  Proc.fail (.value (.str ("cannot open ".toUTF8 ++ name)))

/-! ## Faults -/

/-- Fails with a value. -/
def error (args : Arguments) : Proc Arguments := do
  let level ← args.intOr 2 1
  let v := args.nth 1
  match v with
  | .str _ => if 0 < level then Proc.fail (.placed level.toNatClampNeg v) else Proc.fail (.value v)
  | _ => Proc.fail (.value v)

/-- Fails if the first argument is false. -/
def assert (args : Arguments) : Proc Arguments := do
  if (args.nth 1).isTruthy then return args
  let _ ← args.any 1
  match args.tail with
  | [] => Proc.failWith "assertion failed!"
  | .str s :: _ => Proc.fail (.placed 1 (.str s))
  | v :: _ => Proc.fail (.value v)

/-- Calls a function and tells whether it failed. -/
def pcall (args : Arguments) : Proc Arguments := do
  match args with
  | [] => Proc.fail (.value (.text "not enough arguments to pcall"))
  | f :: rest =>
    match ← Proc.protect f rest none with
    | .ok vs => return .bool true :: vs
    | .error v => return [.bool false, v]

/-- Calls a function and tells whether it failed and what a handler makes of it. -/
def xpcall (args : Arguments) : Proc Arguments := do
  match args with
  | f :: handler :: rest =>
    match ← Proc.protect f rest (some handler) with
    | .ok vs => return .bool true :: vs
    | .error v => return [.bool false, v]
  | _ => Proc.fail (.value (.text "not enough arguments to xpcall"))

/-! ## Types and text -/

/-- The name of the type of a value. -/
def type (args : Arguments) : Proc Arguments := do return [.text (← args.any 1).typeName]

/-- The text of a value. -/
def tostring (args : Arguments) : Proc Arguments := do
  let s ← Operators.toText (← args.any 1)
  return [← Proc.string s]

/-- The value of a digit in bases up to 36. -/
def digitValue? (c : UInt8) : Option Nat :=
  if Byte.isDigit c then some (c.toNat - 0x30)
  else if Byte.isLetter c then some ((Byte.toLower c).toNat - 0x61 + 10)
  else none

/-- The integer that digits of a base write; it wraps. -/
def readInBase? (base : Nat) (s : Bytes) : Option Int64 :=
  let (isNegative, digits) := Numeral.splitSign (Numeral.trimBlanks (Bytes.bytes s))
  if digits.isEmpty then none
  else
    let n := digits.foldl (fun n c =>
      match n, digitValue? c with
      | some n, some d => if d < base then some ((n * base + d) % 2 ^ 64) else none
      | _, _ => none) (some 0)
    n.map fun n =>
      let i := (UInt64.ofNat n).toInt64
      if isNegative then -i else i

/-- The number that a value is or writes, perhaps in another base. -/
def tonumber (args : Arguments) : Proc Arguments := do
  if args.isNilAt 2 then
    let v ← args.any 1
    match v.toNumeral? with
    | some n => return [.ofNumeral n]
    | none => return [.nil]
  else
    let base ← args.int 2
    match args.nth 1 with
    | .str s =>
      if base < 2 || 36 < base then blame 2 "base out of range"
      else
        match readInBase? base.toNatClampNeg s with
        | some i => return [.int i]
        | none => return [.nil]
    | _ => blameType args 1 "string"

/-! ## Tables -/

/-- The object that says how a value behaves, or what it shows in its place. -/
def getmetatable (args : Arguments) : Proc Arguments := do
  let v ← args.any 1
  Proc.look fun h =>
    match h.behaviour? v with
    | none =>
      match v with
      | .failure _ => [.bool false]
      | _ => [.nil]
    | some r =>
      match h.handler v "__metatable" with
      | .nil => [.table r]
      | shown => [shown]

/-- Sets the object that says how a table behaves. -/
def setmetatable (args : Arguments) : Proc Arguments := do
  let r ← args.table 1
  let behaviour ← match args.nth 2 with
    | .table b => pure (some b)
    | .nil => if args.lacks 2 then blameType args 2 "nil or table" else pure none
    | _ => blameType args 2 "nil or table"
  let shown ← Proc.look fun h => h.handler (.table r) "__metatable"
  if !shown.isNil then Proc.failWith "cannot change a protected metatable"
  Proc.change fun h => h.update r fun t => { t with behaviour := behaviour }
  return [.table r]

/-- Whether two values are the same. -/
def rawequal (args : Arguments) : Proc Arguments := do
  return [.bool ((← args.any 1).rawEq (← args.any 2))]

/-- The length of a table or string, whatever their behaviour. -/
def rawlen (args : Arguments) : Proc Arguments := do
  match args.nth 1 with
  | .table r => return [.nat (← Proc.alter fun h => h.length r)]
  | .str s => return [.nat s.size]
  | _ => blameType args 1 "table or string"

/-- The value of a table under a key, whatever its behaviour. -/
def rawget (args : Arguments) : Proc Arguments := do
  let r ← args.table 1
  let key ← args.any 2
  return [← Proc.look fun h => h.getAt r key]

/-- Sets the value of a table under a key, whatever its behaviour. -/
def rawset (args : Arguments) : Proc Arguments := do
  let r ← args.table 1
  let key ← args.any 2
  let v ← args.any 3
  Operators.rawSet r key v
  return [.table r]

/-- The entry of a table after a key. -/
def next (args : Arguments) : Proc Arguments := do
  let r ← args.table 1
  let key := args.nth 2
  let found ← Proc.look fun h =>
    match key with
    | .nil => (h.table r).next none
    | k => (k.toKey?).bind fun k => (h.table r).next (some k)
  match found with
  | none => Proc.fail (.operation "invalid key to 'next'".toUTF8)
  | some none => return [.nil]
  | some (some (k, v)) => return [k.toValue, v]

/-- What a loop over all entries needs. -/
def pairs (args : Arguments) : Proc Arguments := do
  let v ← args.any 1
  match ← Proc.look fun h => h.handler v "__pairs" with
  | .nil => return [.builtin .next, v, .nil]
  | f =>
    let vs ← Proc.call f [v]
    return [vs.getD 0 .nil, vs.getD 1 .nil, vs.getD 2 .nil]

/-- What a loop over the values of `1, 2, …` needs. -/
def ipairs (args : Arguments) : Proc Arguments := do
  return [.builtin .ipairsStep, ← args.any 1, .int 0]

/-- A step of a loop over the values of `1, 2, …`. -/
def ipairsStep (args : Arguments) : Proc Arguments := do
  let i := .int ((← args.int 2) + 1)
  match ← Operators.index (args.nth 1) i .unknown with
  | .nil => return [.nil]
  | v => return [i, v]

/-- The arguments from one on, or how many there are. -/
def select (args : Arguments) : Proc Arguments := do
  match args.nth 1 with
  | .str s => if s = "#".toUTF8 then return [.nat (args.length - 1)] else byNumber args
  | _ => byNumber args
where
  /-- The arguments from one on, counted from the end if negative. -/
  byNumber (args : Arguments) : Proc Arguments := do
    let n := (← args.int 1).toInt
    let count := args.length - 1
    if 0 < n then return args.drop (min n.toNat (count + 1))
    else if n = 0 || (count : Int) < -n then blame 1 "index out of range"
    else return args.drop ((count : Int) + n + 1).toNat

/-! ## Memory -/

/-- The options of `collectgarbage`. -/
def collectOptions : List String :=
  ["stop", "restart", "collect", "count", "step", "setpause", "setstepmul", "isrunning",
    "generational", "incremental"]

/-- Tells about the memory. There is no collection to be steered. -/
def collectgarbage (args : Arguments) : Proc Arguments := do
  let option ← args.stringOr 1 "collect"
  match collectOptions.find? fun o => o.toUTF8 = option with
  | none => Proc.fail (.argument 1 ("invalid option '".toUTF8 ++ option ++ "'".toUTF8))
  | some "count" =>
    let used ← Proc.look fun h => h.used
    return [.float (used.toFloat / 1024.0)]
  | some "step" | some "isrunning" => return [.bool true]
  | some "setpause" => return [.int 200]
  | some "setstepmul" => return [.int 100]
  | some "generational" | some "incremental" => return [.text "incremental"]
  | some _ => return [.int 0]

/-- Takes a warning. There is nobody to be warned. -/
def warn (args : Arguments) : Proc Arguments := do
  let _ ← args.string 1
  for (_, n) in args.zipIdx 1 do
    let _ ← args.string n
  return []

end Workflow.Script.Library
