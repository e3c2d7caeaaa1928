import Workflow.Script.Number

/-!
# Values of scripts

A value is nil, a truth value, a number, a string, or a reference: to a table, to
a function, or to a failure of the host that a script has caught. What references
point at lives in the heap, so values themselves are plain data.

The functions that every script starts with are named by `Builtin`; the host's own
functions are among them. A value that can be the key of a table has a `Key`, and
numbers that are equal have the same one.
-/

namespace Workflow.Script

/-- The functions that a script starts with. -/
inductive Builtin where
  | assert | collectgarbage | dofile | error | getmetatable | ipairs | ipairsStep | load | loadfile
  | next | pairs | pcall | print | rawequal | rawget | rawlen | rawset | select | setmetatable
  | tonumber | tostring | type | warn | xpcall
  | tableConcat | tableInsert | tableMove | tablePack | tableRemove | tableSort | tableUnpack
  | stringByte | stringChar | stringDump | stringFind | stringFormat | stringGmatch | stringGsub
  | stringLen | stringLower | stringMatch | stringPack | stringPacksize | stringRep
  | stringReverse | stringSub | stringUnpack | stringUpper | gmatchStep
  | stringAdd | stringSubtract | stringMul | stringMod | stringPow | stringDiv | stringIdiv
  | stringUnm
  | mathAbs | mathAcos | mathAsin | mathAtan | mathCeil | mathCos | mathDeg | mathExp | mathFloor
  | mathFmod | mathLog | mathMax | mathMin | mathModf | mathRad | mathRandom | mathRandomseed
  | mathSin | mathSqrt | mathTan | mathTointeger | mathType | mathUlt
  | utf8Char | utf8Codepoint | utf8Codes | utf8CodesStep | utf8CodesStepLax | utf8Len | utf8Offset
  | varsGet | varsSet | varsDelete | varsAll
  | logDebug | logInfo | logWarn | logError
  | httpRequest | httpGet
  | wait
  deriving DecidableEq, Hashable, Repr

/-- A value. -/
inductive Value where
  /-- nothing -/
  | nil
  /-- a truth value -/
  | bool (b : Bool)
  /-- an integer -/
  | int (i : Int64)
  /-- a float -/
  | float (x : Float)
  /-- a string -/
  | str (s : Bytes)
  /-- a table -/
  | table (ref : Nat)
  /-- a function that a script made -/
  | closure (ref : Nat)
  /-- a function that every script has -/
  | builtin (b : Builtin)
  /-- a failure of the host -/
  | failure (ref : Nat)
  deriving Inhabited

namespace Value

/-- A string from a text. -/
def text (s : String) : Value := .str s.toUTF8

/-- A number as a value. -/
def ofNumeral : Numeral → Value
  | .int i => .int i
  | .float x => .float x

/-- A count as a value. -/
def nat (n : Nat) : Value := .int (Int64.ofInt n)

/-- The number that a value is. -/
def numeral? : Value → Option Numeral
  | .int i => some (.int i)
  | .float x => some (.float x)
  | _ => none

/-- The number that a value is or, for a string, writes. -/
def toNumeral? : Value → Option Numeral
  | .int i => some (.int i)
  | .float x => some (.float x)
  | .str s => Numeral.read? s
  | _ => none

/-- The integer that a value is equal to or, for a string, writes. -/
def toInt? (v : Value) : Option Int64 := v.toNumeral?.bind Numeral.toInt?

/-- Whether a value counts as true: all but nil and false do. -/
def isTruthy : Value → Bool
  | .nil => false
  | .bool b => b
  | _ => true

/-- Whether a value is nil. -/
def isNil : Value → Bool
  | .nil => true
  | _ => false

/-- The name of the type of a value. -/
def typeName : Value → String
  | .nil => "nil"
  | .bool _ => "boolean"
  | .int _ | .float _ => "number"
  | .str _ => "string"
  | .table _ => "table"
  | .closure _ | .builtin _ => "function"
  | .failure _ => "userdata"

/-- The string that a value is or, for a number, is written as. -/
def toBytes? : Value → Option Bytes
  | .str s => some s
  | .int i => some (Bytes.ofString (Numeral.int i).text)
  | .float x => some (Bytes.ofString (Numeral.float x).text)
  | _ => none

/-- Whether two values are the same without asking the program. -/
def rawEq : Value → Value → Bool
  | .nil, .nil => true
  | .bool a, .bool b => a = b
  | .str a, .str b => a = b
  | .table a, .table b => a = b
  | .closure a, .closure b => a = b
  | .builtin a, .builtin b => a = b
  | .failure a, .failure b => a = b
  | .int i, .int j => i = j
  | .int i, .float y => Numeral.eq (.int i) (.float y)
  | .float x, .int j => Numeral.eq (.float x) (.int j)
  | .float x, .float y => x == y
  | _, _ => false

end Value

/-! ## Keys -/

/-- A value that can be the key of a table. -/
inductive TableKey where
  /-- a truth value -/
  | bool (b : Bool)
  /-- a whole number -/
  | int (i : Int64)
  /-- a float that is no whole number, by its bits -/
  | float (bits : UInt64)
  /-- a string -/
  | str (s : Bytes)
  /-- a table -/
  | table (ref : Nat)
  /-- a function that a script made -/
  | closure (ref : Nat)
  /-- a function that every script has -/
  | builtin (b : Builtin)
  /-- a failure of the host -/
  | failure (ref : Nat)
  deriving DecidableEq, Hashable, Inhabited

/-- The key that a value is. Nil and NaN are none. -/
def Value.toKey? : Value → Option TableKey
  | .nil => none
  | .bool b => some (.bool b)
  | .int i => some (.int i)
  | .float x =>
    match Numeral.exactInt? x with
    | some i => some (.int i)
    | none => if x.isNaN then none else some (.float x.toBits)
  | .str s => some (.str s)
  | .table r => some (.table r)
  | .closure r => some (.closure r)
  | .builtin b => some (.builtin b)
  | .failure r => some (.failure r)

/-- The value of a key. -/
def TableKey.toValue : TableKey → Value
  | .bool b => .bool b
  | .int i => .int i
  | .float bits => .float (Float.ofBits bits)
  | .str s => .str s
  | .table r => .table r
  | .closure r => .closure r
  | .builtin b => .builtin b
  | .failure r => .failure r

/-! ## Where functions are found -/

namespace Builtin

/-- The functions that are found under a global name. -/
def globals : List (String × Builtin) := [
  ("assert", assert), ("collectgarbage", collectgarbage), ("dofile", dofile), ("error", error),
  ("getmetatable", getmetatable), ("ipairs", ipairs), ("load", load), ("loadfile", loadfile),
  ("next", next), ("pairs", pairs), ("pcall", pcall), ("print", print), ("rawequal", rawequal),
  ("rawget", rawget), ("rawlen", rawlen), ("rawset", rawset), ("select", select),
  ("setmetatable", setmetatable), ("tonumber", tonumber), ("tostring", tostring), ("type", type),
  ("wait", wait), ("warn", warn), ("xpcall", xpcall)]

/-- The functions that are found in a table under a global name. -/
def libraries : List (String × List (String × Builtin)) := [
  ("table", [("concat", tableConcat), ("insert", tableInsert), ("move", tableMove),
    ("pack", tablePack), ("remove", tableRemove), ("sort", tableSort), ("unpack", tableUnpack)]),
  ("string", [("byte", stringByte), ("char", stringChar), ("dump", stringDump),
    ("find", stringFind), ("format", stringFormat), ("gmatch", stringGmatch),
    ("gsub", stringGsub), ("len", stringLen), ("lower", stringLower), ("match", stringMatch),
    ("pack", stringPack), ("packsize", stringPacksize), ("rep", stringRep),
    ("reverse", stringReverse), ("sub", stringSub), ("unpack", stringUnpack),
    ("upper", stringUpper)]),
  ("math", [("abs", mathAbs), ("acos", mathAcos), ("asin", mathAsin), ("atan", mathAtan),
    ("ceil", mathCeil), ("cos", mathCos), ("deg", mathDeg), ("exp", mathExp),
    ("floor", mathFloor), ("fmod", mathFmod), ("log", mathLog), ("max", mathMax),
    ("min", mathMin), ("modf", mathModf), ("rad", mathRad), ("random", mathRandom),
    ("randomseed", mathRandomseed), ("sin", mathSin), ("sqrt", mathSqrt), ("tan", mathTan),
    ("tointeger", mathTointeger), ("type", mathType), ("ult", mathUlt)]),
  ("utf8", [("char", utf8Char), ("codepoint", utf8Codepoint), ("codes", utf8Codes),
    ("len", utf8Len), ("offset", utf8Offset)]),
  ("vars", [("get", varsGet), ("set", varsSet), ("delete", varsDelete), ("all", varsAll)]),
  ("log", [("debug", logDebug), ("info", logInfo), ("warn", logWarn), ("error", logError)]),
  ("http", [("request", httpRequest), ("get", httpGet)])]

/-- The operators of strings, under the names of their events. They let a string
that writes a number take part in arithmetic. -/
def stringOperators : List (String × Builtin) := [
  ("__add", stringAdd), ("__sub", stringSubtract), ("__mul", stringMul), ("__mod", stringMod),
  ("__pow", stringPow), ("__div", stringDiv), ("__idiv", stringIdiv), ("__unm", stringUnm)]

/-- The full name of a function that comes with the language, for messages about
a call that does not itself name it. -/
def fullName? (b : Builtin) : Option String :=
  match globals.find? fun (_, c) => c = b with
  | some (name, _) => some name
  | none =>
    (libraries.find? fun (_, fs) => fs.any fun (_, c) => c = b).bind fun (library, fs) =>
      (fs.find? fun (_, c) => c = b).map fun (name, _) =>
        if library = "vars" || library = "log" || library = "http" then name
        else library ++ "." ++ name

end Builtin

end Workflow.Script
