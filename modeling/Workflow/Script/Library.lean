import Workflow.Script.Library.Basic
import Workflow.Script.Library.Codepoints
import Workflow.Script.Library.Host
import Workflow.Script.Library.Numbers
import Workflow.Script.Library.Packing
import Workflow.Script.Library.Tables

/-!
# The library

What each function that scripts start with does (`Builtin.run`), and the heap that
they start with, where the functions are found under their names.
-/

namespace Workflow.Script

open Library

/-- What a function does with its arguments. -/
def Builtin.run : Builtin → Arguments → Proc Arguments
  | assert => Library.assert
  | collectgarbage => Library.collectgarbage
  | dofile => Library.dofile
  | error => Library.error
  | getmetatable => Library.getmetatable
  | ipairs => Library.ipairs
  | ipairsStep => Library.ipairsStep
  | load => Library.load
  | loadfile => Library.loadfile
  | next => Library.next
  | pairs => Library.pairs
  | pcall => Library.pcall
  | print => logAt .info
  | rawequal => Library.rawequal
  | rawget => Library.rawget
  | rawlen => Library.rawlen
  | rawset => Library.rawset
  | select => Library.select
  | setmetatable => Library.setmetatable
  | tonumber => Library.tonumber
  | tostring => Library.tostring
  | type => Library.type
  | warn => Library.warn
  | xpcall => Library.xpcall
  | tableConcat => Library.tableConcat
  | tableInsert => Library.tableInsert
  | tableMove => Library.tableMove
  | tablePack => Library.tablePack
  | tableRemove => Library.tableRemove
  | tableSort => Library.tableSort
  | tableUnpack => Library.tableUnpack
  | stringByte => Library.stringByte
  | stringChar => Library.stringChar
  | stringDump => Library.stringDump
  | stringFind => Library.stringFind
  | stringFormat => Library.stringFormat
  | stringGmatch => Library.stringGmatch
  | stringGsub => Library.stringGsub
  | stringLen => Library.stringLen
  | stringLower => Library.stringLower
  | stringMatch => Library.stringMatch
  | stringPack => Library.stringPack
  | stringPacksize => Library.stringPacksize
  | stringRep => Library.stringRep
  | stringReverse => Library.stringReverse
  | stringSub => Library.stringSub
  | stringUnpack => Library.stringUnpack
  | stringUpper => Library.stringUpper
  | gmatchStep => Library.gmatchStep
  | stringAdd => stringBinary .add
  | stringSubtract => stringBinary .sub
  | stringMul => stringBinary .mul
  | stringMod => stringBinary .mod
  | stringPow => stringBinary .pow
  | stringDiv => stringBinary .div
  | stringIdiv => stringBinary .idiv
  | stringUnm => stringNegate
  | mathAbs => Library.mathAbs
  | mathAcos => ofFloats Float.acos
  | mathAsin => ofFloats Float.asin
  | mathAtan => Library.mathAtan
  | mathCeil => Library.mathCeil
  | mathCos => ofFloats Float.cos
  | mathDeg => ofFloats fun x => x * (180.0 / pi)
  | mathExp => ofFloats Float.exp
  | mathFloor => Library.mathFloor
  | mathFmod => Library.mathFmod
  | mathLog => Library.mathLog
  | mathMax => Library.mathMax
  | mathMin => Library.mathMin
  | mathModf => Library.mathModf
  | mathRad => ofFloats fun x => x * (pi / 180.0)
  | mathRandom => Library.mathRandom
  | mathRandomseed => Library.mathRandomseed
  | mathSin => ofFloats Float.sin
  | mathSqrt => ofFloats Float.sqrt
  | mathTan => ofFloats Float.tan
  | mathTointeger => Library.mathTointeger
  | mathType => Library.mathType
  | mathUlt => Library.mathUlt
  | utf8Char => Library.utf8Char
  | utf8Codepoint => Library.utf8Codepoint
  | utf8Codes => Library.utf8Codes
  | utf8CodesStep => codesStep true
  | utf8CodesStepLax => codesStep false
  | utf8Len => Library.utf8Len
  | utf8Offset => Library.utf8Offset
  | varsGet => Library.varsGet
  | varsSet => Library.varsSet
  | varsDelete => Library.varsDelete
  | varsAll => Library.varsAll
  | logDebug => logAt .debug
  | logInfo => logAt .info
  | logWarn => logAt .warn
  | logError => logAt .error
  | httpRequest => Library.httpRequest
  | httpGet => Library.httpGet
  | wait => hostWait

/-! ## The heap at the start -/

/-- What is found in a library beside functions. -/
def constants : String → List (String × Value)
  | "math" => [("pi", .float pi), ("huge", .float (1.0 / 0.0)),
    ("maxinteger", .int Int64.maxValue), ("mininteger", .int Int64.minValue)]
  | "utf8" => [("charpattern", .str (Bytes.ofList
      [0x5B, 0x00, 0x2D, 0x7F, 0xC2, 0x2D, 0xFD, 0x5D, 0x5B, 0x80, 0x2D, 0xBF, 0x5D, 0x2A]))]
  | _ => []

/-- A table of named values. -/
def tableOf (fields : List (String × Value)) : Table :=
  fields.foldl (fun t (k, v) => t.set (.str k.toUTF8) v) (Table.withRoom 0 fields.length)

/-- A table of functions by name. -/
def functionsOf (fs : List (String × Builtin)) : List (String × Value) :=
  fs.map fun (k, b) => (k, .builtin b)

/-- How many bytes the functions and their tables are taken to need. -/
def baseline : Nat := 30000

/-- The heap that scripts start with, with random numbers to come and a limit on memory. -/
def Heap.initial (random : RandomState) (limit : Nat) : Heap :=
  let reserved : Heap :=
    { tables := #[{}, {}, { behaviour := none }], random := random, limit := limit, used := baseline }
  let (fields, h) := Builtin.libraries.foldl (fun (fields, h) (name, fs) =>
    let (t, h) := Heap.newTable h (tableOf (functionsOf fs ++ constants name))
    ((name, t) :: fields, h)) ([], reserved)
  let strings := ((fields.find? fun (name, _) => name = "string").map Prod.snd).getD .nil
  let globals := functionsOf Builtin.globals ++ fields.reverse ++
    [("_G", .table Heap.globals), ("_VERSION", .text "Lua 5.4")]
  let h := h.update Heap.globals fun _ => tableOf globals
  let h := h.update Heap.stringBehaviour fun _ =>
    tableOf (functionsOf Builtin.stringOperators ++ [("__index", strings)])
  let h := h.update Heap.listMark fun _ => tableOf [("__metatable", .bool false)]
  { h with used := baseline }

end Workflow.Script
