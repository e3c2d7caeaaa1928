import Workflow.Script.Format
import Workflow.Script.Library.Arguments
import Workflow.Script.Pattern

/-!
# String functions

The functions that are found in `string` and as methods of strings. Positions count
from one, and from the end if they are negative.
-/

namespace Workflow.Script.Library

open Arguments

/-! ## Positions -/

/-- Where a piece starts: positions before the front are the front. -/
def startPosition (i : Int64) (length : Nat) : Nat :=
  let i := i.toInt
  if 0 < i then i.toNat
  else if i = 0 then 1
  else if i < -(length : Int) then 1
  else ((length : Int) + i + 1).toNat

/-- Where a piece ends: positions after the end are the end. -/
def endPosition (i : Int64) (length : Nat) : Nat :=
  let i := i.toInt
  if (length : Int) < i then length
  else if 0 ≤ i then i.toNat
  else if i < -(length : Int) then 0
  else ((length : Int) + i + 1).toNat

/-! ## Plain functions -/

/-- A string as the only result. -/
def oneString (s : Bytes) : Proc Arguments := do return [← Proc.string s]

/-- The bytes of a string mapped. -/
def mapBytes (f : UInt8 → UInt8) (s : Bytes) : Bytes := ⟨s.data.map f⟩

/-- The length of a string. -/
def stringLen (args : Arguments) : Proc Arguments := do return [.nat (← args.string 1).size]

/-- A piece of a string. -/
def stringSub (args : Arguments) : Proc Arguments := do
  let s ← args.string 1
  let first := startPosition (← args.int 2) s.size
  let last := endPosition (← args.intOr 3 (-1)) s.size
  oneString (s.extract (first - 1) (max last (first - 1)))

/-- A string with its bytes reversed. -/
def stringReverse (args : Arguments) : Proc Arguments := do
  oneString ⟨(← args.string 1).data.reverse⟩

/-- A string in small letters. -/
def stringLower (args : Arguments) : Proc Arguments := do
  oneString (mapBytes Byte.toLower (← args.string 1))

/-- A string in capital letters. -/
def stringUpper (args : Arguments) : Proc Arguments := do
  oneString (mapBytes Byte.toUpper (← args.string 1))

/-- A string repeated. -/
def stringRep (args : Arguments) : Proc Arguments := do
  let s ← args.string 1
  let n ← args.int 2
  let separator ← args.stringOr 3 ""
  if n ≤ 0 then return [.str .empty]
  let count := n.toNatClampNeg
  if 2 ^ 31 ≤ (s.size + separator.size) * count then Proc.failWith "resulting string too large"
  Proc.reserve (s.size * count + separator.size * (count - 1))
  oneString (s.repeated separator count)

/-- The codes of bytes. -/
def stringByte (args : Arguments) : Proc Arguments := do
  let s ← args.string 1
  let i ← args.intOr 2 1
  let first := startPosition i s.size
  let last := endPosition (← args.intOr 3 i) s.size
  if last < first then return []
  if 1000000 ≤ last + 1 - first then Proc.failWith "stack overflow (string slice too long)"
  return (s.extract (first - 1) last).data.toList.map fun c => .nat c.toNat

/-- The string of bytes with some codes. -/
def stringChar (args : Arguments) : Proc Arguments := do
  let codes ← args.mapInts fun n c =>
    if c < 0 || 255 < c then blame n "value out of range" else pure c.toUInt64.toUInt8
  oneString (Bytes.ofList codes)

/-- Refuses to write a function. -/
def stringDump (args : Arguments) : Proc Arguments := do
  if Operators.isFunction (args.nth 1) then Proc.failWith "unable to dump given function"
  else blameType args 1 "function"

/-! ## Arithmetic on strings -/

/-- An operator on two values of which one is a string. What writes a number takes
part as that number; else the second operand has a say. -/
def stringOperator (event : String)
    (compute : Value → Value → Proc Value) (args : Arguments) : Proc Arguments := do
  let a := args.nth 1
  let b := args.nth 2
  match a.toNumeral?, b.toNumeral? with
  | some x, some y => return [← compute (.ofNumeral x) (.ofNumeral y)]
  | _, _ =>
    let handler ← Proc.look fun h =>
      match b with
      | .str _ => .nil
      | b => h.handler b event
    if handler.isNil then
      let name ← Proc.look fun h => h.typeName a
      Proc.fail (.placed 1
        (.str ("attempt to perform arithmetic on a ".toUTF8 ++ name ++ " value".toUTF8)))
    else return [← Proc.callFor handler [a, b]]

/-- A binary operator on two values of which one is a string. -/
def stringBinary (op : BinaryOp) : Arguments → Proc Arguments :=
  stringOperator (Operators.eventOf op) fun a b => Operators.binary op a b .unknown .unknown

/-- The negative of what a string writes. -/
def stringNegate : Arguments → Proc Arguments :=
  stringOperator "__unm" fun a _ => Operators.negate a .unknown

/-! ## Searching -/

/-- The result of a pure computation that may fail. -/
def orFail {α : Type} : Except String α → Proc α
  | .ok a => pure a
  | .error m => Proc.failWith m

/-- What a capture holds, as a value. -/
def capturedValue : Pattern.Captured → Proc Value
  | .piece s => Proc.string s
  | .position n => pure (.nat n)

/-- What the captures of a match hold. -/
def capturedValues (s : Bytes) (start stop : Nat) (cs : Pattern.Captures) (withWhole : Bool) :
    Proc Arguments := do
  (← orFail (Pattern.values s start stop cs withWhole)).mapM capturedValue

/-- Where a search starts; nothing if that is beyond the end. -/
def searchStart (args : Arguments) (s : Bytes) : Proc (Option Nat) := do
  let start := startPosition (← args.intOr 3 1) s.size
  return if s.size + 1 < start then none else some (start - 1)

/-- Searches a pattern. -/
def searchPattern (s p : Bytes) (start : Nat) : Proc (Option (Nat × Nat × Pattern.Captures)) :=
  let isAnchored := Pattern.isAnchored p
  orFail (Pattern.search s p (if isAnchored then 1 else 0) isAnchored (s.size + 2) start)

/-- The positions of the first match and its captures. -/
def stringFind (args : Arguments) : Proc Arguments := do
  let s ← args.string 1
  let p ← args.string 2
  match ← searchStart args s with
  | none => return [.nil]
  | some start =>
    if (args.nth 4).isTruthy || Pattern.isPlain p then
      match s.find? p (s.size + 2) start with
      | some i => return [.nat (i + 1), .nat (i + p.size)]
      | none => return [.nil]
    else
      match ← searchPattern s p start with
      | some (first, stop, cs) =>
        return .nat (first + 1) :: .nat stop :: (← capturedValues s first stop cs false)
      | none => return [.nil]

/-- The captures of the first match. -/
def stringMatch (args : Arguments) : Proc Arguments := do
  let s ← args.string 1
  let p ← args.string 2
  match ← searchStart args s with
  | none => return [.nil]
  | some start =>
    match ← searchPattern s p start with
    | some (first, stop, cs) => capturedValues s first stop cs true
    | none => return [.nil]

/-- A function that walks over all matches. -/
def stringGmatch (args : Arguments) : Proc Arguments := do
  let s ← args.string 1
  let p ← args.string 2
  let start := startPosition (← args.intOr 3 1) s.size
  let position := if s.size + 1 < start then s.size + 1 else start - 1
  return [← Proc.alter fun h => h.newClosure (.matches s p position none)]

/-- The next match from a position on that does not end where the last one did. -/
def nextMatch (s p : Bytes) (lastEnd : Option Nat) : Nat → Nat →
    Except String (Option (Nat × Nat × Pattern.Captures))
  | 0, _ => .ok none
  | fuel + 1, i =>
    if s.size < i then .ok none
    else
      match Pattern.matchAt s p i 0 with
      | .error e => .error e
      | .ok (some (stop, cs)) =>
        if lastEnd = some stop then nextMatch s p lastEnd fuel (i + 1) else .ok (some (i, stop, cs))
      | .ok none => nextMatch s p lastEnd fuel (i + 1)

/-- The captures of the next match of a walk, which is the first argument. -/
def gmatchStep (args : Arguments) : Proc Arguments := do
  match args.nth 1 with
  | .closure r =>
    match ← Proc.look fun h => h.closures.getD r default with
    | .matches s p position lastEnd =>
      match ← orFail (nextMatch s p lastEnd (s.size + 2) position) with
      | none =>
        Proc.change fun h =>
          { h with closures := h.closures.set! r (.matches s p (s.size + 1) lastEnd) }
        return []
      | some (first, stop, cs) =>
        Proc.change fun h => { h with closures := h.closures.set! r (.matches s p stop (some stop)) }
        capturedValues s first stop cs true
    | _ => return []
  | _ => return []

/-! ## Replacing -/

/-- A replacement string with its references to captures filled in. -/
def fillIn (s : Bytes) (start stop : Nat) (cs : Pattern.Captures) :
    List UInt8 → Bytes → Except String Bytes
  | [], acc => .ok acc
  | 0x25 :: [], _ => .error "invalid use of '%' in replacement string"
  | 0x25 :: d :: rest, acc =>
    if d = 0x25 then fillIn s start stop cs rest (acc.push 0x25)
    else if d = 0x30 then fillIn s start stop cs rest (acc ++ s.extract start stop)
    else if Byte.isDigit d then
      let i := d.toNat - 0x31
      match cs[i]? with
      | some c =>
        match c.value s with
        | .ok (.piece t) => fillIn s start stop cs rest (acc ++ t)
        | .ok (.position n) => fillIn s start stop cs rest (acc ++ (toString n).toUTF8)
        | .error e => .error e
      | none =>
        if i = 0 then fillIn s start stop cs rest (acc ++ s.extract start stop)
        else .error s!"invalid capture index %{i + 1} in replacement string"
    else .error "invalid use of '%' in replacement string"
  | c :: rest, acc => fillIn s start stop cs rest (acc.push c)

/-- What takes the place of a match. -/
def replacement (s : Bytes) (start stop : Nat) (cs : Pattern.Captures) (substitute : Value) :
    Proc Bytes := do
  let whole := s.extract start stop
  let v ← match substitute with
    | .table _ => do
      let key ← capturedValues s start stop cs true
      Operators.index substitute (key.headD .nil) .unknown
    | .closure _ | .builtin _ => do
      Proc.callFor substitute (← capturedValues s start stop cs true)
    | v => do
      let template := (v.toBytes?).getD .empty
      pure (.str (← orFail (fillIn s start stop cs (Bytes.bytes template) .empty)))
  match v with
  | .nil | .bool false => return whole
  | v =>
    match v.toBytes? with
    | some t => return t
    | none => do
      let name ← Proc.look fun h => h.typeName v
      Proc.fail (.placed 1 (.str ("invalid replacement value (a ".toUTF8 ++ name ++ ")".toUTF8)))

/-- Replaces up to so many matches from a position on. Answers the result and how
many there were. -/
def replaceFrom (s p : Bytes) (first : Nat) (isAnchored : Bool) (substitute : Value) :
    Nat → Nat → Nat → Option Nat → Nat → Bytes → Proc (Bytes × Nat)
  | 0, _, _, _, n, acc => pure (acc, n)
  | fuel + 1, limit, i, lastEnd, n, acc =>
    if limit = 0 then pure (acc ++ s.extract i s.size, n)
    else do
      match ← orFail (Pattern.matchAt s p i first) with
      | some (stop, cs) =>
        if lastEnd = some stop then skip fuel limit i lastEnd n acc
        else
          let t ← replacement s i stop cs substitute
          if isAnchored then pure (acc ++ t ++ s.extract stop s.size, n + 1)
          else replaceFrom s p first isAnchored substitute fuel (limit - 1) stop (some stop) (n + 1) (acc ++ t)
      | none => skip fuel limit i lastEnd n acc
where
  /-- Goes on after a byte that no match starts at. -/
  skip (fuel limit i : Nat) (lastEnd : Option Nat) (n : Nat) (acc : Bytes) : Proc (Bytes × Nat) :=
    match s.get? i with
    | none => pure (acc, n)
    | some c =>
      if isAnchored then pure (acc ++ s.extract i s.size, n)
      else replaceFrom s p first isAnchored substitute fuel limit (i + 1) lastEnd n (acc.push c)

/-- Replaces matches. -/
def stringGsub (args : Arguments) : Proc Arguments := do
  let s ← args.string 1
  let p ← args.string 2
  match args.nth 3 with
  | .str _ | .int _ | .float _ | .table _ | .closure _ | .builtin _ => pure ()
  | _ => blameType args 3 "string/function/table"
  let limit ← args.intOr 4 (Int64.ofInt (s.size + 1))
  let isAnchored := Pattern.isAnchored p
  let (result, n) ← replaceFrom s p (if isAnchored then 1 else 0) isAnchored (args.nth 3)
    (2 * s.size + 4) limit.toNatClampNeg 0 none 0 .empty
  return [← Proc.string result, .nat n]

/-! ## Formatting -/

/-- A layout with the flags that its conversion allows. -/
def layout (spec : List UInt8) (conversion : UInt8) (flags : String) (withPrecision : Bool) :
    Proc FieldLayout :=
  match FieldLayout.read? flags withPrecision spec with
  | some l => pure l
  | none =>
    Proc.failWith ("invalid conversion specification: '%" ++
      FieldLayout.text (spec ++ [conversion]) ++ "'")

/-- A value as a source would write it. -/
def quoted (args : Arguments) (n : Nat) : Proc Bytes := do
  match args.nth n with
  | .str s => return SourceText.ofString s
  | .int i => return (SourceText.ofNumeral (.int i)).toUTF8
  | .float x => return (SourceText.ofNumeral (.float x)).toUTF8
  | .nil => return "nil".toUTF8
  | .bool b => return (if b then "true" else "false").toUTF8
  | _ => blame n "value has no literal form"

/-- What a conversion makes of an argument. -/
def convert (args : Arguments) (n : Nat) (spec : List UInt8) (conversion : UInt8) : Proc Bytes := do
  let ofChars (cs : List Char) : Bytes := Bytes.ofAscii cs
  match Char.ofNat conversion.toNat with
  | 'c' =>
    let i ← args.int n
    let l ← layout spec conversion "-" false
    return l.string (Bytes.single i.toUInt64.toUInt8)
  | 'd' | 'i' =>
    let i ← args.int n
    return ofChars ((← layout spec conversion "-+ 0" true).decimal i)
  | 'u' =>
    let i ← args.int n
    return ofChars ((← layout spec conversion "-0" true).unsigned i)
  | 'x' =>
    let i ← args.int n
    return ofChars ((← layout spec conversion "-#0" true).hex false i)
  | 'X' =>
    let i ← args.int n
    return ofChars ((← layout spec conversion "-#0" true).hex true i)
  | 'o' =>
    let i ← args.int n
    return ofChars ((← layout spec conversion "-#0" true).octal i)
  | 'a' =>
    let l ← layout spec conversion "-+ #0" true
    return ofChars (l.hexFloat (← args.float n))
  | 'A' =>
    let l ← layout spec conversion "-+ #0" true
    return ofChars ((l.hexFloat (← args.float n)).map Char.toUpper)
  | 'f' =>
    let x ← args.float n
    return ofChars ((← layout spec conversion "-+ #0" true).fixed x)
  | 'e' =>
    let x ← args.float n
    return ofChars ((← layout spec conversion "-+ #0" true).exponential x)
  | 'E' =>
    let x ← args.float n
    return ofChars (((← layout spec conversion "-+ #0" true).exponential x).map Char.toUpper)
  | 'g' =>
    let x ← args.float n
    return ofChars ((← layout spec conversion "-+ #0" true).general x)
  | 'G' =>
    let x ← args.float n
    return ofChars (((← layout spec conversion "-+ #0" true).general x).map Char.toUpper)
  | 'p' =>
    let l ← layout spec conversion "-" false
    let text ← Proc.look fun h =>
      match args.nth n with
      | .table _ | .closure _ | .builtin _ | .failure _ =>
        Bytes.ofList ((Bytes.bytes (Operators.plainText h (args.nth n))).dropWhile (· ≠ 0x30))
      | _ => "(null)".toUTF8
    return l.string text
  | 'q' =>
    if !spec.isEmpty then Proc.failWith "specifier '%q' cannot have modifiers"
    quoted args n
  | 's' =>
    let s ← Operators.toText (args.nth n)
    if spec.isEmpty then return s
    if s.data.contains 0 then blame n "string contains zeros"
    let l ← layout spec conversion "-" true
    return if l.precision.isNone && 100 ≤ s.size then s else l.string s
  | _ =>
    let shown := if conversion = 0 then spec else spec ++ [conversion]
    Proc.failWith ("invalid conversion '%" ++ FieldLayout.text shown ++ "' to 'format'")

/-- Formats arguments by what is left of a format string. -/
def formatFrom (args : Arguments) : Nat → Nat → List UInt8 → Bytes → Proc Bytes
  | 0, _, _, acc => pure acc
  | _ + 1, _, [], acc => pure acc
  | fuel + 1, n, 0x25 :: rest, acc =>
    match rest with
    | 0x25 :: rest => formatFrom args fuel n rest (acc.push 0x25)
    | rest => do
      let n := n + 1
      if args.lacks n then blame n "no value"
      let spec := rest.takeWhile FieldLayout.alphabet.contains
      if 22 ≤ spec.length + 1 then Proc.failWith "invalid format string to 'format'"
      let (conversion, rest) := match rest.drop spec.length with
        | [] => (0, [])
        | c :: rest => (c, rest)
      let s ← convert args n spec conversion
      formatFrom args fuel n rest (acc ++ s)
  | fuel + 1, n, c :: rest, acc => formatFrom args fuel n rest (acc.push c)

/-- Formats arguments by a format string. -/
def stringFormat (args : Arguments) : Proc Arguments := do
  let format ← args.string 1
  oneString (← formatFrom args (format.size + 1) 1 (Bytes.bytes format) .empty)

end Workflow.Script.Library
