import Workflow.Script.Proc

/-!
# Operators

What the operators of the language do. Where both operands are of a kind that the
operator is made for, it computes; else a program has a say: a function (or for
indexing another object) found under the operator's event in the behaviour of an
operand. Only if there is none is the operation refused.
-/

namespace Workflow.Script

/-! ## Refusals -/

/-- How messages name a value by its origin. -/
def Origin.text (o : Origin) : Bytes :=
  match o.words? with
  | some (kind, name) =>
    " (".toUTF8 ++ kind.toUTF8 ++ " '".toUTF8 ++ name ++ "')".toUTF8
  | none => .empty

namespace Operators

/-- The fault of an operation on a value of a type it is not made for. -/
def typeFault (h : Heap) (operation : String) (v : Value) (o : Origin) : Fault :=
  .operation ("attempt to ".toUTF8 ++ operation.toUTF8 ++ " a ".toUTF8 ++ h.typeName v ++
    " value".toUTF8 ++ o.text)

/-- Whether a value is a function. -/
def isFunction : Value → Bool
  | .closure _ | .builtin _ => true
  | _ => false

/-! ## Indexing -/

/-- The value of an object under a key, asking so many objects. -/
def indexWithin : Nat → Value → Value → Origin → Proc Value
  | 0, _, _, _ =>
    Proc.fail (.operation "'__index' chain too long; possibly a loop".toUTF8)
  | fuel + 1, object, key, o => fun h =>
    let found := match object with
      | .table r => h.getAt r key
      | _ => .nil
    if !found.isNil then .done found h
    else
      let handler := h.handler object "__index"
      if isFunction handler then Proc.callFor handler [object, key] h
      else
        match handler, object with
        | .nil, .table _ => .done .nil h
        | .nil, _ => .fail (typeFault h "index" object o) h
        | _, _ => indexWithin fuel handler key .unknown h

/-- The value of an object under a key. -/
def index (object key : Value) (o : Origin) : Proc Value := indexWithin 2000 object key o

/-- Sets the value of a table under a key. -/
def rawSet (r : Nat) (key v : Value) : Proc Unit := fun h =>
  match key.toKey? with
  | some k => .done () (h.set r k v)
  | none =>
    .fail (.operation (if key.isNil then "table index is nil" else "table index is NaN").toUTF8) h

/-- Sets the value of an object under a key, asking so many objects. -/
def setIndexWithin : Nat → Value → Value → Value → Origin → Proc Unit
  | 0, _, _, _, _ =>
    Proc.fail (.operation "'__newindex' chain too long; possibly a loop".toUTF8)
  | fuel + 1, object, key, v, o => fun h =>
    match object with
    | .table r =>
      if !(h.getAt r key).isNil then rawSet r key v h
      else
        let handler := h.handler object "__newindex"
        if isFunction handler then (Proc.call handler [object, key, v] h).bind fun _ h => .done () h
        else if handler.isNil then rawSet r key v h
        else setIndexWithin fuel handler key v .unknown h
    | _ =>
      let handler := h.handler object "__newindex"
      if isFunction handler then (Proc.call handler [object, key, v] h).bind fun _ h => .done () h
      else if handler.isNil then .fail (typeFault h "index" object o) h
      else setIndexWithin fuel handler key v .unknown h

/-- Sets the value of an object under a key. -/
def setIndex (object key v : Value) (o : Origin) : Proc Unit := setIndexWithin 2000 object key v o

/-! ## Handlers of operators -/

/-- The first handler of an event among two operands. -/
def handlerOf (h : Heap) (event : String) (a b : Value) : Value :=
  match h.handler a event with
  | .nil => h.handler b event
  | f => f

/-- The operand that is to blame: the first, unless that one was fine. -/
def blamed (isFine : Value → Bool) (a b : Value) (oa ob : Origin) : Value × Origin :=
  if isFine a then (b, ob) else (a, oa)

/-- Whether a value is a number. -/
def isNumber (v : Value) : Bool := v.numeral?.isSome

/-! ## Arithmetic -/

/-- The event of an operator. -/
def eventOf : BinaryOp → String
  | .add => "__add" | .sub => "__sub" | .mul => "__mul" | .div => "__div" | .mod => "__mod"
  | .pow => "__pow" | .idiv => "__idiv" | .band => "__band" | .bor => "__bor" | .bxor => "__bxor"
  | .shl => "__shl" | .shr => "__shr"

/-- Whether an operator works on bits. -/
def isBitwise : BinaryOp → Bool
  | .band | .bor | .bxor | .shl | .shr => true
  | _ => false

/-- What an operator does to integers; the first of two ways to fail is its own. -/
def onInts : BinaryOp → Int64 → Int64 → Except String Numeral
  | .add, i, j => .ok (.int (i + j))
  | .sub, i, j => .ok (.int (i - j))
  | .mul, i, j => .ok (.int (i * j))
  | .div, i, j => .ok (.float (i.toFloat / j.toFloat))
  | .mod, i, j =>
    if j = 0 then .error "attempt to perform 'n%%0'"
    else .ok (.int (Int64.ofInt (Int.fmod i.toInt j.toInt)))
  | .pow, i, j => .ok (.float (Numeral.power i.toFloat j.toFloat))
  | .idiv, i, j =>
    if j = 0 then .error "attempt to divide by zero"
    else .ok (.int (Int64.ofInt (Int.fdiv i.toInt j.toInt)))
  | .band, i, j => .ok (.int (i &&& j))
  | .bor, i, j => .ok (.int (i ||| j))
  | .bxor, i, j => .ok (.int (i ^^^ j))
  | .shl, i, j => .ok (.int (Numeral.shiftLeft i j))
  | .shr, i, j =>
    .ok (.int (if j = Int64.minValue then 0 else Numeral.shiftLeft i (-j)))

/-- What an operator does to floats. -/
def onFloats : BinaryOp → Float → Float → Float
  | .add, x, y => x + y
  | .sub, x, y => x - y
  | .mul, x, y => x * y
  | .div, x, y => x / y
  | .mod, x, y => Numeral.modFloat x y
  | .pow, x, y => Numeral.power x y
  | .idiv, x, y => (x / y).floor
  | _, _, _ => 0.0

/-- What an operator does to numbers; nothing if it wants integers and one of the
numbers is none. -/
def onNumerals (op : BinaryOp) (a b : Numeral) : Option (Except String Numeral) :=
  if isBitwise op then
    match a.toInt?, b.toInt? with
    | some i, some j => some (onInts op i j)
    | _, _ => none
  else
    match a, b with
    | .int i, .int j => some (onInts op i j)
    | _, _ => some (.ok (.float (onFloats op a.toFloat b.toFloat)))

/-- The fault of an operator that no operand has a handler for. -/
def arithmeticFault (h : Heap) (isBits : Bool) (a b : Value) (oa ob : Origin) : Fault :=
  if isBits then
    if isNumber a && isNumber b then
      let (_, o) := blamed (fun v => (v.numeral?.bind Numeral.toInt?).isSome) a b oa ob
      .operation ("number".toUTF8 ++ o.text ++ " has no integer representation".toUTF8)
    else
      let (v, o) := blamed isNumber a b oa ob
      typeFault h "perform bitwise operation on" v o
  else
    let (v, o) := blamed isNumber a b oa ob
    typeFault h "perform arithmetic on" v o

/-- Does what a handler says, or refuses. -/
def orHandler (event : String) (isBits : Bool) (a b : Value) (oa ob : Origin) : Proc Value := fun h =>
  match handlerOf h event a b with
  | .nil => .fail (arithmeticFault h isBits a b oa ob) h
  | f => Proc.callFor f [a, b] h

/-- An operator between two values. -/
def binary (op : BinaryOp) (a b : Value) (oa ob : Origin) : Proc Value := fun h =>
  let computed := match a.numeral?, b.numeral? with
    | some x, some y => onNumerals op x y
    | _, _ => none
  match computed with
  | some (.ok n) => .done (.ofNumeral n) h
  | some (.error m) => .fail (.operation m.toUTF8) h
  | none => orHandler (eventOf op) (isBitwise op) a b oa ob h

/-- The negative of a value. -/
def negate (a : Value) (o : Origin) : Proc Value := fun h =>
  match a with
  | .int i => .done (.int (-i)) h
  | .float x => .done (.float (-x)) h
  | _ => orHandler "__unm" false a a o o h

/-- A value with its bits inverted. -/
def invert (a : Value) (o : Origin) : Proc Value := fun h =>
  match a.numeral?.bind Numeral.toInt? with
  | some i => .done (.int (i ^^^ (-1))) h
  | none => orHandler "__bnot" true a a o o h

/-! ## Concatenation and length -/

/-- The concatenation of two values. -/
def concat (a b : Value) (oa ob : Origin) : Proc Value := fun h =>
  match a.toBytes?, b.toBytes? with
  | some x, some y => Proc.string (x ++ y) h
  | left, _ =>
    match handlerOf h "__concat" a b with
    | .nil =>
      let (v, o) := if left.isSome then (b, ob) else (a, oa)
      .fail (typeFault h "concatenate" v o) h
    | f => Proc.callFor f [a, b] h

/-- The length of a value. -/
def length (a : Value) (o : Origin) : Proc Value := fun h =>
  match a with
  | .str s => .done (.nat s.size) h
  | _ =>
    match h.handler a "__len", a with
    | .nil, .table r =>
      let (n, h) := h.length r
      .done (.nat n) h
    | .nil, _ => .fail (typeFault h "get length of" a o) h
    | f, _ => Proc.callFor f [a, a] h

/-! ## Comparison -/

/-- Whether two values are equal. -/
def equals (a b : Value) : Proc Bool := fun h =>
  if a.rawEq b then .done true h
  else
    match a, b with
    | .table _, .table _ =>
      match handlerOf h "__eq" a b with
      | .nil => .done false h
      | f => (Proc.callFor f [a, b] h).bind fun v h => .done v.isTruthy h
    | _, _ => .done false h

/-- The fault of a comparison. -/
def orderFault (h : Heap) (a b : Value) : Fault :=
  let ta := h.typeName a
  let tb := h.typeName b
  if ta = tb then
    .operation ("attempt to compare two ".toUTF8 ++ ta ++ " values".toUTF8)
  else .operation ("attempt to compare ".toUTF8 ++ ta ++ " with ".toUTF8 ++ tb)

/-- Compares by a handler, or refuses. -/
def orderBy (event : String) (a b : Value) : Proc Bool := fun h =>
  match handlerOf h event a b with
  | .nil => .fail (orderFault h a b) h
  | f => (Proc.callFor f [a, b] h).bind fun v h => .done v.isTruthy h

/-- Whether a value is below another one. -/
def less (a b : Value) : Proc Bool := fun h =>
  match a.numeral?, b.numeral? with
  | some x, some y => .done (x.lt y) h
  | _, _ =>
    match a, b with
    | .str s, .str t => .done (Bytes.order s t = .lt) h
    | _, _ => orderBy "__lt" a b h

/-- Whether a value is below another one or equal to it. -/
def lessOrEqual (a b : Value) : Proc Bool := fun h =>
  match a.numeral?, b.numeral? with
  | some x, some y => .done (x.le y) h
  | _, _ =>
    match a, b with
    | .str s, .str t => .done (Bytes.order s t != .gt) h
    | _, _ => orderBy "__le" a b h

/-- Whether two values are in a relation. -/
def compare (op : Relation) (a b : Value) : Proc Bool :=
  match op with
  | .eq => equals a b
  | .ne => fun h => (equals a b h).bind fun r h => .done (!r) h
  | .lt => less a b
  | .le => lessOrEqual a b
  | .gt => less b a
  | .ge => lessOrEqual b a

/-! ## Text -/

/-- What follows the text of a fault of the host. -/
def traceback : String := "\nstack traceback:\n\t[C]: in ?"

/-- The text of a value that no program has a say in. -/
def plainText (h : Heap) (v : Value) : Bytes :=
  match v with
  | .nil => "nil".toUTF8
  | .bool b => (if b then "true" else "false").toUTF8
  | .failure r => (h.failures.getD r "" ++ traceback).toUTF8
  | .table r => h.typeName v ++ s!": 0x{address r 1}".toUTF8
  | .closure r => s!"function: 0x{address r 2}".toUTF8
  | .builtin b => s!"function: builtin: 0x{address (hash b).toNat 3}".toUTF8
  | v => (v.toBytes?).getD .empty
where
  /-- Something like the address of an object. -/
  address (r kind : Nat) : String :=
    let digits := Nat.toDigits 16 ((0x55550000 + 0x1000 * kind + 0x40 * r) % 2 ^ 48)
    String.ofList (List.replicate (14 - digits.length) '0' ++ digits)

/-- The text of a value. -/
def toText (v : Value) : Proc Bytes := fun h =>
  match h.handler v "__tostring" with
  | .nil => .done (plainText h v) h
  | f => (Proc.callFor f [v] h).bind fun r h =>
    match r.toBytes? with
    | some s => .done s h
    | none => .fail (.message "'__tostring' must return a string") h

end Operators

end Workflow.Script
