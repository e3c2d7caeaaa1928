import Workflow.Script.Frame

/-!
# The machine

Runs the code of scripts, one instruction at a time.

* What the machine is about to do is its `Mode`; what it goes on with afterwards is
  a list of `Continuation`s, the latest first. Nothing else remembers a call, so
  calls, faults and what catches them are all there to be looked at.
* A procedure of the library runs up to its next stop; what it stops for is done by
  the machine, and the procedure becomes a continuation meanwhile. An instruction
  whose operands have a say in it is such a procedure, too.
* `step` is total and never waits: where the host is asked, it answers the request
  and how to go on with each answer.
-/

namespace Workflow.Script

/-! ## Continuations -/

/-- What was raised. -/
structure Raised where
  /-- the value -/
  value : Value
  /-- whether it was raised for want of memory; handlers are not asked about that -/
  isMemory : Bool := false
  deriving Inhabited

/-- What an instruction does with the result of an operation. -/
inductive Use where
  /-- pushes it -/
  | push
  /-- drops it -/
  | ignore
  /-- pushes it, and the object that it is the method of -/
  | method (object : Value)
  /-- drops it, to be carried out once more -/
  | again

/-- Does what is to be done with a result. -/
def Use.apply (use : Use) (vs : Arguments) (f : Frame) : Frame :=
  match use with
  | push => f.push (vs.headD .nil)
  | ignore => f
  | method object => (f.push (vs.headD .nil)).push object
  | again => { f with pc := f.pc - 1 }

/-- What a procedure runs for. -/
inductive Context where
  /-- for a call of a function, perhaps by a name of some kind -/
  | builtin (b : Builtin) (args : Arguments) (name : Option (String × Bytes))
  /-- for an operation of a frame -/
  | operation (f : Frame) (event : String) (use : Use)

/-- How high the stack of frames is. -/
structure Height where
  /-- the number of frames -/
  frames : Nat := 0
  /-- the number of their variables and operands -/
  slots : Nat := 0
  deriving Inhabited

/-- What the machine goes on with. -/
inductive Continuation where
  /-- a frame that called a function, perhaps by a name of some kind; and how high the
  stack was -/
  | frame (f : Frame) (wanted : Wanted) (name : Option (String × Bytes)) (height : Height)
  /-- a procedure that called a function -/
  | proc (ctx : Context) (k : List Value → Heap → Step Arguments)
  /-- a procedure that called a function and catches its faults; and how deep and how
  high the machine was -/
  | protect (ctx : Context) (k : Except Value (List Value) → Heap → Step Arguments)
      (handler : Option Value) (nested : Nat) (height : Height)
  /-- the fault that a handler is asked about -/
  | handled
  /-- the fault for which a value is closed -/
  | closing (r : Raised)

/-! ## The machine -/

/-- What the machine is about to do. -/
inductive Mode where
  /-- to carry out an instruction -/
  | run (f : Frame)
  /-- to call a function -/
  | call (f : Value) (args : Arguments)
  /-- to do what a procedure stopped for -/
  | proc (ctx : Context) (s : Step Arguments)
  /-- to return values -/
  | give (vs : List Value)
  /-- to raise a value -/
  | raise (r : Raised)
  /-- to leave what runs because of a value that was raised -/
  | unwind (r : Raised)

/-- The machine. -/
structure Machine where
  /-- what it is about to do -/
  mode : Mode
  /-- what it goes on with -/
  conts : List Continuation := []
  /-- the heap -/
  heap : Heap
  /-- how deep procedures and functions are nested in each other -/
  nested : Nat := 1
  /-- how high the stack of frames is -/
  height : Height := {}

/-- What comes of a step. -/
inductive Progress where
  /-- the machine goes on -/
  | next (m : Machine)
  /-- the host is asked -/
  | ask (r : Request) (k : r.Answer → Machine)
  /-- the machine has ended, with values or a fault -/
  | ended (r : Except Raised (List Value)) (h : Heap)

/-! ## Where a fault happened -/

/-- The frame of an active function, if it is one of a script. -/
def Context.frame? : Context → Option Frame
  | .builtin .. => none
  | .operation f .. => some f

/-- The position of the function at a level, as the front of a message; functions of
the library have none. -/
def positionAt : Nat → List Continuation → Bytes
  | _, [] => .empty
  | level, .handled :: rest | level, .closing _ :: rest => positionAt level rest
  | 0, .frame f .. :: _ => f.position
  | 0, .proc ctx _ :: _ | 0, .protect ctx .. :: _ => ((ctx.frame?).map Frame.position).getD .empty
  | level + 1, .frame .. :: rest | level + 1, .proc .. :: rest | level + 1, .protect .. :: rest =>
    positionAt level rest

namespace Machine

/-- A message about a wrong argument. -/
def argumentText (n : Nat) (reason : Bytes) (b : Builtin) (name : Option (String × Bytes)) : Bytes :=
  match name with
  | some ("method", name) =>
    if n ≤ 1 then
      "calling '".toUTF8 ++ name ++ "' on bad self (".toUTF8 ++ reason ++ ")".toUTF8
    else about (n - 1) name
  | some (_, name) => about n name
  | none => about n ((b.fullName?).getD "?").toUTF8
where
  /-- The message with the number and the name. -/
  about (n : Nat) (name : Bytes) : Bytes :=
    s!"bad argument #{n} to '".toUTF8 ++ name ++ "' (".toUTF8 ++ reason ++ ")".toUTF8

/-- The value of a string with a position in front; other values as they are. -/
def withPosition (p : Bytes) : Value → Value
  | .str s => .str (p ++ s)
  | v => v

/-- What is raised for want of memory. -/
def outOfMemory : Raised := { value := .text "not enough memory", isMemory := true }

/-- What a fault raises. -/
def raised (e : Fault) (ctx : Context) (conts : List Continuation) (h : Heap) : Raised × Heap :=
  let active := .proc ctx (fun vs h => .done vs h) :: conts
  match e with
  | .value v => ({ value := v }, h)
  | .placed level v => ({ value := withPosition (positionAt level active) v }, h)
  | .argument n reason =>
    let text := match ctx with
      | .builtin b _ name => argumentText n reason b name
      | .operation .. => reason
    ({ value := .str (positionAt 1 active ++ text) }, h)
  | .host text =>
    let (v, h) := h.newFailure text
    ({ value := v }, h)
  | .memory => (outOfMemory, h)

/-- Raises a fault of a procedure. -/
def fault (e : Fault) (ctx : Context) (m : Machine) : Machine :=
  let (r, h) := raised e ctx m.conts m.heap
  let conts := match ctx with
    | .builtin .. => m.conts
    | .operation f .. => .frame f (.exactly 0) none m.height :: m.conts
  { m with mode := .raise r, conts := conts, heap := h }

/-! ## Memory -/

/-- What a context holds. -/
def contextValues (h : Heap) : Context → List Value
  | .builtin _ args _ => args
  | .operation f .. => f.values h

/-- What a continuation holds. -/
def continuationValues (h : Heap) : Continuation → List Value
  | .frame f .. => f.values h
  | .proc ctx _ | .protect ctx .. => contextValues h ctx
  | .handled => []
  | .closing r => [r.value]

/-- What the machine holds. -/
def roots (m : Machine) : List Value :=
  (match m.mode with
    | .run f => f.values m.heap
    | .call f args => f :: args
    | .proc ctx _ => contextValues m.heap ctx
    | .give vs => vs
    | .raise r | .unwind r => [r.value]) ++ m.conts.flatMap (continuationValues m.heap)

/-- How many bytes the stack takes: it doubles whenever it has to grow. -/
def stackBytes (m : Machine) : Nat :=
  let n := m.height.slots
  let slots := if n < 40 then 40 else min 1000000 (40 * 2 ^ (Nat.log2 (n / 40) + 1))
  16 * slots + 64 * m.height.frames

/-- Whether the machine has run out of memory; if it has not, the account starts from
what is still in use. -/
def settle (m : Machine) : Bool × Machine :=
  let live := baseline + m.heap.survey m.roots
  if m.heap.limit < live then (true, m)
  else (false, { m with heap := { m.heap with used := live } })

/-! ## Calls -/

/-- By which name the function that is called now is called. -/
def calledBy : List Continuation → Option (String × Bytes)
  | .frame _ _ name _ :: _ => name
  | .proc (.operation _ event _) _ :: _ => some ("metamethod", ((event.drop 2).toString).toUTF8)
  | _ => none

/-- How deep procedures and functions may be nested in each other. -/
def maxNested : Nat := 200

/-- How high the stack of frames may be. -/
def maxHeight : Nat := 1000000

/-- Calls a function that is one. -/
def enter (m : Machine) (f : Value) (args : Arguments) (c : Closure) : Machine :=
  match c with
  | .script code upvalues =>
    let (frame, h) := Frame.enter (m.heap.codes.getD code default) upvalues args m.heap
    { m with mode := .run frame, heap := h }
  | .matches .. =>
    { m with mode := .proc (.builtin .gmatchStep args none) (Builtin.gmatchStep.run (f :: args) m.heap) }

/-- Calls a value. What is no function may say what is called in its place. -/
def call (m : Machine) (f : Value) (args : Arguments) : Machine :=
  match f with
  | .closure r => m.enter f args (m.heap.closures.getD r default)
  | .builtin b =>
    { m with mode := .proc (.builtin b args (calledBy m.conts)) (b.run args m.heap) }
  | f =>
    match m.heap.handler f "__call" with
    | .nil =>
      let origin := match calledBy m.conts with
        | some (kind, name) =>
          " (".toUTF8 ++ kind.toUTF8 ++ " '".toUTF8 ++ name ++ "')".toUTF8
        | none => .empty
      let text := "attempt to call a ".toUTF8 ++ m.heap.typeName f ++ " value".toUTF8 ++ origin
      { m with mode := .raise { value := .str (positionAt 0 m.conts ++ text) } }
    | g => { m with mode := .call g (f :: args) }

/-- Has a procedure call a function, one level further in. -/
def callNested (m : Machine) (ctx : Context) (cont : Continuation) (f : Value) (args : Arguments) :
    Machine :=
  let nested := m.nested + 1
  if nested = maxNested then m.fault (.operation "C stack overflow".toUTF8) ctx
  else if maxNested + 20 ≤ nested then
    { m with mode := .unwind { value := .text "error in error handling" } }
  else { m with mode := .call f args, conts := cont :: m.conts, nested := nested }

/-! ## Instructions -/

/-- Carries out an operation. -/
def operate (m : Machine) (f : Frame) (event : String) (use : Use) (p : Proc Value) : Machine :=
  match p m.heap with
  | .done v h => { m with mode := .run (use.apply [v] f), heap := h }
  | s =>
    { m with
      mode := .proc (.operation f event use) (s.bind fun v h => .done [v] h), heap := default }

/-- Carries out an operation without a result. -/
def perform (m : Machine) (f : Frame) (event : String) (p : Proc Unit) : Machine :=
  match p m.heap with
  | .done _ h => { m with mode := .run f, heap := h }
  | s =>
    { m with
      mode := .proc (.operation f event .ignore) (s.bind fun _ h => .done [] h), heap := default }

/-- Refuses an instruction. -/
def refuse (m : Machine) (f : Frame) (text : Bytes) : Machine :=
  m.fault (.operation text) (.operation f "" .ignore)

/-- Calls a function from a frame. -/
def callFrom (m : Machine) (f : Frame) (function : Value) (args : Arguments) (wanted : Wanted)
    (name : Option (String × Bytes)) (level : Nat) : Machine :=
  let height : Height := ⟨m.height.frames + 1, m.height.slots + level + f.stack.size + 1⟩
  let m := { m with conts := .frame f wanted name m.height :: m.conts, height := height }
  if maxHeight ≤ height.slots then
    { m with mode := .raise { value := .str (f.position ++ "stack overflow".toUTF8) } }
  else if 0 < m.heap.limit && m.heap.limit < m.heap.used + m.stackBytes then
    match { m with mode := .call function args }.settle with
    | (_, m) =>
      if m.heap.limit < m.heap.used + m.stackBytes then
        { m with mode := .raise outOfMemory }
      else m
  else { m with mode := .call function args }

/-- Closes the latest value of those above a level and carries the instruction out
once more; nothing if there is none. -/
def closeOne (m : Machine) (f : Frame) (level : Nat) : Option Machine :=
  match f.closings with
  | (l, v) :: rest =>
    if level ≤ l then
      let f := { f with closings := rest }
      some (m.operate f "__close" .again fun h =>
        (Proc.call (h.handler v "__close") [v, .nil] h).bind fun _ h => .done .nil h)
    else none
  | [] => none

/-- The places where a new function finds its captured variables. -/
def captured (f : Frame) (captures : List Capture) : Array Nat :=
  (captures.map fun
    | .cell id => f.cells.getD id 0
    | .upvalue i => f.upvalues.getD i 0).toArray

/-- Carries out an instruction; the frame is past it already. -/
def execute (m : Machine) (f : Frame) (i : Instr) : Machine :=
  match i with
  | .push v => { m with mode := .run (f.push v) }
  | .drop n => { m with mode := .run (f.drop n) }
  | .copy => { m with mode := .run (f.push (f.peek 0)) }
  | .getVar id => { m with mode := .run (f.push (f.var id)) }
  | .setVar id | .declare id =>
    let (v, f) := f.pop
    { m with mode := .run (f.setVar id v) }
  | .getCell id => { m with mode := .run (f.push (m.heap.cell (f.cells.getD id 0))) }
  | .setCell id =>
    let (v, f) := f.pop
    { m with mode := .run f, heap := m.heap.setCell (f.cells.getD id 0) v }
  | .declareCell id =>
    let (v, f) := f.pop
    let (f, h) := f.declareCell id v m.heap
    { m with mode := .run f, heap := h }
  | .getUp i => { m with mode := .run (f.push (m.heap.cell (f.upvalues.getD i 0))) }
  | .setUp i =>
    let (v, f) := f.pop
    { m with mode := .run f, heap := m.heap.setCell (f.upvalues.getD i 0) v }
  | .getField name o =>
    let (object, f) := f.pop
    m.operate f "__index" .push (Operators.index object (.str name) o)
  | .index o =>
    let (key, f) := f.pop
    let (object, f) := f.pop
    m.operate f "__index" .push (Operators.index object key o)
  | .setField name depth o =>
    let (v, f) := f.pop
    m.perform f "__newindex" (Operators.setIndex (f.peek depth) (.str name) v o)
  | .setIndex depth o =>
    let (v, f) := f.pop
    m.perform f "__newindex" (Operators.setIndex (f.peek (depth + 1)) (f.peek depth) v o)
  | .method name o =>
    let (object, f) := f.pop
    m.operate f "__index" (.method object) (Operators.index object (.str name) o)
  | .newTable slots entries =>
    let (t, h) := m.heap.newTable (Table.withRoom slots entries)
    { m with mode := .run (f.push t), heap := h }
  | .initField name =>
    let (v, f) := f.pop
    match f.peek 0 with
    | .table r => m.perform f "" (Operators.rawSet r (.str name) v)
    | _ => { m with mode := .run f }
  | .initIndex =>
    let (v, f) := f.pop
    let (key, f) := f.pop
    match f.peek 0 with
    | .table r => m.perform f "" (Operators.rawSet r key v)
    | _ => { m with mode := .run f }
  | .initList first values =>
    let (vs, f) := f.popMany (f.count values)
    match f.peek 0 with
    | .table r =>
      let h := m.heap.update r fun t =>
        (vs.foldl (fun (t, i) v => (t.set (.int (Int64.ofNat i)) v, i + 1)) (t, first)).1
      { m with mode := .run f, heap := h }
    | _ => { m with mode := .run f }
  | .binary op oa ob =>
    let (b, f) := f.pop
    let (a, f) := f.pop
    m.operate f (Operators.eventOf op) .push (Operators.binary op a b oa ob)
  | .compare op =>
    let (b, f) := f.pop
    let (a, f) := f.pop
    let event := match op with
      | .eq | .ne => "__eq"
      | .lt | .gt => "__lt"
      | .le | .ge => "__le"
    m.operate f event .push fun h => (Operators.compare op a b h).bind fun r h => .done (.bool r) h
  | .concat oa ob =>
    let (b, f) := f.pop
    let (a, f) := f.pop
    m.operate f "__concat" .push (Operators.concat a b oa ob)
  | .negate o =>
    let (a, f) := f.pop
    m.operate f "__unm" .push (Operators.negate a o)
  | .invert o =>
    let (a, f) := f.pop
    m.operate f "__bnot" .push (Operators.invert a o)
  | .not =>
    let (a, f) := f.pop
    { m with mode := .run (f.push (.bool !a.isTruthy)) }
  | .length o =>
    let (a, f) := f.pop
    m.operate f "__len" .push (Operators.length a o)
  | .jump target => { m with mode := .run (f.jump target) }
  | .jumpIfFalse target =>
    let (v, f) := f.pop
    { m with mode := .run (if v.isTruthy then f else f.jump target) }
  | .jumpIfFalseElsePop target =>
    { m with mode := .run (if (f.peek 0).isTruthy then f.drop 1 else f.jump target) }
  | .jumpIfTrueElsePop target =>
    { m with mode := .run (if (f.peek 0).isTruthy then f.jump target else f.drop 1) }
  | .leave target level =>
    match m.closeOne f level with
    | some m => m
    | none => { m with mode := .run (f.jump target) }
  | .close level =>
    match m.closeOne f level with
    | some m => m
    | none => { m with mode := .run f }
  | .willClose id level name =>
    let v := f.var id
    if !v.isTruthy then { m with mode := .run f }
    else if (m.heap.handler v "__close").isNil then
      m.refuse f ("variable '".toUTF8 ++ name ++ "' got a non-closable value".toUTF8)
    else { m with mode := .run { f with closings := (level, v) :: f.closings } }
  | .further wanted => { m with mode := .run (f.receive wanted f.further) }
  | .call operands wanted o level =>
    let (args, f) := f.popMany (f.count operands)
    let (function, f) := f.pop
    m.callFrom f function args wanted o.words? level
  | .tailCall operands o level =>
    let (args, f) := f.popMany (f.count operands)
    let (function, f) := f.pop
    match function with
    | .closure _ => { m with mode := .call function args }
    | _ => m.callFrom f function args .all o.words? level
  | .ret values =>
    match m.closeOne f 0 with
    | some m => m
    | none => { m with mode := .give (f.popMany (f.count values)).1 }
  | .closure code =>
    let captures := (m.heap.codes.getD code default).captures
    let (c, h) := m.heap.newClosure (.script code (captured f captures))
    { m with mode := .run (f.push c), heap := h }
  | .forPrepare base exit =>
    let (step, f) := f.pop
    let (limit, f) := f.pop
    let (first, f) := f.pop
    match Frame.prepareLoop m.heap first limit step with
    | .error e => m.refuse f e
    | .ok none => { m with mode := .run (f.jump exit) }
    | .ok (some (v, bound, step)) =>
      { m with
        mode := .run (((f.setVar base v).setVar (base + 1) bound).setVar (base + 2) step) }
  | .forStep base id isCell exit =>
    match f.var base with
    | .nil => { m with mode := .run (f.jump exit) }
    | v =>
      let f := f.setVar base (Frame.nextInLoop v (f.var (base + 1)) (f.var (base + 2)))
      if isCell then
        let (f, h) := f.declareCell id v m.heap
        { m with mode := .run f, heap := h }
      else { m with mode := .run (f.setVar id v) }
  | .forCall base count =>
    m.callFrom f (f.var base) [f.var (base + 1), f.var (base + 2)] (.exactly count)
      (some ("for iterator", "for iterator".toUTF8)) base
  | .forTest base count exit =>
    match f.peek (count - 1) with
    | .nil => { m with mode := .run ((f.drop count).jump exit) }
    | v => { m with mode := .run (f.setVar (base + 2) v) }

/-! ## Steps -/

/-- Does what a procedure stopped for. -/
def proceed (m : Machine) (ctx : Context) (s : Step Arguments) : Progress :=
  match s with
  | .done vs h =>
    .next <| match ctx with
      | .builtin .. => { m with mode := .give vs, heap := h }
      | .operation f _ use => { m with mode := .run (use.apply vs f), heap := h }
  | .fail e h => .next ({ m with heap := h }.fault e ctx)
  | .call f args h k => .next ({ m with heap := h }.callNested ctx (.proc ctx k) f args)
  | .protect f args handler h k =>
    .next ({ m with heap := h }.callNested ctx (.protect ctx k handler m.nested m.height) f args)
  | .ask r h k => .ask r fun a => { m with mode := .proc ctx (k a h), heap := default }

/-- Returns values to what waits for them. -/
def giveBack (m : Machine) (vs : List Value) : Progress :=
  match m.conts with
  | [] => .ended (.ok vs) m.heap
  | .frame f wanted _ height :: rest =>
    .next { m with mode := .run (f.receive wanted vs), conts := rest, height := height }
  | .proc ctx k :: rest =>
    .next { m with
      mode := .proc ctx (k vs m.heap), conts := rest, heap := default, nested := m.nested - 1 }
  | .protect ctx k _ nested height :: rest =>
    .next { m with
      mode := .proc ctx (k (.ok vs) m.heap), conts := rest, heap := default
      nested := nested, height := height }
  | .handled :: rest =>
    .next { m with
      mode := .unwind { value := vs.headD .nil }, conts := rest, nested := m.nested - 1 }
  | .closing r :: rest => .next { m with mode := .unwind r, conts := rest, nested := m.nested - 1 }

/-- The handler of the innermost procedure that catches faults. -/
def handlerOf : List Continuation → Option Value
  | [] => none
  | .protect _ _ handler _ _ :: _ => handler
  | _ :: rest => handlerOf rest

/-- Raises a value: a handler is asked about it first. -/
def raise (m : Machine) (r : Raised) : Machine :=
  match (if r.isMemory then none else handlerOf m.conts) with
  | none => { m with mode := .unwind r }
  | some handler =>
    let nested := m.nested + 1
    if maxNested + 20 ≤ nested then
      { m with mode := .unwind { value := .text "error in error handling" } }
    else if nested = maxNested then
      { m with
        mode := .raise { value := .text "C stack overflow" }
        conts := .handled :: m.conts, nested := nested }
    else
      { m with mode := .call handler [r.value], conts := .handled :: m.conts, nested := nested }

/-- Closes the latest value of a frame that is left for a fault. -/
def closeLeft (m : Machine) (f : Frame) (r : Raised) : Option Machine :=
  match f.closings with
  | (_, x) :: rest =>
    let f := { f with closings := rest }
    some { m with
      mode := .call (m.heap.handler x "__close") [x, r.value]
      conts := .closing r :: .frame f (.exactly 0) none m.height :: m.conts
      nested := m.nested + 1 }
  | [] => none

/-- Leaves the innermost of what runs. -/
def leave (m : Machine) (r : Raised) : Progress :=
  match m.conts with
  | [] => .ended (.error r) m.heap
  | .protect ctx k _ nested height :: rest =>
    .next { m with
      mode := .proc ctx (k (.error r.value) m.heap), conts := rest, heap := default
      nested := nested, height := height }
  | .frame f .. :: rest | .proc (.operation f ..) _ :: rest =>
    let m := { m with conts := rest }
    .next ((m.closeLeft f r).getD m)
  | _ :: rest => .next { m with conts := rest }

/-- Does what the machine is about to do. -/
def step (m : Machine) : Progress :=
  if m.heap.isOver then
    match m.settle with
    | (true, m) =>
      let conts := match m.mode with
        | .run f => .frame f (.exactly 0) none m.height :: m.conts
        | _ => m.conts
      .next { m with
        mode := .unwind outOfMemory, conts := conts
        heap := { m.heap with used := m.heap.limit } }
    | (false, m) => .next m
  else
    match m with
    | ⟨.run f, conts, heap, nested, height⟩ =>
      let m : Machine := ⟨.give [], conts, heap, nested, height⟩
      match f.code.instrs[f.pc]? with
      | none => .next m
      | some i => .next (m.execute { f with pc := f.pc + 1 } i)
    | ⟨.call f args, conts, heap, nested, height⟩ =>
      .next (Machine.call ⟨.give [], conts, heap, nested, height⟩ f args)
    | ⟨.proc ctx s, conts, heap, nested, height⟩ =>
      Machine.proceed ⟨.give [], conts, heap, nested, height⟩ ctx s
    | ⟨.give vs, conts, heap, nested, height⟩ =>
      Machine.giveBack ⟨.give [], conts, heap, nested, height⟩ vs
    | ⟨.raise r, conts, heap, nested, height⟩ =>
      .next (Machine.raise ⟨.give [], conts, heap, nested, height⟩ r)
    | ⟨.unwind r, conts, heap, nested, height⟩ =>
      Machine.leave ⟨.unwind r, conts, heap, nested, height⟩ r

end Machine

end Workflow.Script
