import Workflow.Script.Scope

/-!
# The compiler

Reads a source and writes its code in one pass, so that of several faults the first
in reading order is reported.

An expression that was read but not yet turned into instructions is a `Part`: a
variable can still become the target of an assignment, and a call may still be
asked for any number of results. `load` turns a part into one value on the stack.

Expressions and statements nest in each other. Instead of one large recursion, each
construct is a function of a `Grammar`, which holds the readers for what is nested
inside it; `grammar` ties them together, level by level, and the number of levels
is the depth to which a source may nest.
-/

namespace Workflow.Script.Compiler

/-! ## Books -/

/-- The compiler's books. -/
structure Books where
  /-- what is left of the source -/
  rest : List UInt8
  /-- the token under consideration -/
  token : Token := Token.ofEnd
  /-- the token after it, if it was looked at -/
  ahead : Option Token := none
  /-- the line that was reached -/
  line : Nat := 1
  /-- the line of the last token that was taken -/
  lastLine : Nat := 1
  /-- the functions under way, the innermost first -/
  functions : List FunctionBooks := []
  /-- the finished functions -/
  codes : Array Code
  /-- what the source is called in messages -/
  chunk : Bytes
  /-- how many steps a loop of the compiler may take -/
  steps : Nat

/-- A step of the compiler. -/
abbrev Compile := StateT Books (Except SyntaxFault)

/-- Fails with a reason. -/
def fail {α : Type} (reason : Bytes) : Compile α := fun b => .error (.malformed b.line reason)

/-- Fails near the token under consideration. -/
def failNear {α : Type} (reason : String) : Compile α := fun b =>
  .error (.malformed b.line (Token.near reason b.token.text))

/-- Takes the token under consideration. -/
def advance : Compile Unit := fun b =>
  match b.ahead with
  | some t => .ok ((), { b with token := t, ahead := none, lastLine := b.line })
  | none => do
    let (t, rest, line) ← Token.scan b.steps b.line b.rest
    .ok ((), { b with token := t, rest := rest, line := line, lastLine := b.line })

/-- Looks at the token after the one under consideration. -/
def lookAhead : Compile Token := fun b =>
  match b.ahead with
  | some t => .ok (t, b)
  | none => do
    let (t, rest, line) ← Token.scan b.steps b.line b.rest
    .ok (t, { b with ahead := some t, rest := rest, line := line })

/-- Whether the token under consideration is a word. -/
def isWord (w : String) : Compile Bool := do
  match (← get).token.kind with
  | .word v => return v = w
  | _ => return false

/-- Takes a word if it is there. -/
def accept (w : String) : Compile Bool := do
  if ← isWord w then
    advance
    return true
  else return false

/-- Takes a word that must be there. -/
def expect (w : String) : Compile Unit := do
  if !(← accept w) then failNear ("'" ++ w ++ "' expected")

/-- Takes the word that ends what an earlier word began. -/
def expectMatch (w opening : String) (line : Nat) : Compile Unit := do
  if !(← accept w) then
    if (← get).line = line then failNear ("'" ++ w ++ "' expected")
    else
      failNear ("'" ++ w ++ "' expected (to close '" ++ opening ++ "' at line " ++ toString line ++ ")")

/-- Takes a name. -/
def expectName : Compile Bytes := do
  match (← get).token.kind with
  | .name n =>
    advance
    return n
  | _ => failNear "<name> expected"

/-! ## The function under way -/

/-- The books of the function under way. -/
def current : Compile FunctionBooks := do return ((← get).functions.head?).getD {}

/-- Changes the books of the function under way. -/
def change (f : FunctionBooks → FunctionBooks) : Compile Unit :=
  modify fun b =>
    match b with
    | { rest, token, ahead, line, lastLine, functions, codes, chunk, steps } =>
      match functions with
      | [] => { rest, token, ahead, line, lastLine, functions := [], codes, chunk, steps }
      | g :: outer =>
        { rest, token, ahead, line, lastLine, functions := f g :: outer, codes, chunk, steps }

/-- The place of the next instruction. -/
def here : Compile Nat := do return (← current).instrs.size

/-- Adds an instruction in a line. Answers its place. -/
def emitAt (line : Nat) (i : Instr) : Compile Nat := do
  let place ← here
  change (·.emit line i)
  return place

/-- Adds an instruction in the line of the last token. Answers its place. -/
def emit (i : Instr) : Compile Nat := do emitAt (← get).lastLine i

/-- Adds an instruction in the line of the last token. -/
def code (i : Instr) : Compile Unit := do let _ ← emit i

/-- Changes an instruction. -/
def amend (place : Nat) (i : Instr) : Compile Unit := change (·.amend place i)

/-- The number of a fresh variable. -/
def newVar : Compile Nat := do
  let id := (← current).inCells.size
  change fun f => { f with inCells := f.inCells.push false }
  return id

/-- Makes a name visible. -/
def bindName (name : Bytes) (binding : Binding) : Compile Unit :=
  change fun f => { f with visible := ⟨name, binding⟩ :: f.visible }

/-- Fails if a function has more variables than it may have. -/
def checkCount : Compile Unit := do
  if 200 < (← current).level then
    let place := if (← get).functions.length = 1 then "main function" else "function"
    failNear ("too many local variables (limit is 200) in " ++ place)

/-! ## Parts of expressions -/

/-- An expression that was read. -/
inductive Part where
  /-- a value on the stack -/
  | value (origin : Origin)
  /-- a value known to the compiler -/
  | known (v : Value)
  /-- a variable -/
  | var (id : Nat) (name : Bytes) (isReadOnly : Bool)
  /-- a variable of an outer function -/
  | upvalue (i : Nat) (name : Bytes) (isReadOnly : Bool)
  /-- a named field of an object on the stack -/
  | field (name : Bytes) (object : Origin)
  /-- a field of an object under a key, both on the stack -/
  | index (object : Origin) (key : Option Value)
  /-- a call: one value on the stack, unless its instruction is changed -/
  | call (place : Nat) (arguments : Operands) (function : Origin) (level : Nat)
  /-- the further arguments: one value on the stack, unless the instruction is
  changed -/
  | further (place : Nat)

/-- Whether an object is the table of globals. -/
def isGlobals : Origin → Bool
  | .upvalue n => n = "_ENV".toUTF8
  | .localVar n => n = "_ENV".toUTF8
  | _ => false

/-- How messages name a field. -/
def fieldOrigin (name : Bytes) (object : Origin) : Origin :=
  if isGlobals object then .global name else .field name

/-- How messages name a field under a key. -/
def indexOrigin : Option Value → Origin
  | some (.int i) =>
    .field (if 0 ≤ i && i ≤ 255 then "integer index".toUTF8 else "?".toUTF8)
  | _ => .field "?".toUTF8

/-- Turns a part into one value on the stack. -/
def load : Part → Compile Origin
  | .value o => return o
  | .known v => do
    code (.push v)
    match v with
    | .str s => return .constant s
    | _ => return .unknown
  | .var id name _ => do
    code (.getVar id)
    return .localVar name
  | .upvalue i name _ => do
    code (.getUp i)
    return .upvalue name
  | .field name object => do
    code (.getField name object)
    return fieldOrigin name object
  | .index object key => do
    code (.index object)
    return indexOrigin key
  | .call .. => return .unknown
  | .further _ => return .unknown

/-- Asks a part that can give several values for so many of them. -/
def ask (wanted : Wanted) : Part → Compile Unit
  | .call place arguments function level => amend place (.call arguments wanted function level)
  | .further place => amend place (.further wanted)
  | _ => return

/-- Whether a part can give several values. -/
def Part.isMany : Part → Bool
  | .call .. | .further _ => true
  | _ => false

/-- How many operands a target keeps on the stack. -/
def Part.operands : Part → Nat
  | .field .. => 1
  | .index .. => 2
  | _ => 0

/-- Finds out what a name stands for. A name that is no variable is a field of the
table of globals. -/
def nameExpr (name : Bytes) : Compile Part := do
  match resolve name (← get).functions with
  | some (r, functions) =>
    modify fun b => { b with functions := functions }
    match r with
    | .var id ro => return .var id name ro
    | .upvalue i ro => return .upvalue i name ro
    | .known v => return .known v
  | none =>
    let env := "_ENV".toUTF8
    match resolve env (← get).functions with
    | some (r, functions) =>
      modify fun b => { b with functions := functions }
      let object ← match r with
        | .var id ro => load (.var id env ro)
        | .upvalue i ro => load (.upvalue i env ro)
        | .known v => load (.known v)
      return .field name object
    | none => fail "no table of globals".toUTF8

/-! ## What is nested -/

/-- The readers for what is nested in a construct. -/
structure Grammar where
  /-- reads an expression of operators above a priority -/
  operation : Nat → Compile Part
  /-- reads a statement -/
  statement : Compile Unit

namespace Grammar

variable (g : Grammar)

/-- Reads an expression. -/
def expr : Compile Part := g.operation 0

/-- Reads an expression into one value on the stack. -/
def value : Compile Origin := do load (← g.expr)

/-- Reads a list of expressions. All but the last are on the stack; answers how many
there are and the last one. -/
def exprList : Compile (Nat × Part) := do
  let rec more (steps n : Nat) (last : Part) : Compile (Nat × Part) := do
    match steps with
    | 0 => return (n, last)
    | steps + 1 =>
      if ← accept "," then
        let _ ← load last
        more steps (n + 1) (← g.expr)
      else return (n, last)
  more (← get).steps 1 (← g.expr)

/-- Fits a list of values to so many targets. -/
def fit (targets count : Nat) (last : Part) : Compile Unit := do
  if last.isMany then
    ask (.exactly (targets + 1 - count)) last
    if targets + 1 < count then code (.drop (count - 1 - targets))
  else
    if 0 < count then
      let _ ← load last
    for _ in List.range (targets - count) do code (.push .nil)
    if targets < count then code (.drop (count - targets))

/-- Whether the token under consideration ends a block. -/
def endsBlock (withUntil : Bool) : Compile Bool := do
  match (← get).token.kind with
  | .stop => return true
  | .word w => return w = "else" || w = "elseif" || w = "end" || (withUntil && w = "until")
  | _ => return false

/-- Reads the statements of a block. -/
def statements : Compile Unit := do
  let rec more (steps : Nat) : Compile Unit := do
    match steps with
    | 0 => return
    | steps + 1 =>
      if ← endsBlock true then return
      let isReturn ← isWord "return"
      g.statement
      if isReturn then return
      more steps
  more (← get).steps

/-! ### Blocks, labels and jumps -/

/-- Opens a block. -/
def openBlock (isLoop : Bool) : Compile Unit :=
  change fun f =>
    { f with blocks := ⟨f.level, isLoop, false, f.labels.length, f.jumps.length⟩ :: f.blocks }

/-- Completes the jumps of the innermost block that wait for a label. -/
def land (name : Bytes) (target level : Nat) : Compile Unit := do
  let f ← current
  let since := (f.blocks.head?.map (·.jumps)).getD 0
  let (inBlock, outer) := (f.jumps.take (f.jumps.length - since), f.jumps.drop (f.jumps.length - since))
  let (landing, waiting) := inBlock.partition fun j => j.name = name
  for j in landing.reverse do
    if j.level < level then
      let crossed := ((f.visible.reverse[j.level]?).map (·.name)).getD .empty
      fail ("<goto ".toUTF8 ++ j.name ++ "> at line ".toUTF8 ++ (toString j.line).toUTF8 ++
        " jumps into the scope of local '".toUTF8 ++ crossed ++ "'".toUTF8)
    amend j.place (.leave target level)
  change fun f => { f with jumps := waiting ++ outer }

/-- Closes the innermost block. Jumps that still wait go on in the block outside; at
the end of a function nothing may wait. -/
def closeBlock : Compile Unit := do
  let f ← current
  match f.blocks with
  | [] => return
  | b :: outer =>
    change fun f => { f with visible := f.visible.drop (f.visible.length - b.level) }
    if b.closes && !outer.isEmpty then code (.close b.level)
    if b.isLoop then land "break".toUTF8 (← here) b.level
    let f ← current
    let since := f.jumps.length - b.jumps
    if outer.isEmpty then
      match (f.jumps.take since).getLast? with
      | some j =>
        if j.name = "break".toUTF8 then
          fail ("break outside loop at line ".toUTF8 ++ (toString j.line).toUTF8)
        else
          fail ("no visible label '".toUTF8 ++ j.name ++ "' for <goto> at line ".toUTF8 ++
            (toString j.line).toUTF8)
      | none => pure ()
    change fun f =>
      { f with
        blocks := outer
        labels := f.labels.drop (f.labels.length - b.labels)
        jumps := (f.jumps.take since).map (fun j => { j with level := min j.level b.level }) ++
          f.jumps.drop since }

/-- Reads a block. -/
def block : Compile Unit := do
  openBlock false
  g.statements
  closeBlock

/-- Adds a jump that waits for its label. -/
def jumpTo (name : Bytes) (line : Nat) : Compile Unit := do
  let place ← emit (.leave 0 0)
  change fun f => { f with jumps := ⟨name, line, place, f.level⟩ :: f.jumps }

/-! ### Functions -/

/-- Reads the parameters of a function. -/
def parameters : Compile Unit := do
  if ← isWord ")" then return
  let rec more (steps : Nat) : Compile Unit := do
    match steps with
    | 0 => return
    | steps + 1 =>
      match (← get).token.kind with
      | .name n =>
        advance
        bindName n (.var (← newVar))
        checkCount
        if ← accept "," then more steps
      | .word "..." =>
        advance
        change fun f => { f with isVararg := true }
      | _ => failNear "<name> or '...' expected"
  more (← get).steps

/-- Reads the parameters and the body of a function and pushes the function. -/
def body (isMethod : Bool) (line : Nat) : Compile Unit := do
  modify fun b => { b with functions := {} :: b.functions }
  openBlock false
  expect "("
  if isMethod then bindName "self".toUTF8 (.var (← newVar))
  parameters
  change fun f => { f with parameters := f.inCells.size }
  expect ")"
  g.statements
  expectMatch "end" "function" line
  code (.ret (.fixed 0))
  closeBlock
  let b ← get
  match b.functions with
  | [] => return
  | f :: outer =>
    set { b with functions := outer, codes := b.codes.push (f.settle b.chunk) }
    code (.closure b.codes.size)

/-! ### Tables -/

/-- Reads a field with a key into the table on the stack. -/
def keyedField : Compile Unit := do
  match (← get).token.kind with
  | .name n =>
    advance
    expect "="
    let _ ← g.value
    code (.initField n)
  | _ =>
    expect "["
    let _ ← g.value
    expect "]"
    expect "="
    let _ ← g.value
    code .initIndex

/-- Reads a table. -/
def table : Compile Unit := do
  let line := (← get).line
  let place ← emit (.newTable 0 0)
  expect "\x7b"
  let rec more (steps items keyed : Nat) : Compile (Nat × Nat) := do
    match steps with
    | 0 => return (items, keyed)
    | steps + 1 =>
      if ← isWord "\x7d" then return (items, keyed)
      let isKeyed ← match (← get).token.kind with
        | .name _ => do
          match (← lookAhead).kind with
          | .word w => pure (decide (w = "="))
          | _ => pure false
        | .word w => pure (decide (w = "["))
        | _ => pure false
      if isKeyed then
        g.keyedField
        if (← accept ",") || (← accept ";") then more steps items (keyed + 1)
        else return (items, keyed + 1)
      else
        let part ← g.expr
        if (← accept ",") || (← accept ";") then
          if part.isMany && (← isWord "\x7d") then
            ask .all part
            code (.initList (items + 1) (.withTail 0))
            return (items, keyed)
          let _ ← load part
          code (.initList (items + 1) (.fixed 1))
          more steps (items + 1) keyed
        else if part.isMany then
          ask .all part
          code (.initList (items + 1) (.withTail 0))
          return (items, keyed)
        else
          let _ ← load part
          code (.initList (items + 1) (.fixed 1))
          return (items + 1, keyed)
  let (items, keyed) ← more (← get).steps 0 0
  expectMatch "\x7d" "\x7b" line
  amend place (.newTable items keyed)

/-! ### Calls and fields -/

/-- Reads the arguments of a call of the function on the stack. `given` operands
are arguments already. -/
def arguments (given : Nat) (function : Origin) : Compile Part := do
  let line := (← get).line
  let operands ← match (← get).token.kind with
    | .str s => do
      advance
      code (.push (.str s))
      pure (Operands.fixed (given + 1))
    | .word "\x7b" => do
      g.table
      pure (Operands.fixed (given + 1))
    | .word "(" => do
      advance
      if ← isWord ")" then
        advance
        pure (Operands.fixed given)
      else
        let (n, last) ← g.exprList
        let operands ← if last.isMany then do
            ask .all last
            pure (Operands.withTail (given + n - 1))
          else do
            let _ ← load last
            pure (Operands.fixed (given + n))
        expectMatch ")" "(" line
        pure operands
    | _ => failNear "function arguments expected"
  let level := (← current).level
  let place ← emitAt line (.call operands (.exactly 1) function level)
  return .call place operands function level

/-- Reads a name or an expression in parentheses. -/
def primary : Compile Part := do
  match (← get).token.kind with
  | .name n =>
    advance
    nameExpr n
  | .word "(" =>
    let line := (← get).line
    advance
    let part ← g.expr
    expectMatch ")" "(" line
    return .value (← load part)
  | _ => failNear "unexpected symbol"

/-- Reads a primary expression with the fields, keys and calls that follow it. -/
def suffixed : Compile Part := do
  let rec more (steps : Nat) (part : Part) : Compile Part := do
    match steps with
    | 0 => return part
    | steps + 1 =>
      match (← get).token.kind with
      | .word "." =>
        let object ← load part
        advance
        more steps (.field (← expectName) object)
      | .word "[" =>
        let object ← load part
        advance
        let key ← g.expr
        let next ← match key with
          | .known (.str s) => pure (Part.field s object)
          | .known v => do
            let _ ← load key
            pure (Part.index object (some v))
          | key => do
            let _ ← load key
            pure (Part.index object none)
        expect "]"
        more steps next
      | .word ":" =>
        let object ← load part
        advance
        let name ← expectName
        code (.method name object)
        more steps (← g.arguments 1 (.method name))
      | .word "(" | .word "\x7b" | .str _ =>
        let function ← load part
        more steps (← g.arguments 0 function)
      | _ => return part
  more (← get).steps (← g.primary)

/-- Reads an operand. -/
def simple : Compile Part := do
  match (← get).token.kind with
  | .number n =>
    advance
    return .known (.ofNumeral n)
  | .str s =>
    advance
    return .known (.str s)
  | .word "nil" =>
    advance
    return .known .nil
  | .word "true" =>
    advance
    return .known (.bool true)
  | .word "false" =>
    advance
    return .known (.bool false)
  | .word "..." =>
    if !(← current).isVararg then failNear "cannot use '...' outside a vararg function"
    advance
    return .further (← emit (.further (.exactly 1)))
  | .word "\x7b" =>
    g.table
    return .value .unknown
  | .word "function" =>
    let line := (← get).line
    advance
    g.body false line
    return .value .unknown
  | _ => g.suffixed

end Grammar

/-! ## Operators -/

/-- What an operator between two operands does. -/
inductive Infix where
  /-- computes -/
  | binary (op : BinaryOp)
  /-- compares -/
  | compare (op : Relation)
  /-- concatenates -/
  | concat
  /-- goes on only if the left operand is true -/
  | and
  /-- goes on only if the left operand is false -/
  | or

/-- The operators between operands, with the priorities to their left and right. -/
def infixes : List (String × Infix × Nat × Nat) := [
  ("+", .binary .add, 10, 10), ("-", .binary .sub, 10, 10), ("*", .binary .mul, 11, 11),
  ("%", .binary .mod, 11, 11), ("^", .binary .pow, 14, 13), ("/", .binary .div, 11, 11),
  ("//", .binary .idiv, 11, 11), ("&", .binary .band, 6, 6), ("|", .binary .bor, 4, 4),
  ("~", .binary .bxor, 5, 5), ("<<", .binary .shl, 7, 7), (">>", .binary .shr, 7, 7),
  ("..", .concat, 9, 8), ("==", .compare .eq, 3, 3), ("<", .compare .lt, 3, 3),
  ("<=", .compare .le, 3, 3), ("~=", .compare .ne, 3, 3), (">", .compare .gt, 3, 3),
  (">=", .compare .ge, 3, 3), ("and", .and, 2, 2), ("or", .or, 1, 1)]

/-- The operator that a token is. -/
def infix? (t : Token) : Option (Infix × Nat × Nat) :=
  match t.kind with
  | .word w => (infixes.find? fun (v, _) => v = w).map Prod.snd
  | _ => none

/-- The priority of the operators before an operand. -/
def unaryPriority : Nat := 12

/-- The instruction of an operator before an operand. -/
def unary? (t : Token) : Option (Origin → Instr) :=
  match t.kind with
  | .word "-" => some .negate
  | .word "~" => some .invert
  | .word "not" => some fun _ => .not
  | .word "#" => some .length
  | _ => none

namespace Grammar

variable (g : Grammar)

/-- Reads the right operand of an operator whose left one is a part. -/
def rightOperand (op : Infix) (right : Nat) (left : Part) (line : Nat) : Compile Part := do
  let leftOrigin ← load left
  match op with
  | .and =>
    let place ← emit (.jumpIfFalseElsePop 0)
    let _ ← load (← g.operation right)
    amend place (.jumpIfFalseElsePop (← here))
  | .or =>
    let place ← emit (.jumpIfTrueElsePop 0)
    let _ ← load (← g.operation right)
    amend place (.jumpIfTrueElsePop (← here))
  | .binary op =>
    let rightOrigin ← load (← g.operation right)
    let _ ← emitAt line (.binary op leftOrigin rightOrigin)
  | .compare op =>
    let _ ← load (← g.operation right)
    let _ ← emitAt line (.compare op)
  | .concat =>
    let rightOrigin ← load (← g.operation right)
    let _ ← emitAt line (.concat leftOrigin rightOrigin)
  return .value .unknown

/-- Reads an expression of operators above a priority, one level further in. -/
def operationStep (limit : Nat) : Compile Part := do
  let first ← match unary? (← get).token with
    | some instr => do
      let line := (← get).line
      advance
      let origin ← load (← g.operation unaryPriority)
      let _ ← emitAt line (instr origin)
      pure (Part.value .unknown)
    | none => g.simple
  let rec more (steps : Nat) (left : Part) : Compile Part := do
    match steps with
    | 0 => return left
    | steps + 1 =>
      match infix? (← get).token with
      | some (op, leftPriority, rightPriority) =>
        if leftPriority ≤ limit then return left
        let line := (← get).line
        advance
        more steps (← g.rightOperand op rightPriority left line)
      | none => return left
  more (← get).steps first

/-! ## Statements -/

/-- Refuses the assignment of what is never assigned again. -/
def checkAssignable : Part → Compile Unit
  | .var _ name true => fail ("attempt to assign to const variable '".toUTF8 ++ name ++ "'".toUTF8)
  | .upvalue _ name true =>
    fail ("attempt to assign to const variable '".toUTF8 ++ name ++ "'".toUTF8)
  | _ => return

/-- Stores the last operand in a target whose own operands are `depth` further
down. -/
def store (target : Part) (depth : Nat) : Compile Unit := do
  match target with
  | .var id _ _ => code (.setVar id)
  | .upvalue i _ _ => code (.setUp i)
  | .field name object => code (.setField name depth object)
  | .index object _ => code (.setIndex depth object)
  | _ => return

/-- Whether a part can be assigned; if its name is known to the compiler, `name`
says which. -/
def isTarget : Part → Bool
  | .var .. | .upvalue .. | .field .. | .index .. => true
  | _ => false

/-- Reads further targets and the values of an assignment. `targets` holds the
targets so far, the last first. -/
def assignment (first : Part) : Compile Unit := do
  let rec more (steps : Nat) (targets : List Part) : Compile (List Part) := do
    match steps with
    | 0 => return targets
    | steps + 1 =>
      match targets with
      | last :: _ =>
        if !isTarget last then failNear "syntax error"
        checkAssignable last
      | [] => pure ()
      if ← accept "," then more steps ((← g.suffixed) :: targets)
      else return targets
  let targets ← more (← get).steps [first]
  expect "="
  let (n, last) ← g.exprList
  fit targets.length n last
  let mut depth := targets.length
  for target in targets do
    depth := depth - 1
    store target depth
    depth := depth + target.operands
  if 0 < depth then code (.drop depth)

/-- Reads a call or an assignment. -/
def exprStatement : Compile Unit := do
  let start ← get
  let part ← g.suffixed
  let isKnown : Option Bytes := match part, start.token.kind with
    | .known _, .name n => some n
    | _, _ => none
  if (← isWord "=") || (← isWord ",") then
    match isKnown with
    | some n => fail ("attempt to assign to const variable '".toUTF8 ++ n ++ "'".toUTF8)
    | none => g.assignment part
  else
    match part with
    | .call .. => ask (.exactly 0) part
    | _ => failNear "syntax error"

/-- Reads a condition, `then` and a block. Answers the place of the jump over it. -/
def thenBlock : Compile Nat := do
  advance
  let _ ← g.value
  expect "then"
  let place ← emit (.jumpIfFalse 0)
  g.block
  return place

/-- Reads a conditional. -/
def ifStatement (line : Nat) : Compile Unit := do
  let rec more (steps : Nat) (exits : List Nat) : Compile (List Nat) := do
    match steps with
    | 0 => return exits
    | steps + 1 =>
      let skip ← g.thenBlock
      let isElse ← isWord "else"
      let isElseif ← isWord "elseif"
      if isElse || isElseif then
        let exit ← emit (.jump 0)
        amend skip (.jumpIfFalse (← here))
        if isElseif then more steps (exit :: exits)
        else
          advance
          g.block
          return exit :: exits
      else
        amend skip (.jumpIfFalse (← here))
        return exits
  let exits ← more (← get).steps []
  expectMatch "end" "if" line
  for e in exits do amend e (.jump (← here))

/-- Reads a loop with its condition in front. -/
def whileStatement (line : Nat) : Compile Unit := do
  advance
  let start ← here
  let _ ← g.value
  let exit ← emit (.jumpIfFalse 0)
  openBlock true
  expect "do"
  g.block
  code (.jump start)
  expectMatch "end" "while" line
  closeBlock
  amend exit (.jumpIfFalse (← here))

/-- Reads a loop with its condition at the end, which sees the names of the
loop. -/
def repeatStatement (line : Nat) : Compile Unit := do
  let start ← here
  openBlock true
  openBlock false
  advance
  g.statements
  expectMatch "until" "repeat" line
  let _ ← g.value
  closeBlock
  code (.jumpIfFalse start)
  closeBlock

/-- Makes hidden variables of a loop visible. Answers the first of them. -/
def hiddenVars (n : Nat) : Compile Nat := do
  let base := (← current).inCells.size
  for _ in List.range n do bindName "(for state)".toUTF8 (.var (← newVar))
  return base

/-- Reads a loop over numbers, after its variable. -/
def numericFor (name : Bytes) (line : Nat) : Compile Unit := do
  advance
  let _ ← g.value
  expect ","
  let _ ← g.value
  if ← accept "," then
    let _ ← g.value
  else code (.push (.int 1))
  let base ← hiddenVars 3
  expect "do"
  let prepare ← emit (.forPrepare base 0)
  openBlock false
  let id ← newVar
  let start ← emit (.forStep base id false 0)
  bindName name (.var id)
  checkCount
  g.block
  closeBlock
  let _ ← emitAt line (.jump start)
  amend prepare (.forPrepare base (← here))
  amend start (.forStep base id false (← here))

/-- Reads a loop over an iterator, after its first variable. -/
def genericFor (first : Bytes) : Compile Unit := do
  let rec more (steps : Nat) (names : List Bytes) : Compile (List Bytes) := do
    match steps with
    | 0 => return names
    | steps + 1 =>
      if ← accept "," then more steps ((← expectName) :: names) else return names
  let names ← more (← get).steps [first]
  expect "in"
  let line := (← get).line
  let (n, last) ← g.exprList
  fit 4 n last
  let level := (← current).level
  let base ← hiddenVars 4
  for i in [3, 2, 1, 0] do code (.setVar (base + i))
  change (·.markCloses)
  code (.willClose (base + 3) level "(for state)".toUTF8)
  expect "do"
  let start ← emitAt line (.forCall base names.length)
  let test ← emitAt line (.forTest base names.length 0)
  openBlock false
  let ids ← names.mapM fun _ => newVar
  for id in ids do code (.declare id)
  for (name, id) in (names.zip ids).reverse do bindName name (.var id)
  checkCount
  g.block
  closeBlock
  let _ ← emitAt line (.jump start)
  amend test (.forTest base names.length (← here))

/-- Reads a loop over numbers or over an iterator. -/
def forStatement (line : Nat) : Compile Unit := do
  openBlock true
  advance
  let name ← expectName
  match (← get).token.kind with
  | .word "=" => g.numericFor name line
  | .word "," | .word "in" => g.genericFor name
  | _ => failNear "'=' or 'in' expected"
  expectMatch "end" "for" line
  closeBlock

/-- Reads a function with a name. -/
def functionStatement (line : Nat) : Compile Unit := do
  advance
  let rec more (steps : Nat) (part : Part) : Compile (Part × Bool) := do
    match steps with
    | 0 => return (part, false)
    | steps + 1 =>
      if ← isWord "." then
        let object ← load part
        advance
        more steps (.field (← expectName) object)
      else if ← isWord ":" then
        let object ← load part
        advance
        return (.field (← expectName) object, true)
      else return (part, false)
  let name ← expectName
  let start ← nameExpr name
  let (target, isMethod) ← more (← get).steps start
  g.body isMethod line
  match target with
  | .known _ => fail ("attempt to assign to const variable '".toUTF8 ++ name ++ "'".toUTF8)
  | _ => checkAssignable target
  store target 0
  if 0 < target.operands then code (.drop target.operands)

/-- Reads a local function, which sees its own name. -/
def localFunction : Compile Unit := do
  let line := (← get).line
  advance
  let name ← expectName
  let id ← newVar
  bindName name (.var id)
  checkCount
  code (.push .nil)
  code (.declare id)
  g.body false line
  code (.setVar id)

/-- What is asked of a local variable beside its name. -/
inductive Attribute where
  | none | isConst | isClose
  deriving DecidableEq

/-- Reads the attribute of a local variable. -/
def readAttribute : Compile Attribute := do
  if ← accept "<" then
    let name ← expectName
    expect ">"
    if name = "const".toUTF8 then return .isConst
    else if name = "close".toUTF8 then return .isClose
    else fail ("unknown attribute '".toUTF8 ++ name ++ "'".toUTF8)
  else return .none

/-- Reads local variables. -/
def localStatement : Compile Unit := do
  let rec more (steps : Nat) (names : List (Bytes × Attribute)) :
      Compile (List (Bytes × Attribute)) := do
    match steps with
    | 0 => return names
    | steps + 1 =>
      let name ← expectName
      let a ← readAttribute
      if a = .isClose && names.any (fun (_, b) => b = .isClose) then
        fail "multiple to-be-closed variables in local list".toUTF8
      let names := (name, a) :: names
      if ← accept "," then more steps names else return names
  let names ← more (← get).steps []
  let (n, last) ← if ← accept "=" then g.exprList else pure (0, Part.value .unknown)
  let known : Option Value := match last, names.head? with
    | .known v, some (_, .isConst) => if n = names.length then some v else none
    | _, _ => none
  let inVars := match known with
    | some _ => names.drop 1
    | none => names
  if known.isNone then fit names.length n last
  let ids ← inVars.mapM fun _ => newVar
  for id in ids do code (.declare id)
  for ((name, a), id) in (inVars.zip ids).reverse do
    let level := (← current).level
    bindName name (if a = .none then .var id else .readOnly id)
    if a = .isClose then
      change (·.markCloses)
      code (.willClose id level name)
  match known, names.head? with
  | some v, some (name, _) => bindName name (.known v)
  | _, _ => pure ()
  checkCount

/-- Reads a label, and the labels right behind it. -/
def labelStatement : Compile Unit := do
  advance
  let line := (← get).line
  let name ← expectName
  expect "::"
  let rec skip (steps : Nat) : Compile Unit := do
    match steps with
    | 0 => return
    | steps + 1 =>
      if (← isWord ";") || (← isWord "::") then
        g.statement
        skip steps
  skip (← get).steps
  let f ← current
  match f.labels.find? fun l => l.name = name with
  | some l =>
    fail ("label '".toUTF8 ++ name ++ "' already defined on line ".toUTF8 ++ (toString l.line).toUTF8)
  | none =>
    let isLast ← endsBlock false
    let target ← here
    let level := if isLast then (f.blocks.head?.map (·.level)).getD 0 else f.level
    change fun f => { f with labels := ⟨name, line, target, level⟩ :: f.labels }
    land name target level

/-- Reads a jump to a label. -/
def gotoStatement : Compile Unit := do
  let line := (← get).line
  advance
  let name ← expectName
  match (← current).labels.find? fun l => l.name = name with
  | some l => code (.leave l.target l.level)
  | none => jumpTo name line

/-- Reads the values that a function returns. A call alone is done in place of the
function, unless variables are left to close. -/
def returnStatement : Compile Unit := do
  advance
  if (← endsBlock true) || (← isWord ";") then code (.ret (.fixed 0))
  else
    let (n, last) ← g.exprList
    if last.isMany then
      match last, n = 1 && !(← current).blocks.any (·.closes) with
      | .call place arguments function level, true =>
        amend place (.tailCall arguments function level)
        code (.ret (.withTail 0))
      | _, _ =>
        ask .all last
        code (.ret (.withTail (n - 1)))
    else
      let _ ← load last
      code (.ret (.fixed n))
  let _ ← accept ";"

/-- Reads a statement, one level further in. -/
def statementStep : Compile Unit := do
  let line := (← get).line
  match (← get).token.kind with
  | .word ";" => advance
  | .word "if" => g.ifStatement line
  | .word "while" => g.whileStatement line
  | .word "do" =>
    advance
    g.block
    expectMatch "end" "do" line
  | .word "for" => g.forStatement line
  | .word "repeat" => g.repeatStatement line
  | .word "function" => g.functionStatement line
  | .word "local" =>
    advance
    if ← isWord "function" then g.localFunction else g.localStatement
  | .word "::" => g.labelStatement
  | .word "return" => g.returnStatement
  | .word "break" =>
    advance
    jumpTo "break".toUTF8 line
  | .word "goto" => gotoStatement
  | _ => g.exprStatement

end Grammar

/-- The readers for sources that nest so many levels deep. -/
def grammar : Nat → Grammar
  | 0 => ⟨fun _ _ => .error .tooDeep, fun _ => .error .tooDeep⟩
  | n + 1 => let g := grammar n; ⟨g.operationStep, g.statementStep⟩

/-- How deep a source may nest. -/
def maxDepth : Nat := 199

/-- Reads a whole source. Its code is the last one. -/
def main : Compile Unit := do
  openBlock false
  advance
  (grammar maxDepth).statements
  match (← get).token.kind with
  | .stop => pure ()
  | _ => failNear "<eof> expected"
  code (.ret (.fixed 0))
  Grammar.closeBlock
where
  /-- Opens the outermost block. -/
  openBlock (isLoop : Bool) : Compile Unit := Grammar.openBlock isLoop

end Compiler

/-- Compiles a source. The new functions are added to those in `codes`, the whole
source as the last one. It takes further arguments and captures the table of
globals. -/
def compile (chunk : Bytes) (source : Bytes) (codes : Array Code) :
    Except SyntaxFault (Array Code) :=
  let start : Compiler.Books :=
    { rest := Bytes.bytes source, codes := codes, chunk := chunk, steps := source.size + 3
      functions := [{ isVararg := true, captured := #[⟨"_ENV".toUTF8, false, .upvalue 0⟩] }] }
  match Compiler.main start with
  | .error e => .error e
  | .ok (_, b) =>
    match b.functions with
    | f :: _ => .ok (b.codes.push (f.settle chunk))
    | [] => .ok b.codes

end Workflow.Script
