import Workflow.Disk
import Workflow.Environment
import Workflow.Instant

/-!
# Actions

What a program does to its surroundings, as a tree: a program asks for an effect and
goes on with what it makes of the answer. A tree does nothing by itself. There are two
ways to have it done: for real, and in a `World`, where the disk is a value, time passes
at once, and whatever happens can be looked at afterwards.

* `Effect` — what a program may ask for. No other effect exists for it: none reads back
  what was printed, and none finds a file that the program cannot name.
* `Action` — the tree, a free monad over effects.
* `World` — all that answers depend on.
* `perform` — an action in a world. There are two ways not to come to an end: to wait for
  nothing, and to wait for longer than the world has patience.
-/

namespace Workflow.CommandLine

/-! ## Effects -/

/-- What a program may ask for. -/
inductive Effect where
  /-- the value of a variable of the environment -/
  | valueOf (name : String)
  /-- what a path names -/
  | look (path : String)
  /-- the files of a directory -/
  | list (path : String)
  /-- a change of the disk -/
  | change (c : Disk.Change)
  /-- a line to be printed -/
  | say (line : String)
  /-- a line to be printed for those who look after the program -/
  | complain (line : String)
  /-- the date and time -/
  | clock
  /-- a name that nothing has -/
  | fresh
  /-- a random word -/
  | chance
  /-- a number of milliseconds to pass -/
  | pause (millis : Nat)
  /-- a line of input, to be waited for at most a number of milliseconds, if there is one -/
  | hear (limit : Option Nat)
  deriving DecidableEq

/-- What waiting for a line of input comes to. -/
inductive Heard where
  /-- a line -/
  | line (text : String)
  /-- no line came in time -/
  | silence
  /-- no line will come any more -/
  | ended
  deriving DecidableEq, Repr

/-- What answers an effect. -/
abbrev Effect.Answer : Effect → Type
  | valueOf _ => Option String
  | look _ => Stored
  | list _ => Option (List (String × String))
  | change _ => Except Failure Unit
  | say _ | complain _ | pause _ => Unit
  | clock => Instant
  | fresh => String
  | chance => UInt64
  | hear _ => Heard

/-! ## Actions -/

/-- What a program does. -/
inductive Action (α : Type) : Type where
  /-- nothing more -/
  | done (a : α)
  /-- it ends with an exit code -/
  | quit (code : Nat)
  /-- it waits for nothing -/
  | hang
  /-- it asks for an effect and goes on -/
  | ask (e : Effect) (next : e.Answer → Action α)

namespace Action

variable {α β : Type}

/-- Puts further actions behind the end. -/
protected def bind : Action α → (α → Action β) → Action β
  | done a, f => f a
  | quit code, _ => quit code
  | hang, _ => hang
  | ask e k, f => ask e fun answer => (k answer).bind f

instance : Monad Action where
  pure := done
  bind := Action.bind

@[simp] theorem done_bind (a : α) (f : α → Action β) : (done a).bind f = f a := rfl

@[simp] theorem bind_done (m : Action α) : m.bind done = m := by
  induction m with
  | done | quit | hang => rfl
  | ask e k ih => exact congrArg (ask e) (funext ih)

/-- Asks for an effect and gives the answer. -/
def request (e : Effect) : Action e.Answer := ask e done

/-- Prints a line. -/
def say (line : String) : Action Unit := request (.say line)

/-- Prints a line for those who look after the program. -/
def complain (line : String) : Action Unit := request (.complain line)

/-- Ends the program for a reason that is printed. -/
def fail (reason : String) : Action α := do
  complain s!"Error: {reason}"
  quit 1

/-- Ends the program if something has failed. -/
def orFail : Except Failure α → Action α
  | .ok a => return a
  | .error f => fail f.message

end Action

/-! ## Worlds -/

/-- Where actions can be performed as values. -/
structure World where
  /-- the variables of the environment -/
  environment : Environment := []
  /-- the disk -/
  disk : Disk := {}
  /-- the lines of input that were not heard yet; all are there from the start -/
  input : List String := []
  /-- the lines that were printed, the latest first -/
  said : List String := []
  /-- the lines that were printed for those who look after the program, the latest first -/
  complaints : List String := []
  /-- the date and time at the start -/
  epoch : Instant
  /-- the milliseconds that have passed since then -/
  now : Nat := 0
  /-- after how many milliseconds nobody waits any more -/
  patience : Nat
  /-- names that nothing has -/
  nameOf : Nat → String
  /-- how many of them were given -/
  named : Nat := 0
  /-- the random words to come; when they are used up, all further ones are zero -/
  chances : List UInt64 := []

namespace World

/-- Answers an effect, unless patience is at an end. -/
def answer? (w : World) : (e : Effect) → Option (e.Answer × World)
  | .valueOf name => some (w.environment.find? name, w)
  | .look path => some (w.disk.look path, w)
  | .list path => some (w.disk.list path, w)
  | .change c =>
    match w.disk.apply c with
    | .ok disk => some (.ok (), { w with disk })
    | .error f => some (.error f, w)
  | .say line => some ((), { w with said := line :: w.said })
  | .complain line => some ((), { w with complaints := line :: w.complaints })
  | .clock => some (w.epoch.afterMillis w.now, w)
  | .fresh => some (w.nameOf w.named, { w with named := w.named + 1 })
  | .chance => some (w.chances.headD 0, { w with chances := w.chances.tail })
  | .pause millis =>
    let now := w.now + millis
    if now ≤ w.patience then some ((), { w with now }) else none
  | .hear _ =>
    match w.input with
    | line :: rest => some (.line line, { w with input := rest })
    | [] => some (.ended, w)

/-- Performs an action. Gives the exit code, if the program comes to an end, and the
world after it. -/
def perform : Action Unit → World → Option Nat × World
  | .done _, w => (some 0, w)
  | .quit code, w => (some code, w)
  | .hang, w => (none, w)
  | .ask e next, w =>
    match w.answer? e with
    | some (answer, w) => perform (next answer) w
    | none => (none, w)

end World

end Workflow.CommandLine
