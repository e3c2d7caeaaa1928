import Workflow.Script.Machine
import Workflow.Vars

/-!
# The sandbox

Runs the script of a node against the store variables. The sandbox is the host: it
carries out each request of the script in turn and notes what there is to tell.

A script changes the variables only by requests, and every change is told at once,
so who replays what was told knows the variables at every moment, whether the
script succeeds or fails.
-/

namespace Workflow

open Script

/-- How requests travel: a request has a response or a reason why there is none. -/
abbrev Network := HttpRequest → Except String HttpResponse

/-- A network over time: how a request travels may depend on those that the script has
sent before, the latest first. -/
abbrev Traffic := List HttpRequest → Network

namespace Sandbox

/-! ## The host -/

/-- What a script has brought about so far. -/
structure State where
  /-- the variables -/
  vars : Vars
  /-- what was told, the latest first -/
  told : List Event := []
  /-- the requests that were sent, the latest first -/
  sent : List HttpRequest := []

/-- Changes the variables and tells them. -/
def State.write (s : State) (f : Vars → Vars) : State :=
  let vars := f s.vars
  { s with vars := vars, told := .varsUpdate vars :: s.told }

/-- Carries out a request of the script of a node. -/
def serve (traffic : Traffic) (node : String) (s : State) : (r : Request) → r.Answer × State
  | .getVar reference => (s.vars.resolve? reference, s)
  | .setVar key value => ((), s.write fun vars => vars.set key value)
  | .deleteVar key => ((), s.write fun vars => vars.remove key)
  | .allVars => (s.vars.toJson, s)
  | .log level values => ((), { s with told := .nodeLog node level values :: s.told })
  | .wait reason => ((), s.write fun vars => vars.setWaiting reason)
  | .send request => (traffic s.sent request, { s with sent := request :: s.sent })

/-! ## Running -/

/-- How the machine has ended. -/
inductive Ending where
  /-- with values -/
  | values (vs : List Value)
  /-- with a fault -/
  | fault (r : Raised)
  /-- not at all, within the steps it was given -/
  | unfinished

/-- Runs the machine for so many steps. -/
def drive (traffic : Traffic) (node : String) : Nat → Machine → State → Ending × Heap × State
  | 0, m, s => (.unfinished, m.heap, s)
  | steps + 1, m, s =>
    match m.step with
    | .next m => drive traffic node steps m s
    | .ask r k =>
      let (answer, s) := serve traffic node s r
      drive traffic node steps (k answer) s
    | .ended (.ok vs) h => (.values vs, h, s)
    | .ended (.error r) h => (.fault r, h, s)

/-- How many steps a script may take. -/
def maxSteps : Nat := 2 ^ 62

/-- The text of bytes up to a zero. -/
def shownText (b : Bytes) : String :=
  (Bytes.ofList ((Bytes.bytes b).takeWhile (· ≠ 0))).toTextLossy

/-- The text of a fault that nothing has caught. A program may have a say in it; if it
fails in turn, its own fault takes the place. -/
def faultText (traffic : Traffic) (node : String) : Nat → Value → Heap → State → String × State
  | 0, _, _, s => ("runtime error: C stack overflow" ++ Operators.traceback, s)
  | attempts + 1, v, h, s =>
    match v with
    | .failure r => (h.failures.getD r "" ++ Operators.traceback, s)
    | v =>
      let m : Machine := { mode := .call (.builtin .tostring) [v], heap := h }
      match drive traffic node maxSteps m s with
      | (.values vs, _, s) =>
        let text := ((vs.headD .nil).toBytes?).getD .empty
        ("runtime error: " ++ shownText text ++ Operators.traceback, s)
      | (.fault r, h, s) => faultText traffic node attempts r.value h s
      | (.unfinished, _, s) => ("runtime error: " ++ Operators.traceback, s)

/-- What a script leaves behind. -/
structure Outcome where
  /-- the variables, with the changes made before a fault -/
  vars : Vars
  /-- the fault of the script -/
  error : Option String := none
  /-- what was told, in order -/
  told : List Event := []
  /-- the requests that were sent, in order -/
  sent : List HttpRequest := []

/-- What is left behind in a state. -/
def State.outcome (s : State) (error : Option String) : Outcome :=
  { vars := s.vars, error := error, told := s.told.reverse, sent := s.sent.reverse }

/-- Where a name holds a zero. -/
def zeroIn? (name : Bytes) : Option Nat := (Bytes.bytes name).findIdx? (· = 0)

/-- Runs the script of a node amid the traffic of a network, with random numbers to come. -/
def executeAmid (traffic : Traffic) (random : RandomState) (memoryLimit : Nat)
    (node script : String) (vars : Vars) : Outcome :=
  let s : State := { vars := vars }
  let name := ("node:" ++ node).toUTF8
  match zeroIn? name with
  | some i =>
    s.outcome (some s!"runtime error: invalid name: nul byte found in provided data at position: {i}")
  | none =>
    match Library.loadSource name script.toUTF8 (.table Heap.globals)
        (Heap.initial random memoryLimit) with
    | (.error m, _) =>
      let kind := if m = "C stack overflow".toUTF8 then "runtime error: " else "syntax error: "
      s.outcome (some (kind ++ shownText m))
    | (.ok main, h) =>
      match drive traffic node maxSteps { mode := .call main [], heap := h } s with
      | (.values _, _, s) => s.outcome none
      | (.unfinished, _, s) => s.outcome (some "runtime error: interrupted")
      | (.fault r, h, s) =>
        if r.isMemory then s.outcome (some "memory error: not enough memory")
        else
          let (text, s) := faultText traffic node 190 r.value h s
          s.outcome (some text)

/-- Runs the script of a node with a network that never changes, and with the same random
numbers every time. -/
def execute (network : Network) (memoryLimit : Nat) (node script : String) (vars : Vars) : Outcome :=
  executeAmid (fun _ => network) (.ofSeed 0 0) memoryLimit node script vars

end Sandbox

end Workflow
