import Workflow.Catalog
import Workflow.Condition.Choice
import Workflow.Config
import Workflow.Control
import Workflow.Event
import Workflow.Sandbox

/-!
# The interpreter

Walks a definition from its start node along the chosen edges until there is none
to choose. The walk is a machine that goes in steps:

* a step tells at most one event, so whoever listens may act before the next step;
* from outside a run can be cancelled, and messages can be put into its inbox; both
  are noticed at the next suspension and change nothing before;
* a run is suspended at a node boundary, while a node waits for its resume, and in
  the pauses after a node and on an edge. At a boundary and in a pause the inbox is
  emptied before the run goes on, so what was sent in time is seen by the choice of
  the edge;
* a script is one step. What it told is told afterwards event by event, and the
  variables it left become those of the run when all is told.

`workflow_complete` is told on every way out, and nothing after it.
-/

namespace Workflow

/-! ## Surroundings -/

/-- What looking for a shared script comes to. -/
inductive Lookup where
  /-- a script -/
  | script (text : String)
  /-- nothing -/
  | nothing
  /-- the search itself breaks down, and the interpreter with it -/
  | broken
  deriving DecidableEq, Repr

/-- When a script is run. What a script finds outside of its run may be another thing each
time: the network goes its own way, and random numbers are new ones. -/
structure Occasion where
  /-- the run, where there are several -/
  run : String := ""
  /-- at which visit of a node -/
  visit : Nat

/-- What an interpreter relies on. -/
structure Surroundings where
  /-- pauses and limits -/
  config : InterpreterConfig
  /-- runs a script for a node on variables -/
  execute : Occasion → String → String → Vars → Sandbox.Outcome
  /-- looks for a shared script under the label of a node -/
  shared : String → Lookup

namespace Surroundings

/-- Looking into a catalog. -/
def catalogLookup (catalog : Catalog) (label : String) : Lookup :=
  match catalog.lookup label with
  | some script => .script script
  | none => .nothing

/-- Surroundings with a network that never changes, random numbers for each occasion, room for
scripts and a catalog. -/
def ofChances (config : InterpreterConfig) (network : Network)
    (random : Occasion → Script.RandomState) (memoryLimit : Nat) (catalog : Catalog) :
    Surroundings where
  config := config
  execute occasion := Sandbox.executeAmid (fun _ => network) (random occasion) memoryLimit
  shared := catalogLookup catalog

/-- Surroundings in which random numbers are the same on each occasion. -/
def ofCatalog (config : InterpreterConfig) (network : Network) (memoryLimit : Nat)
    (catalog : Catalog) : Surroundings :=
  ofChances config network (fun _ => .ofSeed 0 0) memoryLimit catalog

/-- The surroundings of one run among several. -/
def forRun (around : Surroundings) (run : String) : Surroundings :=
  { around with execute := fun occasion => around.execute { occasion with run } }

end Surroundings

/-! ## States -/

/-- The inbox of a run. -/
structure Inbox where
  /-- the messages that were not taken yet, the oldest first -/
  queue : List Control := []
  /-- whether somebody may still send -/
  isOpen : Bool := true

/-- How a run ended. -/
inductive Ending where
  /-- there was no edge to choose, or nothing to do -/
  | completed
  /-- it was stopped -/
  | aborted
  deriving DecidableEq, Repr

/-- Where a run stands. -/
inductive Phase where
  /-- at the boundary of a node that is to be visited -/
  | reaching (node : String)
  /-- inside a node, before its script -/
  | entered (node : Node)
  /-- behind a script, with events left to tell before its variables count -/
  | telling (node : Node) (rest : List Event) (vars : Vars)
  /-- in a node that waits to be resumed -/
  | waiting (node : Node)
  /-- in the pause after a node -/
  | lingering (node : Node) (deadline : Nat)
  /-- in the pause on the way to a node -/
  | crossing (target : String) (deadline : Nat)
  /-- about to end -/
  | leaving (ending : Ending)
  /-- over -/
  | ended (ending : Ending)
  /-- broken down -/
  | broken

/-- A run on its way. -/
structure Interpreter where
  /-- what is walked, with the edits so far -/
  definition : Definition
  /-- the variables -/
  vars : Vars
  /-- where messages come in, if they can -/
  inbox : Option Inbox
  /-- whether the run was told to stop -/
  cancelled : Bool := false
  /-- how many nodes were visited -/
  steps : Nat := 0
  /-- the node visited last -/
  lastNode : Option String := none
  /-- the requests that scripts sent, the latest first -/
  sent : List HttpRequest := []
  /-- where the run stands -/
  phase : Phase

/-- What is reported of a run that is over. -/
structure Report where
  /-- how it ended -/
  ending : Ending
  /-- the variables at the end -/
  vars : Vars
  /-- the node visited last -/
  lastNode : Option String
  /-- how many nodes were visited -/
  steps : Nat

namespace Interpreter

/-- A run before its first step. -/
def start (definition : Definition) (vars : Vars) (inbox : Option Inbox) : Interpreter :=
  { definition, vars, inbox
    phase := match definition.start? with
      | some node => .reaching node.id
      | none => .leaving .completed }

/-- The report of a run that is over. -/
def report? (r : Interpreter) : Option Report :=
  match r.phase with
  | .ended ending => some ⟨ending, r.vars, r.lastNode, r.steps⟩
  | _ => none

/-- Whether nothing more will come. -/
def isOver (r : Interpreter) : Bool :=
  match r.phase with
  | .ended _ | .broken => true
  | _ => false

/-! ## From outside -/

/-- Tells a run to stop. -/
def cancel (r : Interpreter) : Interpreter := { r with cancelled := true }

/-- Whether a message can be sent. -/
def isReachable (r : Interpreter) : Bool := (r.inbox.map (·.isOpen)).getD false

/-- Puts a message behind those in the inbox. -/
def send (r : Interpreter) (m : Control) : Interpreter :=
  { r with inbox := r.inbox.map fun box => { box with queue := box.queue ++ [m] } }

/-- How many messages were sent and not taken yet. -/
def waitingMessages (r : Interpreter) : Nat := (r.inbox.map (·.queue.length)).getD 0

/-- Lets nobody send any more; what was sent stays. -/
def close (r : Interpreter) : Interpreter :=
  { r with inbox := r.inbox.map fun box => { box with isOpen := false } }

/-! ## Steps -/

/-- Takes the oldest message out of the inbox. -/
def take? (r : Interpreter) : Option (Control × Interpreter) :=
  match r.inbox with
  | some ⟨m :: rest, isOpen⟩ => some (m, { r with inbox := some ⟨rest, isOpen⟩ })
  | _ => none

/-- Whether no message is there and none can come. -/
def isDeserted (r : Interpreter) : Bool :=
  match r.inbox with
  | some ⟨[], false⟩ => true
  | _ => false

/-- Goes on to a phase without a word. -/
def enter (r : Interpreter) (phase : Phase) : Option Event × Interpreter :=
  (none, { r with phase := phase })

/-- Tells an event and goes on to a phase. -/
def tell (r : Interpreter) (event : Event) (phase : Phase) : Option Event × Interpreter :=
  (some event, { r with phase := phase })

/-- Does what a message says. A resume that nobody waits for says nothing. -/
def apply (r : Interpreter) : Control → Option Event × Interpreter
  | .stop => (none, r.cancel)
  | .resume _ => (none, r)
  | .updateVars vars => (some (.varsUpdate vars), { r with vars := vars })
  | .updateWorkflow nodes edges => (none, { r with definition := r.definition.update nodes edges })

/-- The script of a node: its own, else a shared one under its label. -/
def scriptOf (around : Surroundings) (node : Node) : Lookup :=
  match node.ownScript? with
  | some script => .script script
  | none => around.shared node.displayLabel

/-- The variables that a script leaves behind: a failure is noted under a key of the
node. -/
def varsAfter (node : Node) (o : Sandbox.Outcome) : Vars :=
  match o.error with
  | some error => o.vars.set (Key.ofError node.id) (.str error)
  | none => o.vars

/-- What is told of a script: all that it told itself, and its failure. -/
def eventsOf (node : Node) (o : Sandbox.Outcome) : List Event :=
  match o.error with
  | some error => o.told ++ [.nodeError node.id error, .varsUpdate (varsAfter node o)]
  | none => o.told

/-- The occasion for running a script: the latest visit. -/
def occasion (r : Interpreter) : Occasion := { visit := r.steps }

/-- Runs the script of a node. -/
def runScript (around : Surroundings) (r : Interpreter) (node : Node) (script : String) :
    Interpreter :=
  let o := around.execute r.occasion node.id script r.vars
  { r with sent := o.sent.reverse ++ r.sent
           phase := .telling node (eventsOf node o) (varsAfter node o) }

/-- Begins the pause after a node. -/
def linger (around : Surroundings) (now : Nat) (node : Node) : Phase :=
  .lingering node (now + around.config.stepDelay)

/-- One step in a pause. -/
def pause (r : Interpreter) (now deadline : Nat) (onward : Option Event × Interpreter) :
    Option (Option Event × Interpreter) :=
  if r.cancelled then some (r.enter (.leaving .aborted))
  else
    match r.take? with
    | some (m, r) => some (r.apply m)
    | none => if deadline ≤ now then some onward else none

/-- One step in a node that waits. -/
def await (around : Surroundings) (now : Nat) (r : Interpreter) (node : Node) :
    Option (Option Event × Interpreter) :=
  if r.cancelled then some (r.enter (.leaving .aborted))
  else
    match r.take? with
    | some (.resume id, r) =>
      if id = node.id then
        let vars := r.vars.clearWait
        some (({ r with vars := vars }).tell (.varsUpdate vars) (linger around now node))
      else some (none, r)
    | some (m, r) => some (r.apply m)
    | none => if r.isDeserted then some (r.enter (.leaving .aborted)) else none

/-- Visits the node that was reached, if it is there and the limit allows it. -/
def visit (around : Surroundings) (r : Interpreter) (id : String) : Option Event × Interpreter :=
  match r.definition.node? id with
  | none => r.enter (.leaving .completed)
  | some node =>
    if 0 < around.config.maxSteps ∧ around.config.maxSteps ≤ r.steps then
      r.enter (.leaving .completed)
    else
      ({ r with steps := r.steps + 1, lastNode := some node.id }).tell (.nodeStart node.id)
        (.entered node)

/-- Follows the chosen edge out of a node. -/
def depart (around : Surroundings) (now : Nat) (r : Interpreter) (node : Node) :
    Option Event × Interpreter :=
  match Choice.chooseEdge (r.definition.outgoing node.id) r.vars node with
  | some edge => r.tell (.edgeStart edge.id) (.crossing edge.target (now + around.config.edgeDelay))
  | none => r.enter (.leaving .completed)

/-- One step at a moment: what it tells, and the run after it. There is none while the
run is suspended, and none after its end. -/
def step (around : Surroundings) (now : Nat) (r : Interpreter) :
    Option (Option Event × Interpreter) :=
  match r.phase with
  | .reaching id =>
    match r.take? with
    | some (m, r) => some (r.apply m)
    | none => some (r.visit around id)
  | .entered node =>
    if r.cancelled then some (r.enter (.leaving .aborted))
    else
      match scriptOf around node with
      | .script script => some (none, r.runScript around node script)
      | .nothing => some (r.enter (.telling node [] r.vars))
      | .broken => some (r.enter .broken)
  | .telling node (e :: rest) vars => some (r.tell e (.telling node rest vars))
  | .telling node [] vars =>
    let r := { r with vars := vars }
    if vars.isWaiting then some (r.tell (.nodeWait node.id vars.waitReason?) (.waiting node))
    else some (r.enter (linger around now node))
  | .waiting node => r.await around now node
  | .lingering node deadline => r.pause now deadline (r.depart around now node)
  | .crossing target deadline => r.pause now deadline (r.enter (.reaching target))
  | .leaving ending => some (r.tell .workflowComplete (.ended ending))
  | .ended _ | .broken => none

/-- When a pause ends. -/
def deadline? (r : Interpreter) : Option Nat :=
  match r.phase with
  | .lingering _ deadline | .crossing _ deadline => some deadline
  | _ => none

end Interpreter

end Workflow
