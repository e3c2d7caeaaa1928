import Workflow.Engine.Job

/-!
# The schedule of an engine

Any task may do its next job at any time, so what can happen is what `advance` allows
for some row of tasks. A schedule settles which: the task that is preferred of those
that need not wait, and time passes only when all of them wait. Tasks that came in from
outside are preferred to those of the engine, and those of earlier runs to those of
later ones.
-/

namespace Workflow.Engine

/-! ## Tasks -/

/-- The task with a number. -/
def task? (e : Engine) (id : Nat) : Option Task :=
  (e.tasks.find? fun (i, _) => i = id).map Prod.snd

/-- Sets a task. One that is done is kept only for its reply. -/
def setTask (e : Engine) (id : Nat) (t : Task) : Engine :=
  { e with
    tasks :=
      if t.left.isEmpty && t.reply.isNone then e.tasks.filter fun (i, _) => i ≠ id
      else e.tasks.map fun (i, old) => if i = id then (i, t) else (i, old) }

/-- Lets a task do its next job, if there is one and it need not wait. -/
def advance (s : Settings) (e : Engine) (id : Nat) : Option Engine :=
  match e.task? id with
  | some { left := .answer r :: rest, .. } => some (e.setTask id { left := rest, reply := some r })
  | some { left := job :: rest, reply } =>
    (job.run s e).map fun (next, e) => e.setTask id { left := next ++ rest, reply := reply }
  | _ => none

/-- Whether a task is at the disk: what it does next takes longer than all that needs
only memory. -/
def isAtDisk (e : Engine) (t : Task) : Bool :=
  match t.left with
  | .save _ :: _ | .reload :: _ => true
  | .loadProjects :: _ => e.source.isSome
  | _ => false

/-- Lets the preferred task do its next job. Tasks at the disk are done only when all
others wait. -/
def advanceFirst (s : Settings) (e : Engine) : Option Engine :=
  (e.tasks.findSome? fun (id, t) => if e.isAtDisk t then none else e.advance s id).or
    (e.tasks.findSome? fun (id, _) => e.advance s id)

/-! ## Time -/

/-- The earliest time for which something is waiting. -/
def deadline? (e : Engine) : Option Nat :=
  (e.walks.flatMap fun (_, w) => w.nextBeat :: w.run.deadline?.toList).min?

/-- How many jobs a schedule may do. -/
def maxJobs : Nat := 2 ^ 62

/-- Does jobs until every task waits. -/
def settleFor (s : Settings) : Nat → Engine → Engine
  | 0, e => e
  | jobs + 1, e =>
    match e.advanceFirst s with
    | some e => settleFor s jobs e
    | none => e

/-- Does jobs until every task waits. -/
def settle (s : Settings) (e : Engine) : Engine := settleFor s maxJobs e

/-- Lets time pass up to some time, and does all that is due before. What is due at that
very time is left to be done. -/
def elapseFor (s : Settings) (until_ : Nat) : Nat → Engine → Engine
  | 0, e => e
  | rounds + 1, e =>
    let e := e.settle s
    match e.deadline? with
    | some t =>
      if t < until_ then elapseFor s until_ rounds { e with now := max e.now t }
      else { e with now := max e.now until_ }
    | none => { e with now := max e.now until_ }

/-- Lets a number of milliseconds pass. -/
def elapse (s : Settings) (e : Engine) (millis : Nat) : Engine :=
  elapseFor s (e.now + millis) maxJobs e

/-! ## Calls from outside -/

/-- Whether a task has nothing left to do. -/
def isDone (e : Engine) (id : Nat) : Bool := ((e.task? id).map (·.left.isEmpty)).getD true

/-- Does jobs until a task is done; if it has to wait for that, time passes. -/
def finishFor (s : Settings) (id : Nat) : Nat → Engine → Engine
  | 0, e => e
  | jobs + 1, e =>
    if e.isDone id then e
    else
      match e.advanceFirst s with
      | some e => finishFor s id jobs e
      | none =>
        match e.deadline? with
        | some t => finishFor s id jobs { e with now := max e.now t }
        | none => e

/-- Has a row of jobs done, and gives the reply. -/
def call (s : Settings) (e : Engine) (jobs : List Job) : Option Reply × Engine :=
  let id := e.nextTask
  let e := { e with tasks := (id, { left := jobs }) :: e.tasks, nextTask := id + 1 }
  let e := finishFor s id maxJobs e
  ((e.task? id).bind (·.reply), { e with tasks := e.tasks.filter fun (i, _) => i ≠ id })

/-- The failure of a call that was never answered. -/
def unanswered : Failure := .internal "no answer"

/-- The record in a reply. -/
def recordOf : Option Reply → Except Failure RunRecord
  | some (.record r) => .ok r
  | some (.refused f) => .error f
  | _ => .error unanswered

/-- Whether a reply is no refusal. -/
def acceptanceOf : Option Reply → Except Failure Unit
  | some (.refused f) => .error f
  | some _ => .ok ()
  | none => .error unanswered

/-! ### The supervisor -/

/-- Reads the registry; gives the number of runs in it. -/
def restore (s : Settings) (e : Engine) : Nat × Engine :=
  match e.call s [.reload] with
  | (some (.restored count), e) => (count, e)
  | (_, e) => (0, e)

/-- Starts a run of a project, unless it has an active one; gives the record of the
active run. -/
def start (s : Settings) (e : Engine) (project : String) (definition : Definition) (vars : Vars) :
    Except Failure RunRecord × Engine :=
  let (reply, e) := e.call s [.beginStart project definition vars]
  (recordOf reply, e)

/-- Stops a run, if it is active; gives its record. -/
def stop (s : Settings) (e : Engine) (run : String) : Except Failure RunRecord × Engine :=
  let (reply, e) := e.call s [.stop run]
  (recordOf reply, e)

/-- Forgets a run that is not active; gives its record. -/
def remove (s : Settings) (e : Engine) (run : String) : Except Failure RunRecord × Engine :=
  let (reply, e) := e.call s [.remove run]
  (recordOf reply, e)

/-- Passes a message on to a run. A stop is not passed on but carried out. -/
def control (s : Settings) (e : Engine) (run name : String) (payload : Json) :
    Except Failure Unit × Engine :=
  match Control.ofParts name payload with
  | .error f => (.error f, e)
  | .ok m =>
    let (reply, e) := e.call s [match m with
      | .stop => .stop run
      | m => .address run m]
    (acceptanceOf reply, e)

/-- What is known about a run, or about the run of a project that counts. -/
def status (e : Engine) (id : String) : Except Failure RunRecord :=
  match e.table.lookup id with
  | some r => .ok r
  | none => .error (.runNotFound id)

/-- Registers a watcher for a subject; gives its number. -/
def watch (s : Settings) (e : Engine) (subject : String) : Nat × Engine :=
  match e.call s [.greet subject] with
  | (some (.watching id), e) => (id, e)
  | (_, e) => (0, e)

/-- Stops all runs, and those to come. -/
def shutDown (s : Settings) (e : Engine) : Engine := (e.call s [.shutDown]).2

/-! ### The coordinator -/

/-- Adds a project, or takes up its new version. -/
def upsertProject (s : Settings) (e : Engine) (p : Project) : Engine := (e.call s [.upsert p]).2

/-- Changes what is wanted of a project. -/
def setDesired (s : Settings) (e : Engine) (project : String) (desired : Desired) :
    Except Failure Unit × Engine :=
  let (reply, e) := e.call s [.setDesired project desired]
  (acceptanceOf reply, e)

/-- Forgets a project and stops its active run. -/
def removeProject (s : Settings) (e : Engine) (project : String) : Option Project × Engine :=
  match e.call s [.forget project] with
  | (some (.removed p), e) => (p, e)
  | (_, e) => (none, e)

/-- One pass over the projects. -/
def passing : List Job := [.loadProjects, .plan, .answer .done]

/-- Makes one pass over the projects. -/
def tick (s : Settings) (e : Engine) : Engine := (e.call s passing).2

/-- Makes so many passes, each after the pause between two of them, and then lets the
time pass that is left. -/
def passes (s : Settings) (until_ : Nat) : Nat → Engine → Engine
  | 0, e => elapseFor s until_ maxJobs e
  | n + 1, e =>
    let e := e.tick s
    passes s until_ n (elapseFor s (min until_ (e.now + max s.pollInterval 1)) maxJobs e)

/-- Makes passes at regular intervals, the first at once, for a number of milliseconds. -/
def live (s : Settings) (e : Engine) (millis : Nat) : Engine :=
  let interval := max s.pollInterval 1
  passes s (e.now + millis) ((millis + interval - 1) / interval) e

end Workflow.Engine
