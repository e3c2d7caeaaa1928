import Workflow.Interpreter
import Workflow.Registry

/-!
# The table of runs

All runs that a supervisor knows, under their ids. What a supervisor does to its runs
comes down to the operations here; each looks at the table once and changes it once,
so nothing can come between.

The rules that the operations keep:

* a run that is over is never active again, and the status in which a run was settled
  stays, except that a breakdown of its interpreter is always noted;
* a project gets a new run only while none of its runs is active, which whoever enlists
  one has to see to;
* enlisting a run forgets the oldest runs of its project that are over, all but a given
  number.
-/

namespace Workflow

/-! ## Runs -/

/-- A run that is known. -/
structure Handle where
  /-- what is known about it -/
  record : RunRecord
  /-- whether there is an interpreter behind it; a run that was read from disk has none -/
  isOwn : Bool := false
  /-- whether messages are passed on to it -/
  listens : Bool := false

/-- What an interpreter came to. -/
inductive WalkResult where
  /-- it ended -/
  | report (r : Report)
  /-- it broke down -/
  | broken

namespace WalkResult

/-- The failure of an interpreter that broke down. -/
def failure : Failure := .internal "interpreter task failed"

end WalkResult

/-- Runs under their ids. -/
abbrev RunTable := Fields Handle

namespace RunTable

/-! ## Looking -/

/-- All records, in order of their ids. -/
def records (t : RunTable) : List RunRecord := t.map fun (_, h) => h.record

/-- The active run of a project. -/
def active? (t : RunTable) (project : String) : Option RunRecord :=
  t.records.find? fun r => r.projectId = project && r.status.isActive

/-- Whether one record is shown rather than another: an active one first, then the one
that started later. -/
def precedes (a b : RunRecord) : Bool :=
  if a.status.isActive = b.status.isActive then b.startedAt.before a.startedAt
  else a.status.isActive

/-- The run with an id; else, the id taken for a project, its active run, or else the
one that started last. -/
def lookup (t : RunTable) (id : String) : Option RunRecord :=
  match t.find? id with
  | some h => some h.record
  | none =>
    (t.records.filter (·.projectId = id)).foldl
      (fun best r => match best with
        | some b => if precedes b r then some b else some r
        | none => some r)
      none

/-- All records, those that started later first. -/
def newestFirst (t : RunTable) : List RunRecord :=
  t.records.mergeSort fun a b => !(a.startedAt.before b.startedAt)

/-- The ids of the active runs. -/
def activeIds (t : RunTable) : List String :=
  (t.filter fun (_, h) => h.record.status.isActive).map Prod.fst

/-- Whether messages are passed on to a run. -/
def listens (t : RunTable) (id : String) : Bool :=
  match t.find? id with
  | some h => h.listens
  | none => false

/-- Whether messages for a run are welcome. -/
def welcomes (t : RunTable) (id : String) : Bool :=
  match t.find? id with
  | some h => h.listens && h.record.status.isActive
  | none => false

/-- What tells a new watcher where its subject stands. -/
def greeting (t : RunTable) (subject : String) : List Event :=
  match t.lookup subject with
  | some r =>
    .currentStatus (some r.runId) (some r.status) ::
      if r.status.isActive then [.executionState r.runId r.currentNode (r.vars.getD {})] else []
  | none => [.currentStatus none none]

/-! ## Coming and going -/

/-- The order in which runs that are over are forgotten: by start, then by id. -/
def forgottenBefore (a b : RunRecord) : Bool :=
  a.startedAt.before b.startedAt || (!(b.startedAt.before a.startedAt) && a.runId ≤ b.runId)

/-- The runs of a project that are over, except the newest ones. -/
def excess (t : RunTable) (project : String) (keep : Nat) : List RunRecord :=
  let ended := t.records.filter fun r => r.projectId = project && r.status.isTerminal
  (ended.mergeSort forgottenBefore).take (ended.length - keep)

/-- Forgets the runs of a project that are over, except the newest ones. -/
def prune (t : RunTable) (project : String) (keep : Nat) : RunTable :=
  (t.excess project keep).foldl (fun t r => t.erase r.runId) t

/-- Enlists a new run. -/
def enlist (t : RunTable) (keep : Nat) (record : RunRecord) : RunTable :=
  (t.prune record.projectId keep).put record.runId { record, isOwn := true, listens := true }

/-- Takes up runs that were read from disk, in place of those with the same ids. -/
def restore (t : RunTable) (records : List RunRecord) : RunTable :=
  records.foldl (fun t r => t.put r.runId { record := r }) t

/-- Forgets a run that is not active. -/
def remove (t : RunTable) (id : String) : Except Failure (RunRecord × RunTable) :=
  match t.find? id with
  | none => .error (.runNotFound id)
  | some h => if h.record.status.isActive then .error (.runActive id) else .ok (h.record, t.erase id)

/-! ## The course of a run -/

/-- What stopping a run comes to. -/
inductive Stopped where
  /-- it was not active, and nothing is changed -/
  | before (record : RunRecord)
  /-- it was stopped -/
  | now (handle : Handle) (table : RunTable)

/-- Stops a run, if it is active. -/
def stop (t : RunTable) (id : String) (clock : Instant) : Except Failure Stopped :=
  match t.find? id with
  | none => .error (.runNotFound id)
  | some h =>
    if h.record.status.isActive then
      let h := { h with record := ({ h.record with status := .stopped }).touch clock }
      .ok (.now h (t.put id h))
    else .ok (.before h.record)

/-- What an event says about a run. -/
def noted (r : RunRecord) : Event → RunRecord
  | .nodeStart node => { r with currentNode := some node }
  | .varsUpdate vars => { r with vars := some vars }
  | _ => r

/-- Whether the table is to be saved after an event. -/
def isMilestone : Event → Bool
  | .nodeStart _ | .nodeWait .. => true
  | _ => false

/-- Notes an event of a run, if the run is known. Answers whether to save. -/
def observe (t : RunTable) (id : String) (e : Event) (clock : Instant) : Bool × RunTable :=
  match t.find? id with
  | some h => (isMilestone e, t.put id { h with record := noted (h.record.touch clock) e })
  | none => (false, t)

/-- Notes a sign of life of an active run. Answers whether to save. -/
def beat (t : RunTable) (id : String) (clock : Instant) : Bool × RunTable :=
  match t.find? id with
  | some h =>
    if h.record.status.isActive then (true, t.put id { h with record := h.record.touch clock })
    else (false, t)
  | none => (false, t)

/-- A record after its interpreter is done, and the event that is still due. A run that
was stopped was announced as stopped before. -/
def settled (r : RunRecord) : WalkResult → RunRecord × Option Event
  | .broken =>
    ({ r with status := .error, message := some WalkResult.failure.message },
      some (.runError r.runId WalkResult.failure.message))
  | .report report =>
    let r := { r with vars := some report.vars, currentNode := report.lastNode.or r.currentNode }
    if r.status = .stopped then (r, none)
    else
      match report.ending with
      | .completed => ({ r with status := .completed }, some (.runCompleted r.runId))
      | .aborted => ({ r with status := .stopped }, some (.runStopped r.runId))

/-- Settles a run whose interpreter is done, if the run is still known. From then on no
messages are passed on to it. -/
def settle (t : RunTable) (id : String) (result : WalkResult) (clock : Instant) :
    Option (Handle × Option Event × RunTable) :=
  (t.find? id).map fun h =>
    let (record, due) := settled (h.record.touch clock) result
    let h := { h with record := record, listens := false }
    (h, due, t.put id h)

end RunTable

end Workflow
