import Workflow.Definition
import Workflow.Instant
import Workflow.Vars

/-!
# Run records

What is known about one run: whose it is, where it stands and when that was last
true. A record travels as JSON to watchers and to the registry; `persisted` is
the form kept on disk, which drops the vars and the graph once a run is over.
-/

namespace Workflow

/-! ## Status -/

/-- Where a run stands. -/
inductive RunStatus where
  /-- about to run -/
  | starting
  /-- running -/
  | running
  /-- about to stop -/
  | stopping
  /-- stopped from outside -/
  | stopped
  /-- run to its end -/
  | completed
  /-- failed -/
  | error
  deriving DecidableEq, Repr

namespace RunStatus

/-- The name of a status. -/
def name : RunStatus → String
  | starting => "starting"
  | running => "running"
  | stopping => "stopping"
  | stopped => "stopped"
  | completed => "completed"
  | error => "error"

/-- Every status, in order. -/
def all : List RunStatus := [starting, running, stopping, stopped, completed, error]

/-- Whether an interpreter is, or should be, behind the run. -/
def isActive : RunStatus → Bool
  | starting | running => true
  | _ => false

/-- Whether the run is over for good. -/
def isTerminal : RunStatus → Bool
  | stopped | completed | error => true
  | _ => false

/-- The status that a restart finds: what was not over is stopped. -/
def recovered (s : RunStatus) : RunStatus := if s.isTerminal then s else stopped

/-- The JSON form of a status. -/
def toJson (s : RunStatus) : Json := .str s.name

/-- The decoder of statuses. -/
def decode : Json.Decoder RunStatus := Json.variant (all.map fun s => (s.name, s))

end RunStatus

/-! ## Records -/

/-- What is known about a run. -/
structure RunRecord where
  /-- the run -/
  runId : String
  /-- the project that the run belongs to -/
  projectId : String
  /-- where it stands -/
  status : RunStatus
  /-- when it started -/
  startedAt : Instant
  /-- when it last gave a sign of life -/
  lastHeartbeat : Instant
  /-- the node it visited last -/
  currentNode : Option String := none
  /-- its variables -/
  vars : Option Vars := none
  /-- the nodes it runs -/
  nodes : Option (List Node) := none
  /-- the edges it runs -/
  edges : Option (List Edge) := none
  /-- why it failed -/
  message : Option String := none

namespace RunRecord

/-- The record of a run that is about to start. -/
def starting (runId projectId : String) (definition : Definition) (vars : Vars) (now : Instant) :
    RunRecord :=
  { runId, projectId, status := .starting, startedAt := now, lastHeartbeat := now
    vars := some vars, nodes := some definition.nodes, edges := some definition.edges }

/-- Notes a sign of life. -/
def touch (r : RunRecord) (now : Instant) : RunRecord := { r with lastHeartbeat := now }

/-- The record as it is kept on disk. -/
def persisted (r : RunRecord) : RunRecord :=
  if r.status.isActive then r else { r with vars := none, nodes := none, edges := none }

/-- A member that is left out if there is nothing to write. -/
def optionalMember {α : Type} (name : String) (f : α → Json) : Option α → List (String × Json)
  | some a => [(name, f a)]
  | none => []

/-- The JSON form of a record. -/
def toJson (r : RunRecord) : Json :=
  .obj ([("runId", .str r.runId), ("projectId", .str r.projectId), ("status", r.status.toJson),
      ("startedAt", r.startedAt.toJson), ("lastHeartbeat", r.lastHeartbeat.toJson),
      ("currentNodeId", Json.orNull .str r.currentNode)] ++
    optionalMember "storeVars" Vars.toJson r.vars ++
    optionalMember "nodes" Definition.nodesJson r.nodes ++
    optionalMember "edges" Definition.edgesJson r.edges ++
    optionalMember "message" .str r.message)

/-- The fields of a record met so far. -/
structure Draft where
  /-- the run -/
  runId : Option String := none
  /-- the project -/
  projectId : Option String := none
  /-- where it stands -/
  status : Option RunStatus := none
  /-- when it started -/
  startedAt : Option Instant := none
  /-- its last sign of life -/
  lastHeartbeat : Option Instant := none
  /-- the node it visited last, which may be null -/
  currentNode : Option (Option String) := none
  /-- its variables, which may be null -/
  vars : Option (Option Vars) := none
  /-- its nodes, which may be null -/
  nodes : Option (Option (List Node)) := none
  /-- its edges, which may be null -/
  edges : Option (Option (List Edge)) := none
  /-- why it failed, which may be null -/
  message : Option (Option String) := none

/-- Takes up one member. -/
def Draft.take (d : Draft) (i : Nat) (name : String) (v : Json) : Except Json.DecodeError Draft :=
  match name with
  | "runId" => do return { d with runId := ← Json.fill d.runId name i Json.text v }
  | "projectId" => do return { d with projectId := ← Json.fill d.projectId name i Json.text v }
  | "status" => do return { d with status := ← Json.fill d.status name i RunStatus.decode v }
  | "startedAt" => do
    return { d with startedAt := ← Json.fill d.startedAt name i Instant.decode v }
  | "lastHeartbeat" => do
    return { d with lastHeartbeat := ← Json.fill d.lastHeartbeat name i Instant.decode v }
  | "currentNodeId" => do
    return { d with currentNode := ← Json.fill d.currentNode name i (Json.optional Json.text) v }
  | "storeVars" => do
    return { d with vars := ← Json.fill d.vars name i (Json.optional Vars.decode) v }
  | "nodes" => do
    return { d with nodes := ← Json.fill d.nodes name i (Json.optional Definition.decodeNodes) v }
  | "edges" => do
    return { d with edges := ← Json.fill d.edges name i (Json.optional Definition.decodeEdges) v }
  | "message" => do
    return { d with message := ← Json.fill d.message name i (Json.optional Json.text) v }
  | _ => .ok d

/-- The decoder of records. -/
def decode : Json.Decoder RunRecord :=
  Json.record "struct RunRecord"
    (fun members => do
      let d ← Json.foldMembers Draft.take 0 members {}
      let runId ← Json.require d.runId "runId"
      let projectId ← Json.require d.projectId "projectId"
      let status ← Json.require d.status "status"
      let startedAt ← Json.require d.startedAt "startedAt"
      let lastHeartbeat ← Json.require d.lastHeartbeat "lastHeartbeat"
      return { runId, projectId, status, startedAt, lastHeartbeat
               currentNode := d.currentNode.getD none, vars := d.vars.getD none
               nodes := d.nodes.getD none, edges := d.edges.getD none
               message := d.message.getD none })
    (fun items => do
      let expected := "struct RunRecord with 10 elements"
      let runId ← Json.item items 0 expected Json.text
      let projectId ← Json.item items 1 expected Json.text
      let status ← Json.item items 2 expected RunStatus.decode
      let startedAt ← Json.item items 3 expected Instant.decode
      let lastHeartbeat ← Json.item items 4 expected Instant.decode
      let currentNode ← Json.itemOr items 5 none (Json.optional Json.text)
      let vars ← Json.itemOr items 6 none (Json.optional Vars.decode)
      let nodes ← Json.itemOr items 7 none (Json.optional Definition.decodeNodes)
      let edges ← Json.itemOr items 8 none (Json.optional Definition.decodeEdges)
      let message ← Json.itemOr items 9 none (Json.optional Json.text)
      Json.noMoreThan items 10
      return { runId, projectId, status, startedAt, lastHeartbeat, currentNode, vars, nodes, edges
               message })

end RunRecord

end Workflow
