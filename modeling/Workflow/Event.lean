import Workflow.Run.Record

/-!
# Events

What an interpreter and the supervisor tell their watchers. On the wire an event
is an object with two members, its name and its payload; an envelope adds the
subject it is addressed to, which is a run or a project.

The name on the wire is the tag of the event's variant, spelled by a rule from the
name of the variant. `name` lists the tags a second time: it is what is written
where an event is not encoded as a whole.

The payload may come before the name in a text that is read. It is then held
back until the name is known, so what is wrong with it is noticed only after
the name.
-/

namespace Workflow

/-! ## Log levels -/

/-- How grave a log entry is. -/
inductive LogLevel where
  /-- detail -/
  | debug
  /-- information -/
  | info
  /-- warning -/
  | warn
  /-- error -/
  | error
  deriving DecidableEq, Repr

namespace LogLevel

/-- The name of a level. -/
def name : LogLevel → String
  | debug => "debug"
  | info => "info"
  | warn => "warn"
  | error => "error"

/-- Every level, in order. -/
def all : List LogLevel := [debug, info, warn, error]

/-- The decoder of levels. -/
def decode : Json.Decoder LogLevel := Json.variant (all.map fun l => (l.name, l))

end LogLevel

/-! ## Events -/

/-- Something that happened in a run or to it. -/
inductive Event where
  /-- a node is about to be visited -/
  | nodeStart (node : String)
  /-- a script wrote a log entry -/
  | nodeLog (node : String) (level : LogLevel) (args : List Json)
  /-- a script failed -/
  | nodeError (node error : String)
  /-- the run waits until it is told to resume from the node -/
  | nodeWait (node : String) (reason : Option String)
  /-- an edge is followed -/
  | edgeStart (edge : String)
  /-- the variables after a write -/
  | varsUpdate (vars : Vars)
  /-- the interpreter has ended -/
  | workflowComplete
  /-- a run was started -/
  | runStarted (run : String)
  /-- a run came to its end -/
  | runCompleted (run : String)
  /-- a run failed -/
  | runError (run message : String)
  /-- a run was stopped -/
  | runStopped (run : String)
  /-- tells a new watcher where its subject stands -/
  | currentStatus (run : Option String) (status : Option RunStatus)
  /-- tells a new watcher the state of an active run -/
  | executionState (run : String) (node : Option String) (vars : Vars)

namespace Event

/-- The name of an event's variant. -/
def variant : Event → String
  | nodeStart _ => "NodeStart"
  | nodeLog .. => "NodeLog"
  | nodeError .. => "NodeError"
  | nodeWait .. => "NodeWait"
  | edgeStart _ => "EdgeStart"
  | varsUpdate _ => "StoreVarsUpdate"
  | workflowComplete => "WorkflowComplete"
  | runStarted _ => "RunStarted"
  | runCompleted _ => "RunCompleted"
  | runError .. => "RunError"
  | runStopped _ => "RunStopped"
  | currentStatus .. => "CurrentStatus"
  | executionState .. => "ExecutionState"

/-- Spells a name of capitalized words in small letters, with underscores between the
words. -/
def snakeCase (s : String) : String :=
  match s.toList with
  | [] => ""
  | c :: cs =>
    String.ofList (c.toLower :: cs.flatMap fun d =>
      if d.isUpper then ['_', d.toLower] else [d.toLower])

/-- The tag of an event. -/
def tag (e : Event) : String := snakeCase e.variant

/-- The fields of an event, as they are encoded. -/
def content : Event → Json
  | nodeStart node => .obj [("nodeId", .str node)]
  | nodeLog node level args =>
    .obj [("nodeId", .str node), ("level", .str level.name), ("args", .arr args)]
  | nodeError node error => .obj [("nodeId", .str node), ("error", .str error)]
  | nodeWait node reason => .obj [("nodeId", .str node), ("reason", Json.orNull .str reason)]
  | edgeStart edge => .obj [("edgeId", .str edge)]
  | varsUpdate vars => .obj [("vars", vars.toJson)]
  | workflowComplete => .obj []
  | runStarted run => .obj [("runId", .str run)]
  | runCompleted run => .obj [("runId", .str run)]
  | runError run message => .obj [("runId", .str run), ("message", .str message)]
  | runStopped run => .obj [("runId", .str run)]
  | currentStatus run status =>
    .obj [("runId", Json.orNull .str run), ("status", Json.orNull RunStatus.toJson status)]
  | executionState run node vars =>
    .obj [("runId", .str run), ("currentNodeId", Json.orNull .str node), ("vars", vars.toJson)]

/-- The members of an encoded event. -/
def members (e : Event) : List (String × Json) :=
  [("event", .str e.tag), ("payload", e.content)]

/-- The JSON form of an event. -/
def toJson (e : Event) : Json := .obj e.members

/-- The wire name of an event, from a table of its own. -/
def name : Event → String
  | nodeStart _ => "node_start"
  | nodeLog .. => "node_log"
  | nodeError .. => "node_error"
  | nodeWait .. => "node_wait"
  | edgeStart _ => "edge_start"
  | varsUpdate _ => "store_vars_update"
  | workflowComplete => "workflow_complete"
  | runStarted _ => "run_started"
  | runCompleted _ => "run_completed"
  | runError .. => "run_error"
  | runStopped _ => "run_stopped"
  | currentStatus .. => "current_status"
  | executionState .. => "execution_state"

/-- The payload of an event: it is taken out of the encoded event. -/
def payload (e : Event) : Json := (e.toJson.canonical.member? "payload").getD (.obj [])

/-- Whether the event ends the life of a run. -/
def isTerminal : Event → Bool
  | runCompleted _ | runError .. | runStopped _ => true
  | _ => false

/-! ### Reading payloads -/

/-- The fields of a payload met so far, whatever the event. Members are decoded
in order, and each field is filled once. -/
structure PayloadDraft where
  /-- the node -/
  nodeId : Option String := none
  /-- the level of a log entry -/
  level : Option LogLevel := none
  /-- the values of a log entry -/
  args : Option (List Json) := none
  /-- the text of an error -/
  error : Option String := none
  /-- the reason for waiting -/
  reason : Option (Option String) := none
  /-- the edge -/
  edgeId : Option String := none
  /-- the variables -/
  vars : Option Vars := none
  /-- the run, where it must be given -/
  runId : Option String := none
  /-- the run, where it may be null -/
  runIdOrNull : Option (Option String) := none
  /-- the message of a failure -/
  message : Option String := none
  /-- the status, which may be null -/
  status : Option (Option RunStatus) := none
  /-- the node visited last, which may be null -/
  currentNodeId : Option (Option String) := none

/-- Takes up one member of a payload, if its name is among those asked for. -/
def PayloadDraft.take (wanted : List String) (runMayBeNull : Bool) (d : PayloadDraft) (i : Nat)
    (name : String) (v : Json) : Except Json.DecodeError PayloadDraft :=
  if !wanted.contains name then .ok d
  else
    match name with
    | "nodeId" => do return { d with nodeId := ← Json.fill d.nodeId name i Json.text v }
    | "level" => do return { d with level := ← Json.fill d.level name i LogLevel.decode v }
    | "args" => do
      return { d with args := ← Json.fill d.args name i (Json.list Json.anyValue) v }
    | "error" => do return { d with error := ← Json.fill d.error name i Json.text v }
    | "reason" => do
      return { d with reason := ← Json.fill d.reason name i (Json.optional Json.text) v }
    | "edgeId" => do return { d with edgeId := ← Json.fill d.edgeId name i Json.text v }
    | "vars" => do return { d with vars := ← Json.fill d.vars name i Vars.decode v }
    | "runId" =>
      if runMayBeNull then do
        return { d with runIdOrNull := ← Json.fill d.runIdOrNull name i (Json.optional Json.text) v }
      else do
        return { d with runId := ← Json.fill d.runId name i Json.text v }
    | "message" => do return { d with message := ← Json.fill d.message name i Json.text v }
    | "status" => do
      return { d with status := ← Json.fill d.status name i (Json.optional RunStatus.decode) v }
    | "currentNodeId" => do
      let slot ← Json.fill d.currentNodeId name i (Json.optional Json.text) v
      return { d with currentNodeId := slot }
    | _ => .ok d

/-- Decodes a payload with the given fields and builds the event from them. -/
def ofPayload (variant : String) (wanted : List String) (runMayBeNull : Bool)
    (build : PayloadDraft → Except Json.DecodeError Event) : Json.Decoder Event :=
  Json.recordOfMembers s!"struct variant FlowEvent::{variant}" fun members => do
    let d ← Json.foldMembers (PayloadDraft.take wanted runMayBeNull) 0 members {}
    build d

/-- The decoder of the payload of a variant, under the tag of the variant. -/
def ofVariant (variant : String) (wanted : List String) (runMayBeNull : Bool)
    (build : PayloadDraft → Except Json.DecodeError Event) : String × Json.Decoder Event :=
  (snakeCase variant, ofPayload variant wanted runMayBeNull build)

/-- The decoder of the payload under each tag. -/
def payloadDecoders : List (String × Json.Decoder Event) := [
  ofVariant "NodeStart" ["nodeId"] false fun d => do
    return .nodeStart (← Json.require d.nodeId "nodeId"),
  ofVariant "NodeLog" ["nodeId", "level", "args"] false fun d => do
    return .nodeLog (← Json.require d.nodeId "nodeId") (← Json.require d.level "level")
      (← Json.require d.args "args"),
  ofVariant "NodeError" ["nodeId", "error"] false fun d => do
    return .nodeError (← Json.require d.nodeId "nodeId") (← Json.require d.error "error"),
  ofVariant "NodeWait" ["nodeId", "reason"] false fun d => do
    return .nodeWait (← Json.require d.nodeId "nodeId") (d.reason.getD none),
  ofVariant "EdgeStart" ["edgeId"] false fun d => do
    return .edgeStart (← Json.require d.edgeId "edgeId"),
  ofVariant "StoreVarsUpdate" ["vars"] false fun d => do
    return .varsUpdate (← Json.require d.vars "vars"),
  ofVariant "WorkflowComplete" [] false fun _ => .ok .workflowComplete,
  ofVariant "RunStarted" ["runId"] false fun d => do
    return .runStarted (← Json.require d.runId "runId"),
  ofVariant "RunCompleted" ["runId"] false fun d => do
    return .runCompleted (← Json.require d.runId "runId"),
  ofVariant "RunError" ["runId", "message"] false fun d => do
    return .runError (← Json.require d.runId "runId") (← Json.require d.message "message"),
  ofVariant "RunStopped" ["runId"] false fun d => do
    return .runStopped (← Json.require d.runId "runId"),
  ofVariant "CurrentStatus" ["runId", "status"] true fun d => do
    return .currentStatus (d.runIdOrNull.getD none) (d.status.getD none),
  ofVariant "ExecutionState" ["runId", "currentNodeId", "vars"] false fun d => do
    return .executionState (← Json.require d.runId "runId") (d.currentNodeId.getD none)
      (← Json.require d.vars "vars")]

/-- The names of events, in order. -/
def names : List String := payloadDecoders.map Prod.fst

/-- The decoder of event names: it answers the decoder of the payload. -/
def decodeName : Json.Decoder (Json.Decoder Event) := Json.variant payloadDecoders

/-- The members of an event that are left to read, with their positions. -/
abbrev Members := List (Nat × String × Json)

/-- Refuses a further name or payload. -/
def noRepeat : Members → Except Json.DecodeError Unit
  | [] => .ok ()
  | (i, k, _) :: rest =>
    if k = "event" || k = "payload" then Json.refuse (.duplicate k) (.name i) else noRepeat rest

/-- Reads the payload that follows a name. -/
def readPayload (decoder : Json.Decoder Event) : Members → Except Json.DecodeError Event
  | [] => Json.refuse (.missing "payload") .close
  | (i, k, v) :: rest =>
    if k = "event" then Json.refuse (.duplicate k) (.name i)
    else if k = "payload" then do
      let e ← Json.under i decoder v
      noRepeat rest
      return e
    else readPayload decoder rest

/-- Reads the name that follows a payload, and then the payload held back. -/
def readName (content : Json) : Members → Except Json.DecodeError Event
  | [] => Json.refuse (.missing "event") .close
  | (i, k, v) :: rest =>
    if k = "payload" then Json.refuse (.duplicate k) (.name i)
    else if k = "event" then do
      let decoder ← Json.under i decodeName v
      match decoder content with
      | .error e => .error ⟨e.mismatch, [], .member i⟩
      | .ok e =>
        noRepeat rest
        return e
    else readName content rest

/-- Reads the members of an event. -/
def ofMembers : Members → Except Json.DecodeError Event
  | [] => Json.refuse (.missing "event") .close
  | (i, k, v) :: rest =>
    if k = "event" then do
      let decoder ← Json.under i decodeName v
      readPayload decoder rest
    else if k = "payload" then readName v rest
    else ofMembers rest

/-- Pairs members with their positions. -/
def number : Nat → List (String × Json) → Members
  | _, [] => []
  | i, (k, v) :: rest => (i, k, v) :: number (i + 1) rest

/-- What messages call an event. -/
def typeName : String := "adjacently tagged enum FlowEvent"

/-- The decoder of events. -/
def decode : Json.Decoder Event :=
  Json.record typeName (fun members => ofMembers (number 0 members))
    (fun items => do
      let decoder ← Json.item items 0 typeName decodeName
      let e ← Json.item items 1 typeName decoder
      Json.noMoreThan items 2
      return e)

end Event

/-! ## Envelopes -/

/-- An event addressed to a subject. -/
structure Envelope where
  /-- the run or project it is about -/
  subject : String
  /-- what happened -/
  event : Event

namespace Envelope

/-- The JSON form of an envelope. -/
def toJson (e : Envelope) : Json :=
  .obj (("subject", .str e.subject) :: e.event.members)

/-- Finds the subject among the members. -/
def subjectOf : Event.Members → Option String → Except Json.DecodeError (Option String)
  | [], found => .ok found
  | (i, k, v) :: rest, found =>
    if k = "subject" then do
      let found ← Json.fill found k i Json.text v
      subjectOf rest found
    else subjectOf rest found

/-- The decoder of envelopes. The event is read from the members that are left
when the subject is taken out, after all members were seen. -/
def decode : Json.Decoder Envelope :=
  Json.recordOfMembers "struct Envelope" fun members => do
    let members := Event.number 0 members
    let subject ← subjectOf members none
    let subject ← Json.require subject "subject"
    match Event.ofMembers (members.filter fun (_, k, _) => k ≠ "subject") with
    | .ok event => return ⟨subject, event⟩
    | .error e => .error ⟨e.mismatch, [], .close⟩

end Envelope

end Workflow
