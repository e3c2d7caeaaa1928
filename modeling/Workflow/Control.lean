import Workflow.Event
import Workflow.Failure
import Workflow.Definition
import Workflow.Vars

/-!
# Control messages

What the outside may tell a run while it goes: to stop, to resume from a node it
waits at, to take new variables, or to take new nodes and edges. Messages come
as a name with a payload, or as a line that somebody typed.

Like an event, a message is encoded under the tag of its variant. `name` lists the
tags a second time: it is by these names that messages are told apart.
-/

namespace Workflow

/-- A message to a run. -/
inductive Control where
  /-- end the run -/
  | stop
  /-- go on from a node that waits -/
  | resume (node : String)
  /-- replace all variables -/
  | updateVars (vars : Vars)
  /-- replace the nodes, the edges or both -/
  | updateWorkflow (nodes : Option (List Node)) (edges : Option (List Edge))

namespace Control

/-- The name of a message's variant. -/
def variant : Control → String
  | stop => "StopWorkflow"
  | resume _ => "Resume"
  | updateVars _ => "UpdateStoreVars"
  | updateWorkflow .. => "UpdateWorkflow"

/-- The tag of a message. -/
def tag (m : Control) : String := Event.snakeCase m.variant

/-- The wire name of a message, from a table of its own. -/
def name : Control → String
  | stop => "stop_workflow"
  | resume _ => "resume"
  | updateVars _ => "update_store_vars"
  | updateWorkflow .. => "update_workflow"

/-- The payload of a message; a stop has none. -/
def payload? : Control → Option Json
  | stop => none
  | resume node => some (.obj [("nodeId", .str node)])
  | updateVars vars => some (.obj [("vars", vars.toJson)])
  | updateWorkflow nodes edges =>
    some (.obj [("nodes", Json.orNull Definition.nodesJson nodes),
      ("edges", Json.orNull Definition.edgesJson edges)])

/-- The JSON form of a message. -/
def toJson (m : Control) : Json :=
  .obj (("event", .str m.tag) ::
    match m.payload? with
    | some p => [("payload", p)]
    | none => [])

/-! ## Messages from a name and a payload -/

/-- Takes up one member of the payload of a resume. -/
def takeNode (d : Option String) (i : Nat) (name : String) (v : Json) :
    Except Json.DecodeError (Option String) :=
  if name = "nodeId" then Json.fill d name i Json.text v else .ok d

/-- Takes up one member of the payload of an update of variables. -/
def takeVars (d : Option Vars) (i : Nat) (name : String) (v : Json) :
    Except Json.DecodeError (Option Vars) :=
  if name = "vars" then Json.fill d name i Vars.decode v else .ok d

/-- The parts of a workflow update met so far; each may be null. -/
structure UpdateDraft where
  /-- the new nodes -/
  nodes : Option (Option (List Node)) := none
  /-- the new edges -/
  edges : Option (Option (List Edge)) := none

/-- Takes up one member of the payload of an update of the workflow. -/
def takeUpdate (d : UpdateDraft) (i : Nat) (name : String) (v : Json) :
    Except Json.DecodeError UpdateDraft :=
  match name with
  | "nodes" => do
    return { d with nodes := ← Json.fill d.nodes name i (Json.optional Definition.decodeNodes) v }
  | "edges" => do
    return { d with edges := ← Json.fill d.edges name i (Json.optional Definition.decodeEdges) v }
  | _ => .ok d

/-- What messages call the payload of a kind of message. -/
def payloadName (variant : String) : String := s!"struct variant ControlMessage::{variant}"

/-- Decodes the payload of a resume. -/
def decodeResume : Json.Decoder Control :=
  Json.recordOfMembers (payloadName "Resume") fun members => do
    let node ← Json.foldMembers takeNode 0 members none
    return .resume (← Json.require node "nodeId")

/-- Decodes the payload of an update of variables. -/
def decodeVars : Json.Decoder Control :=
  Json.recordOfMembers (payloadName "UpdateStoreVars") fun members => do
    let vars ← Json.foldMembers takeVars 0 members none
    return .updateVars (← Json.require vars "vars")

/-- Decodes the payload of an update of the workflow. -/
def decodeUpdate : Json.Decoder Control :=
  Json.recordOfMembers (payloadName "UpdateWorkflow") fun members => do
    let d ← Json.foldMembers takeUpdate 0 members {}
    return .updateWorkflow (d.nodes.getD none) (d.edges.getD none)

/-- The message with a name and a payload. A null payload counts as an empty
object, and a stop does not look at its payload at all. -/
def ofParts (name : String) (payload : Json) : Except Failure Control :=
  let payload := match payload with
    | .null => .obj []
    | p => p
  let decoded (d : Json.Decoder Control) : Except Failure Control :=
    match d payload with
    | .ok m => .ok m
    | .error e => .error (.invalidPayload name e.message)
  match name with
  | "stop_workflow" => .ok .stop
  | "resume" => decoded decodeResume
  | "update_store_vars" => decoded decodeVars
  | "update_workflow" => decoded decodeUpdate
  | _ => .error (.unknownControl name)

/-! ## Messages from a typed line -/

/-- The line to type so that a node goes on which waits. -/
def resumeLine (node : String) : String := "resume " ++ node

/-- The words of a text, which blanks separate. -/
def words : List Char → List (List Char)
  | [] => []
  | c :: cs =>
    if Text.isBlank c then words cs
    else
      match cs, words cs with
      | d :: _, w :: rest => if Text.isBlank d then [c] :: w :: rest else (c :: w) :: rest
      | _, rest => [c] :: rest

/-- The message in a typed line: an object with a name and a payload, the word
`stop`, or `resume` and a node. A blank line holds no message. -/
def ofLine (line : String) : Except Failure (Option Control) :=
  let cs := Text.trim line.toList
  match cs with
  | '\x7b' :: _ =>
    match Json.parse cs with
    | .error e => .error (.invalidPayload "control" (e.message cs))
    | .ok v =>
      match (v.member? "event").bind Json.asString? with
      | none => .error (.invalidPayload "control" "missing `event`")
      | some name => (ofParts name ((v.member? "payload").getD .null)).map some
  | _ =>
    match (words cs).map String.ofList with
    | [] => .ok none
    | ["stop"] => .ok (some .stop)
    | "resume" :: node :: _ => .ok (some (.resume node))
    | word :: _ => .error (.unknownControl word)

end Control

end Workflow
