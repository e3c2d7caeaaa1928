import Workflow.Json.Decode
import Workflow.Text.Blank

/-!
# Workflow definitions

A workflow is a list of nodes and a list of edges between them. Nothing ties the
two together: an edge may name nodes that do not exist, ids may repeat, and a
definition may be empty. Where a name is looked up, the first match counts.

Each type has its JSON form beside it. A record may be written as an object or
as an array of its fields in the order of the structure.
-/

namespace Workflow

/-! ## Nodes -/

/-- A step of a workflow. -/
structure Node where
  /-- what edges and control messages call it -/
  id : String
  /-- the script to run when it is visited -/
  script : Option String := none
  /-- free-form settings -/
  config : Fields Json := []
  /-- free-form annotations -/
  metadata : Fields Json := []

namespace Node

/-- The names under which a label is looked for, first to last. -/
def labelNames : List String := ["label", "name", "title"]

/-- The text that a node has under a name: what the metadata holds there, else
what the config holds there, provided it is text. -/
def annotation? (node : Node) (name : String) : Option String :=
  ((node.metadata.find? name).or (node.config.find? name)).bind Json.asString?

/-- The label that editors show: the first of the label names that has a text,
unless that text is blank, and the id otherwise. -/
def displayLabel (node : Node) : String :=
  match labelNames.findSome? node.annotation? with
  | some label => if Text.isBlankText label then node.id else label
  | none => node.id

/-- The text under a name in the metadata, unless it is blank. -/
def metadataText? (node : Node) (name : String) : Option String :=
  match (node.metadata.find? name).bind Json.asString? with
  | some s => if Text.isBlankText s then none else some s
  | none => none

/-- The variable that the node declares to branch on, and the path into it. -/
def checkVar? (node : Node) : Option (String × Option String) :=
  (node.metadataText? "checkVar").map fun var => (var, node.metadataText? "checkPath")

/-- The script of the node itself, unless it is blank. -/
def ownScript? (node : Node) : Option String :=
  match node.script with
  | some s => if Text.isBlankText s then none else some s
  | none => none

/-- Whether two nodes are the same, value by value. -/
def same (a b : Node) : Bool :=
  a.id = b.id && a.script = b.script && Json.sameMembers a.config b.config &&
    Json.sameMembers a.metadata b.metadata

/-- The JSON form of a node. -/
def toJson (node : Node) : Json :=
  .obj ([("id", .str node.id)] ++
    (match node.script with
      | some s => [("scriptBody", .str s)]
      | none => []) ++
    [("config", .obj node.config), ("metadata", .obj node.metadata)])

/-- The fields of a node met so far. -/
structure Draft where
  /-- the id -/
  id : Option String := none
  /-- the script, which may be null -/
  script : Option (Option String) := none
  /-- the settings -/
  config : Option (Fields Json) := none
  /-- the annotations -/
  metadata : Option (Fields Json) := none

/-- Takes up one member. -/
def Draft.take (d : Draft) (i : Nat) (name : String) (v : Json) : Except Json.DecodeError Draft :=
  match name with
  | "id" => do return { d with id := ← Json.fill d.id name i Json.text v }
  | "scriptBody" => do
    return { d with script := ← Json.fill d.script name i (Json.optional Json.text) v }
  | "config" => do
    return { d with config := ← Json.fill d.config name i (Json.fields Json.anyValue) v }
  | "metadata" => do
    return { d with metadata := ← Json.fill d.metadata name i (Json.fields Json.anyValue) v }
  | _ => .ok d

/-- The decoder of nodes. -/
def decode : Json.Decoder Node :=
  Json.record "struct Node"
    (fun members => do
      let d ← Json.foldMembers Draft.take 0 members {}
      let id ← Json.require d.id "id"
      return ⟨id, d.script.getD none, d.config.getD [], d.metadata.getD []⟩)
    (fun items => do
      let id ← Json.item items 0 "struct Node with 4 elements" Json.text
      let script ← Json.itemOr items 1 none (Json.optional Json.text)
      let config ← Json.itemOr items 2 [] (Json.fields Json.anyValue)
      let metadata ← Json.itemOr items 3 [] (Json.fields Json.anyValue)
      Json.noMoreThan items 4
      return ⟨id, script, config, metadata⟩)

end Node

/-! ## Edges -/

/-- A transition between two nodes. -/
structure Edge where
  /-- what events call it -/
  id : String
  /-- the node it leaves -/
  source : String
  /-- the node it leads to -/
  target : String
  /-- the condition or name it carries -/
  label : Option String := none
  deriving DecidableEq, Repr

namespace Edge

/-- The label without the blanks around it; empty if there is none. -/
def labelText (edge : Edge) : String := (edge.label.map Text.trimmed).getD ""

/-- The JSON form of an edge. -/
def toJson (edge : Edge) : Json :=
  .obj ([("id", .str edge.id), ("sourceNodeId", .str edge.source),
      ("targetNodeId", .str edge.target)] ++
    (match edge.label with
      | some s => [("label", .str s)]
      | none => []))

/-- The fields of an edge met so far. -/
structure Draft where
  /-- the id -/
  id : Option String := none
  /-- the node it leaves -/
  source : Option String := none
  /-- the node it leads to -/
  target : Option String := none
  /-- the label, which may be null -/
  label : Option (Option String) := none

/-- Takes up one member. Source and target go by a short name and a long one,
which count as one field. -/
def Draft.take (d : Draft) (i : Nat) (name : String) (v : Json) : Except Json.DecodeError Draft :=
  match name with
  | "id" => do return { d with id := ← Json.fill d.id "id" i Json.text v }
  | "sourceNodeId" | "source" => do
    return { d with source := ← Json.fill d.source "sourceNodeId" i Json.text v }
  | "targetNodeId" | "target" => do
    return { d with target := ← Json.fill d.target "targetNodeId" i Json.text v }
  | "label" => do
    return { d with label := ← Json.fill d.label "label" i (Json.optional Json.text) v }
  | _ => .ok d

/-- The decoder of edges. -/
def decode : Json.Decoder Edge :=
  Json.record "struct Edge"
    (fun members => do
      let d ← Json.foldMembers Draft.take 0 members {}
      let id ← Json.require d.id "id"
      let source ← Json.require d.source "sourceNodeId"
      let target ← Json.require d.target "targetNodeId"
      return ⟨id, source, target, d.label.getD none⟩)
    (fun items => do
      let expected := "struct Edge with 4 elements"
      let id ← Json.item items 0 expected Json.text
      let source ← Json.item items 1 expected Json.text
      let target ← Json.item items 2 expected Json.text
      let label ← Json.itemOr items 3 none (Json.optional Json.text)
      Json.noMoreThan items 4
      return ⟨id, source, target, label⟩)

end Edge

/-! ## Definitions -/

/-- A workflow. -/
structure Definition where
  /-- the steps -/
  nodes : List Node := []
  /-- the transitions -/
  edges : List Edge := []

namespace Definition

/-- Whether there is nothing to run. -/
def isEmpty (d : Definition) : Bool := d.nodes.isEmpty

/-- The node with an id. -/
def node? (d : Definition) (id : String) : Option Node := d.nodes.find? fun n => n.id = id

/-- A node is found under its own id. -/
theorem node?_id {d : Definition} {id : String} {node : Node} (h : d.node? id = some node) :
    node.id = id := by
  have hid := List.find?_some h
  exact of_decide_eq_true hid

/-- The edges that leave a node, in the order of the definition. -/
def outgoing (d : Definition) (id : String) : List Edge := d.edges.filter fun e => e.source = id

/-- Where a run starts: at the first node that no edge leads to, and at the first
node of all if every node has an edge leading to it. -/
def start? (d : Definition) : Option Node :=
  (d.nodes.find? fun n => !d.edges.any fun e => e.target = n.id).or d.nodes.head?

/-- Replaces the parts that are given. -/
def update (d : Definition) (nodes : Option (List Node)) (edges : Option (List Edge)) :
    Definition :=
  ⟨nodes.getD d.nodes, edges.getD d.edges⟩

/-- Whether two definitions are the same, value by value. -/
def same (a b : Definition) : Bool :=
  a.nodes.length = b.nodes.length && (a.nodes.zip b.nodes).all (fun (x, y) => x.same y) &&
    a.edges = b.edges

/-- The JSON form of a list of nodes. -/
def nodesJson (nodes : List Node) : Json := .arr (nodes.map Node.toJson)

/-- The JSON form of a list of edges. -/
def edgesJson (edges : List Edge) : Json := .arr (edges.map Edge.toJson)

/-- The JSON form of a definition. -/
def toJson (d : Definition) : Json :=
  .obj [("nodes", nodesJson d.nodes), ("edges", edgesJson d.edges)]

/-- The decoder of lists of nodes. -/
def decodeNodes : Json.Decoder (List Node) := Json.list Node.decode

/-- The decoder of lists of edges. -/
def decodeEdges : Json.Decoder (List Edge) := Json.list Edge.decode

/-- The fields of a definition met so far. -/
structure Draft where
  /-- the steps -/
  nodes : Option (List Node) := none
  /-- the transitions -/
  edges : Option (List Edge) := none

/-- Takes up one member. -/
def Draft.take (d : Draft) (i : Nat) (name : String) (v : Json) : Except Json.DecodeError Draft :=
  match name with
  | "nodes" => do return { d with nodes := ← Json.fill d.nodes name i decodeNodes v }
  | "edges" => do return { d with edges := ← Json.fill d.edges name i decodeEdges v }
  | _ => .ok d

/-- The decoder of definitions. -/
def decode : Json.Decoder Definition :=
  Json.record "struct WorkflowDefinition"
    (fun members => do
      let d ← Json.foldMembers Draft.take 0 members {}
      return ⟨d.nodes.getD [], d.edges.getD []⟩)
    (fun items => do
      let nodes ← Json.itemOr items 0 [] decodeNodes
      let edges ← Json.itemOr items 1 [] decodeEdges
      Json.noMoreThan items 2
      return ⟨nodes, edges⟩)

end Definition

end Workflow
