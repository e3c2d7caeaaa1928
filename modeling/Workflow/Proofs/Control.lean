import Workflow.Control
import Workflow.Proofs.Json.Decode
import Workflow.Proofs.Vars.Store

/-!
# Control messages and their encodings

A message is encoded under the tag of its variant, and a table of its own gives the name by which
messages are told apart. The two agree (`name_eq_tag`). What is encoded is understood as the same
message, in the order in which it is written as well as in the order of a canonical value
(`IsProper.isUnderstood`). New nodes or edges that are missing are encoded as null, and null is
understood as missing; so "unchanged" stays "unchanged".

The parts of a message are in the form in which a program holds them: the settings and annotations
of nodes are canonical, and variables are those of a store. Whatever is understood has such parts,
in whatever form it came (`ofParts_eq_ok`), so it is understood again (`understood_again`).
-/

namespace Workflow

/-! ## Nodes and edges -/

namespace Node

/-- The free-form parts of a node are in the form in which they are held. -/
structure IsProper (node : Node) : Prop where
  /-- the settings are canonical -/
  config : (Json.obj node.config).IsCanonical
  /-- the annotations are canonical -/
  metadata : (Json.obj node.metadata).IsCanonical

section Parts

variable {d : Draft} {index : Nat} {fs : Fields Json}

theorem take_config (hslot : d.config = none) (h : (Json.obj fs).IsCanonical) :
    d.take index "config" (.obj fs) = .ok { d with config := some fs } := by
  have hfill : Json.fill d.config "config" index (Json.fields Json.anyValue) (.obj fs) =
      .ok (some fs) := by
    rw [hslot, Json.fill_ok (Json.fields_canonical h)]
  exact congrArg (Except.map fun slot => { d with config := slot }) hfill

theorem take_metadata (hslot : d.metadata = none) (h : (Json.obj fs).IsCanonical) :
    d.take index "metadata" (.obj fs) = .ok { d with metadata := some fs } := by
  have hfill : Json.fill d.metadata "metadata" index (Json.fields Json.anyValue) (.obj fs) =
      .ok (some fs) := by
    rw [hslot, Json.fill_ok (Json.fields_canonical h)]
  exact congrArg (Except.map fun slot => { d with metadata := slot }) hfill

end Parts

/-- **A node is decoded** from what it is encoded as. -/
theorem IsProper.decode_toJson {node : Node} (h : node.IsProper) :
    decode node.toJson = .ok node := by
  obtain ⟨id, script, config, metadata⟩ := node
  -- the settings and annotations are the last members, with the script before them or not
  have hread : ∀ front slot, Json.foldMembers Draft.take 0 front {} =
        .ok { id := some id, script := slot } → slot.getD none = script →
      decode (.obj (front ++ [("config", .obj config), ("metadata", .obj metadata)])) =
        .ok ⟨id, script, config, metadata⟩ := by
    intro front slot hfront hslot
    change Json.foldMembers Draft.take 0 (front ++ _) {} >>= _ = _
    rw [Json.foldMembers_append hfront, Json.foldMembers_cons (take_config rfl h.config),
      Json.foldMembers_cons (take_metadata rfl h.metadata), ← hslot]
    rfl
  cases script with
  | none => exact hread [("id", .str id)] none rfl rfl
  | some s => exact hread [("id", .str id), ("scriptBody", .str s)] (some (some s)) rfl rfl

theorem IsProper.decode_canonical {node : Node} (h : node.IsProper) :
    decode node.toJson.canonical = .ok node := by
  obtain ⟨id, script, config, metadata⟩ := node
  have hread : ∀ rest slot, Json.foldMembers Draft.take 3 rest
        { id := some id, config := some config, metadata := some metadata } =
          .ok { id := some id, script := slot, config := some config, metadata := some metadata } →
      slot.getD none = script →
      decode (.obj ([("config", (Json.obj config).canonical), ("id", .str id),
        ("metadata", (Json.obj metadata).canonical)] ++ rest)) =
          .ok ⟨id, script, config, metadata⟩ := by
    intro rest slot hrest hslot
    rw [h.config, h.metadata]
    change Json.foldMembers Draft.take 0 (("config", _) :: ("id", _) :: ("metadata", _) :: rest) {}
      >>= _ = _
    have hid : Draft.take { config := some config } 1 "id" (.str id) =
        .ok { id := some id, config := some config } := rfl
    rw [Json.foldMembers_cons (take_config rfl h.config), Json.foldMembers_cons hid,
      Json.foldMembers_cons (take_metadata rfl h.metadata), hrest, ← hslot]
    rfl
  cases script with
  | none => exact hread [] none rfl rfl
  | some s => exact hread [("scriptBody", .str s)] (some (some s)) rfl rfl

/-- The free-form parts met so far are in the form in which they are held. -/
structure Draft.IsProper (d : Draft) : Prop where
  /-- the settings are canonical -/
  config : ∀ fs ∈ d.config, (Json.obj fs).IsCanonical
  /-- the annotations are canonical -/
  metadata : ∀ fs ∈ d.metadata, (Json.obj fs).IsCanonical

theorem Draft.IsProper.take {d d' : Draft} {index : Nat} {name : String} {v : Json}
    (hd : d.IsProper) (h : d.take index name v = .ok d') : d'.IsProper := by
  unfold Draft.take at h
  split at h
  case h_3 =>
    obtain ⟨slot, hfill, heq⟩ := bind_eq_ok h
    obtain ⟨fs, rfl, hfs⟩ := Json.fill_eq_ok hfill
    cases heq
    refine ⟨?_, hd.metadata⟩
    rintro _ ⟨⟩
    exact Json.isCanonical_of_fields hfs
  case h_4 =>
    obtain ⟨slot, hfill, heq⟩ := bind_eq_ok h
    obtain ⟨fs, rfl, hfs⟩ := Json.fill_eq_ok hfill
    cases heq
    refine ⟨hd.config, ?_⟩
    rintro _ ⟨⟩
    exact Json.isCanonical_of_fields hfs
  case h_5 =>
    cases h
    exact hd
  -- the id and the script
  all_goals
    obtain ⟨slot, -, heq⟩ := bind_eq_ok h
    cases heq
    exact ⟨hd.config, hd.metadata⟩

/-- **A node that is decoded is proper**, whether it is given as an object or as an array. -/
theorem decode_proper {v : Json} {node : Node} (h : decode v = .ok node) : node.IsProper := by
  cases v with
  | obj members =>
    obtain ⟨d, hfold, hrest⟩ := bind_eq_ok h
    obtain ⟨id, -, heq⟩ := bind_eq_ok hrest
    have hnone : Draft.IsProper {} := ⟨nofun, nofun⟩
    have hd : d.IsProper := Json.foldMembers_keeps (fun hd h => hd.take h) hnone hfold
    cases heq
    constructor
    · cases hconfig : d.config with
      | none => exact rfl
      | some fs => exact hd.config fs hconfig
    · cases hmetadata : d.metadata with
      | none => exact rfl
      | some fs => exact hd.metadata fs hmetadata
  | arr items =>
    obtain ⟨id, -, hrest⟩ := bind_eq_ok h
    obtain ⟨script, -, hrest⟩ := bind_eq_ok hrest
    obtain ⟨config, hconfig, hrest⟩ := bind_eq_ok hrest
    obtain ⟨metadata, hmetadata, hrest⟩ := bind_eq_ok hrest
    obtain ⟨-, -, heq⟩ := bind_eq_ok hrest
    cases heq
    constructor
    · obtain rfl | ⟨v, hv⟩ := Json.itemOr_eq_ok hconfig
      · rfl
      · exact Json.isCanonical_of_fields hv
    · obtain rfl | ⟨v, hv⟩ := Json.itemOr_eq_ok hmetadata
      · rfl
      · exact Json.isCanonical_of_fields hv
  | _ => cases h

end Node

/-- **An edge is decoded** from what it is encoded as. -/
theorem Edge.decode_toJson (edge : Edge) : decode edge.toJson = .ok edge := by
  obtain ⟨id, source, target, label⟩ := edge
  cases label <;> rfl

theorem Edge.decode_canonical (edge : Edge) : decode edge.toJson.canonical = .ok edge := by
  obtain ⟨id, source, target, label⟩ := edge
  cases label <;> rfl

namespace Definition

variable {nodes : List Node}

theorem decodeNodes_toJson (h : ∀ node ∈ nodes, node.IsProper) :
    decodeNodes (nodesJson nodes) = .ok nodes :=
  Json.list_map_ok fun node hnode => (h node hnode).decode_toJson

theorem decodeNodes_canonical (h : ∀ node ∈ nodes, node.IsProper) :
    decodeNodes (nodesJson nodes).canonical = .ok nodes := by
  rw [nodesJson, Json.canonical_map]
  exact Json.list_map_ok fun node hnode => (h node hnode).decode_canonical

theorem decodeEdges_toJson (edges : List Edge) : decodeEdges (edgesJson edges) = .ok edges :=
  Json.list_map_ok fun edge _ => edge.decode_toJson

theorem decodeEdges_canonical (edges : List Edge) :
    decodeEdges (edgesJson edges).canonical = .ok edges := by
  rw [edgesJson, Json.canonical_map]
  exact Json.list_map_ok fun edge _ => edge.decode_canonical

/-- Nodes that are decoded are proper. -/
theorem decodeNodes_proper {v : Json} (h : decodeNodes v = .ok nodes) :
    ∀ node ∈ nodes, node.IsProper := by
  intro node hnode
  obtain ⟨w, hw⟩ := Json.list_eq_ok h node hnode
  exact Node.decode_proper hw

end Definition

/-! ## Messages -/

namespace Control

/-- The parts of a message are in the form in which they are held: variables are those of a store,
and nodes have canonical settings and annotations. -/
def IsProper : Control → Prop
  | stop => True
  | resume _ => True
  | updateVars vars => vars.IsKept
  | updateWorkflow nodes _ => ∀ ns ∈ nodes, ∀ node ∈ ns, node.IsProper

/-- **The name of a message** is its tag. -/
theorem name_eq_tag (m : Control) : m.name = m.tag := by
  cases m <;> rw [name, tag, variant] <;> decide +kernel

/-- The payload in an encoded message, null if there is none. -/
def payloadOf (v : Json) : Json := (v.member? "payload").getD .null

/-- An encoded message says which one it is: its name is there, and from the name and the payload
that is there the message is understood. -/
structure IsToldBy (m : Control) (v : Json) : Prop where
  /-- the name is there -/
  named : v.member? "event" = some (.str m.name)
  /-- the message is understood -/
  understood : ofParts m.name (payloadOf v) = .ok m

/-- A message is understood from what it is encoded as, as it is written and in canonical form. -/
structure IsUnderstood (m : Control) : Prop where
  /-- as it is written -/
  asWritten : m.IsToldBy m.toJson
  /-- in canonical form -/
  asCanonical : m.IsToldBy m.toJson.canonical

theorem named_toJson (m : Control) : m.toJson.member? "event" = some (.str m.name) := by
  rw [name_eq_tag]
  rfl

theorem named_canonical (m : Control) :
    m.toJson.canonical.member? "event" = some (.str m.name) := by
  rw [name_eq_tag, toJson]
  cases m.payload? <;> rfl

theorem isUnderstood_of_payload {m : Control}
    (hwritten : ofParts m.name (payloadOf m.toJson) = .ok m)
    (hcanonical : ofParts m.name (payloadOf m.toJson.canonical) = .ok m) : m.IsUnderstood :=
  ⟨⟨m.named_toJson, hwritten⟩, ⟨m.named_canonical, hcanonical⟩⟩

section Payloads

variable {index : Nat}

theorem take_vars {vars : Vars} {v : Json} (h : Vars.decode v = .ok vars) :
    takeVars none index "vars" v = .ok (some vars) :=
  Json.fill_ok h "vars" index

theorem take_nodes {d : UpdateDraft} {nodes : Option (List Node)} {v : Json}
    (hslot : d.nodes = none) (h : Json.optional Definition.decodeNodes v = .ok nodes) :
    takeUpdate d index "nodes" v = .ok { d with nodes := some nodes } := by
  have hfill : Json.fill d.nodes "nodes" index (Json.optional Definition.decodeNodes) v =
      .ok (some nodes) := by
    rw [hslot, Json.fill_ok h]
  exact congrArg (Except.map fun slot => { d with nodes := slot }) hfill

theorem take_edges {d : UpdateDraft} {edges : Option (List Edge)} {v : Json}
    (hslot : d.edges = none) (h : Json.optional Definition.decodeEdges v = .ok edges) :
    takeUpdate d index "edges" v = .ok { d with edges := some edges } := by
  have hfill : Json.fill d.edges "edges" index (Json.optional Definition.decodeEdges) v =
      .ok (some edges) := by
    rw [hslot, Json.fill_ok h]
  exact congrArg (Except.map fun slot => { d with edges := slot }) hfill

end Payloads

theorem updateVars_isUnderstood {vars : Vars} (h : vars.IsKept) :
    (updateVars vars).IsUnderstood := by
  have hread : ofParts "update_store_vars" (.obj [("vars", vars.toJson)]) =
      .ok (updateVars vars) := by
    have hd : decodeVars (.obj [("vars", vars.toJson)]) = .ok (updateVars vars) := by
      change Json.foldMembers takeVars 0 [("vars", vars.toJson)] none >>= _ = _
      rw [Json.foldMembers_cons (take_vars h.decode_toJson)]
      rfl
    simp only [ofParts, hd]
  refine isUnderstood_of_payload hread ?_
  change ofParts "update_store_vars" (.obj [("vars", vars.toJson.canonical)]) = _
  rw [h.isCanonical_toJson]
  exact hread

/-- New nodes and edges are taken up in either order. -/
theorem decodeUpdate_ok {nodes : Option (List Node)} {edges : Option (List Edge)} {v w : Json}
    (hnodes : Json.optional Definition.decodeNodes v = .ok nodes)
    (hedges : Json.optional Definition.decodeEdges w = .ok edges) :
    decodeUpdate (.obj [("nodes", v), ("edges", w)]) = .ok (updateWorkflow nodes edges) ∧
    decodeUpdate (.obj [("edges", w), ("nodes", v)]) = .ok (updateWorkflow nodes edges) := by
  constructor
  · change Json.foldMembers takeUpdate 0 [_, _] {} >>= _ = _
    rw [Json.foldMembers_cons (take_nodes rfl hnodes),
      Json.foldMembers_cons (take_edges rfl hedges)]
    rfl
  · change Json.foldMembers takeUpdate 0 [_, _] {} >>= _ = _
    rw [Json.foldMembers_cons (take_edges rfl hedges),
      Json.foldMembers_cons (take_nodes rfl hnodes)]
    rfl

theorem updateWorkflow_isUnderstood {nodes : Option (List Node)} (edges : Option (List Edge))
    (h : ∀ ns ∈ nodes, ∀ node ∈ ns, node.IsProper) :
    (updateWorkflow nodes edges).IsUnderstood := by
  refine isUnderstood_of_payload ?_ ?_
  · have hnodes : Json.optional Definition.decodeNodes
        (Json.orNull Definition.nodesJson nodes) = .ok nodes :=
      Json.optional_orNull fun ns hns => ⟨Definition.decodeNodes_toJson (h ns hns), nofun⟩
    have hedges : Json.optional Definition.decodeEdges
        (Json.orNull Definition.edgesJson edges) = .ok edges :=
      Json.optional_orNull fun es _ => ⟨Definition.decodeEdges_toJson es, nofun⟩
    change ofParts "update_workflow" (.obj [("nodes", _), ("edges", _)]) = _
    simp only [ofParts, (decodeUpdate_ok hnodes hedges).1]
  · have hnodes : Json.optional Definition.decodeNodes
        (Json.orNull Definition.nodesJson nodes).canonical = .ok nodes := by
      rw [Json.canonical_orNull]
      exact Json.optional_orNull fun ns hns =>
        ⟨Definition.decodeNodes_canonical (h ns hns), nofun⟩
    have hedges : Json.optional Definition.decodeEdges
        (Json.orNull Definition.edgesJson edges).canonical = .ok edges := by
      rw [Json.canonical_orNull]
      exact Json.optional_orNull fun es _ => ⟨Definition.decodeEdges_canonical es, nofun⟩
    change ofParts "update_workflow" (.obj [("edges", _), ("nodes", _)]) = _
    simp only [ofParts, (decodeUpdate_ok hnodes hedges).2]

/-- **A message is understood** from what it is encoded as. -/
theorem IsProper.isUnderstood {m : Control} (h : m.IsProper) : m.IsUnderstood := by
  cases m with
  | stop => exact isUnderstood_of_payload rfl rfl
  | resume node => exact isUnderstood_of_payload rfl rfl
  | updateVars vars => exact updateVars_isUnderstood h
  | updateWorkflow nodes edges => exact updateWorkflow_isUnderstood edges h

/-! ## What is understood -/

/-- A payload that is understood is an object. -/
theorem ofMembers_eq_ok {variant : String} {v : Json} {m : Control}
    {build : List (String × Json) → Except Json.DecodeError Control}
    (h : Json.recordOfMembers variant build v = .ok m) : ∃ members, build members = .ok m := by
  cases v with
  | obj members => exact ⟨members, h⟩
  | _ => cases h

theorem decodeResume_eq_ok {v : Json} {m : Control} (h : decodeResume v = .ok m) :
    ∃ node, m = resume node := by
  obtain ⟨members, h⟩ := ofMembers_eq_ok h
  obtain ⟨d, -, hrest⟩ := bind_eq_ok h
  obtain ⟨node, -, heq⟩ := bind_eq_ok hrest
  cases heq
  exact ⟨node, rfl⟩

theorem takeVars_keeps {d d' : Option Vars} {index : Nat} {name : String} {v : Json}
    (hd : ∀ vars ∈ d, vars.IsKept) (h : takeVars d index name v = .ok d') :
    ∀ vars ∈ d', vars.IsKept := by
  rw [takeVars] at h
  split at h
  · obtain ⟨vars, rfl, hvars⟩ := Json.fill_eq_ok h
    rintro _ ⟨⟩
    exact Vars.isKept_of_decode hvars
  · cases h
    exact hd

theorem decodeVars_eq_ok {v : Json} {m : Control} (h : decodeVars v = .ok m) :
    ∃ vars, m = updateVars vars ∧ vars.IsKept := by
  obtain ⟨members, h⟩ := ofMembers_eq_ok h
  obtain ⟨d, hfold, hrest⟩ := bind_eq_ok h
  obtain ⟨vars, hvars, heq⟩ := bind_eq_ok hrest
  cases heq
  have hnone : ∀ vars ∈ (none : Option Vars), vars.IsKept := nofun
  have hkept : ∀ vars ∈ d, vars.IsKept :=
    Json.foldMembers_keeps (fun hd h => takeVars_keeps hd h) hnone hfold
  exact ⟨vars, rfl, hkept vars (Json.require_eq_ok hvars)⟩

/-- The new nodes met so far are proper. -/
def UpdateDraft.IsProper (d : UpdateDraft) : Prop :=
  ∀ nodes ∈ d.nodes, ∀ ns ∈ nodes, ∀ node ∈ ns, Node.IsProper node

theorem UpdateDraft.IsProper.take {d d' : UpdateDraft} {index : Nat} {name : String} {v : Json}
    (hd : d.IsProper) (h : takeUpdate d index name v = .ok d') : d'.IsProper := by
  unfold takeUpdate at h
  split at h
  · obtain ⟨slot, hfill, heq⟩ := bind_eq_ok h
    obtain ⟨nodes, rfl, hnodes⟩ := Json.fill_eq_ok hfill
    cases heq
    rintro _ ⟨⟩ ns hns
    rw [hns] at hnodes
    exact Definition.decodeNodes_proper (Json.optional_eq_some hnodes)
  · obtain ⟨slot, -, heq⟩ := bind_eq_ok h
    cases heq
    exact hd
  · cases h
    exact hd

theorem decodeUpdate_eq_ok {v : Json} {m : Control} (h : decodeUpdate v = .ok m) :
    ∃ nodes edges, m = updateWorkflow nodes edges ∧
      ∀ ns ∈ nodes, ∀ node ∈ ns, Node.IsProper node := by
  obtain ⟨members, h⟩ := ofMembers_eq_ok h
  obtain ⟨d, hfold, heq⟩ := bind_eq_ok h
  cases heq
  have hnone : UpdateDraft.IsProper {} := nofun
  have hd : d.IsProper := Json.foldMembers_keeps (fun hd h => hd.take h) hnone hfold
  refine ⟨_, _, rfl, ?_⟩
  intro ns hns
  cases hnodes : d.nodes with
  | none =>
    rw [hnodes] at hns
    cases hns
  | some nodes =>
    rw [hnodes] at hns
    exact hd nodes hnodes ns hns

/-- **What is understood** has the name under which it came, and its parts are proper. -/
theorem ofParts_eq_ok {name : String} {payload : Json} {m : Control}
    (h : ofParts name payload = .ok m) : m.name = name ∧ m.IsProper := by
  unfold ofParts at h
  dsimp only at h
  split at h
  · cases h
    exact ⟨rfl, trivial⟩
  · split at h
    · next hd =>
      cases h
      obtain ⟨node, rfl⟩ := decodeResume_eq_ok hd
      exact ⟨rfl, trivial⟩
    · cases h
  · split at h
    · next hd =>
      cases h
      obtain ⟨vars, rfl, hvars⟩ := decodeVars_eq_ok hd
      exact ⟨rfl, hvars⟩
    · cases h
  · split at h
    · next hd =>
      cases h
      obtain ⟨nodes, edges, rfl, hnodes⟩ := decodeUpdate_eq_ok hd
      exact ⟨rfl, hnodes⟩
    · cases h
  · cases h

/-- **A message comes back.** From its name, which is the name in what it is encoded as, and from
the payload that it is encoded with, or null if it has none, a message is understood as itself.
Whatever name and payload are understood as a message, they are understood as one of that name,
which comes back as well. -/
theorem understood_again :
    (∀ m : Control, m.IsProper → m.IsUnderstood) ∧
    ∀ (name : String) (payload : Json) (m : Control), ofParts name payload = .ok m →
      m.name = name ∧ m.IsProper ∧ m.IsUnderstood := by
  refine ⟨fun m h => h.isUnderstood, ?_⟩
  intro name payload m h
  obtain ⟨hname, hproper⟩ := ofParts_eq_ok h
  exact ⟨hname, hproper, hproper.isUnderstood⟩

/-- A node given as an array, with its settings out of order, and edges that stay as they are. -/
def givenAsArray : Json :=
  .obj [("edges", .null), ("nodes", .arr [.arr [.str "fetch", .null,
    .obj [("url", .str "/"), ("retries", .num (.int 3))]]])]

/-- The message that says so. -/
def fetchOnly : Control :=
  updateWorkflow
    (some [⟨"fetch", none, [("retries", .num (.int 3)), ("url", .str "/")], []⟩]) none

theorem fetchOnly_understood_again :
    ofParts "update_workflow" givenAsArray = .ok fetchOnly ∧ fetchOnly.IsProper ∧
      fetchOnly.IsUnderstood := by
  have hgiven : ofParts "update_workflow" givenAsArray = .ok fetchOnly := rfl
  obtain ⟨-, hproper, -⟩ := understood_again.2 _ _ _ hgiven
  exact ⟨hgiven, hproper, understood_again.1 fetchOnly hproper⟩

end Control

end Workflow
