import Workflow.Proofs.Instant
import Workflow.Proofs.Json.Decode
import Workflow.Run.Record

/-!
# Records read back

A record that is written and read says of its run what it said before (`RunRecord.decode_reread`),
if its instants are moments in the calendar. What it says of the variables and the graph of the run
is read as well, but may come back in another form: numbers may have moved, and of two members with
one name only the later one is left.
-/

namespace Workflow

open Json (rereadMembers)

/-! ## Graphs and variables -/

theorem Node.decode_reread (node : Node) : ∃ n, Node.decode node.toJson.reread = .ok n := by
  obtain ⟨id, script, settings, notes⟩ := node
  obtain ⟨config, hconfig⟩ := Json.fields_ok settings
  obtain ⟨metadata, hmetadata⟩ := Json.fields_ok notes
  -- the script may be missing, what stands behind it may not
  have hrest (i : Nat) (slot : Option (Option String)) :
      Json.foldMembers Draft.take i [("config", (Json.obj settings).reread),
        ("metadata", (Json.obj notes).reread)] ⟨some id, slot, none, none⟩ =
          .ok ⟨some id, slot, some config, some metadata⟩ := by
    have hfirst : Draft.take ⟨some id, slot, none, none⟩ i "config" (Json.obj settings).reread =
        .ok ⟨some id, slot, some config, none⟩ := by
      simp only [Draft.take, Json.fill_ok hconfig]
      rfl
    refine (Json.foldMembers_cons hfirst).trans (Json.foldMembers_cons ?_)
    simp only [Draft.take, Json.fill_ok hmetadata]
    rfl
  cases script with
  | none =>
    refine ⟨⟨id, none, config, metadata⟩, ?_⟩
    change (Json.foldMembers Draft.take 1 [("config", (Json.obj settings).reread),
      ("metadata", (Json.obj notes).reread)] ⟨some id, none, none, none⟩ >>= _) = _
    rw [hrest]
    rfl
  | some s =>
    refine ⟨⟨id, some s, config, metadata⟩, ?_⟩
    change (Json.foldMembers Draft.take 2 [("config", (Json.obj settings).reread),
      ("metadata", (Json.obj notes).reread)] ⟨some id, some (some s), none, none⟩ >>= _) = _
    rw [hrest]
    rfl

theorem Edge.decode_reread (edge : Edge) : Edge.decode edge.toJson.reread = .ok edge := by
  obtain ⟨id, source, target, label⟩ := edge
  cases label <;> rfl

theorem Vars.decode_reread (vars : Vars) : ∃ vs, Vars.decode vars.toJson.reread = .ok vs := by
  obtain ⟨fs, hfs⟩ := Json.fields_ok vars.fields
  exact ⟨ofFields fs, congrArg (Except.map ofFields) hfs⟩

theorem Definition.decodeNodes_reread (nodes : List Node) :
    ∃ ns, decodeNodes (nodesJson nodes).reread = .ok ns := by
  obtain ⟨ns, hns, -⟩ := Json.list_ok (p := fun _ => ()) (q := fun _ => ()) nodes fun node _ =>
    (node.decode_reread).imp fun _ h => ⟨h, rfl⟩
  exact ⟨ns, hns⟩

theorem Definition.decodeEdges_reread (edges : List Edge) :
    decodeEdges (edgesJson edges).reread = .ok edges := by
  obtain ⟨es, hes, hsame⟩ := Json.list_ok (p := id) (q := id) edges fun edge _ =>
    ⟨edge, edge.decode_reread, rfl⟩
  rw [List.map_id, List.map_id] at hsame
  exact hes.trans (congrArg _ hsame)

/-! ## Records -/

theorem RunStatus.decode_reread (s : RunStatus) : decode s.toJson.reread = .ok s := by
  cases s <;> rfl

theorem Instant.decode_reread {t : Instant} (h : t.IsProper) : decode t.toJson.reread = .ok t := by
  have hread : read (String.ofList t.write).toList = .ok t := by
    rw [String.toList_ofList, read_write h]
  change decode (.str (String.ofList t.write)) = .ok t
  simp only [decode, hread]

namespace RunRecord

/-- What is known of a record when the members that are always there have been taken up and some
of those that may be missing. -/
def drafted (r : RunRecord) (vars : Option (Option Vars)) (nodes : Option (Option (List Node)))
    (edges : Option (Option (List Edge))) (message : Option (Option String)) : Draft :=
  { runId := some r.runId, projectId := some r.projectId, status := some r.status
    startedAt := some r.startedAt, lastHeartbeat := some r.lastHeartbeat
    currentNode := some r.currentNode, vars, nodes, edges, message }

/-- A member that is left out if there is nothing to write is taken up if it is there. -/
theorem fold_optional {α β δ : Type} {step : δ → Nat → String → Json → Except Json.DecodeError δ}
    {name : String} {f : α → Json} {d : Json.Decoder β} {o : Option α} {acc : δ}
    (set : Option (Option β) → δ) (hacc : set none = acc)
    (hd : ∀ a, (f a).reread ≠ .null ∧ ∃ b, d (f a).reread = .ok b)
    (hstep : ∀ v slot i, Json.fill none name i (Json.optional d) v = .ok slot →
      step acc i name v = .ok (set slot)) :
    ∃ slot, ∀ i, Json.foldMembers step i (rereadMembers (optionalMember name f o)) acc =
      .ok (set slot) := by
  cases o with
  | none => exact ⟨none, fun i => congrArg Except.ok hacc.symm⟩
  | some a =>
    obtain ⟨hne, b, hb⟩ := hd a
    exact ⟨some (some b), fun i => Json.foldMembers_cons
      (hstep _ _ i (Json.fill_ok (Json.optional_ok hb hne) name i))⟩

section Members

variable {r : RunRecord}

/-- The members that are always there are taken up. -/
theorem fold_always (hs : r.startedAt.IsProper) (hh : r.lastHeartbeat.IsProper) :
    Json.foldMembers Draft.take 0 (rereadMembers [("runId", .str r.runId),
      ("projectId", .str r.projectId), ("status", r.status.toJson),
      ("startedAt", r.startedAt.toJson), ("lastHeartbeat", r.lastHeartbeat.toJson),
      ("currentNodeId", Json.orNull .str r.currentNode)]) {} =
        .ok (r.drafted none none none none) := by
  have hrun := Json.fill_ok (rfl : Json.text (Json.str r.runId).reread = .ok r.runId) "runId"
  have hproject := Json.fill_ok
    (rfl : Json.text (Json.str r.projectId).reread = .ok r.projectId) "projectId"
  have hstatus := Json.fill_ok (RunStatus.decode_reread r.status) "status"
  have hstarted := Json.fill_ok (Instant.decode_reread hs) "startedAt"
  have hheartbeat := Json.fill_ok (Instant.decode_reread hh) "lastHeartbeat"
  have hnode := Json.fill_ok (Json.optional_text r.currentNode) "currentNodeId"
  simp only [rereadMembers, Json.foldMembers, Draft.take, hrun, hproject, hstatus, hstarted,
    hheartbeat, hnode, bind, Except.bind, pure, Except.pure]
  rfl

variable (r) (vars : Option (Option Vars)) (nodes : Option (Option (List Node)))
  (edges : Option (Option (List Edge)))

theorem fold_vars : ∃ vars, ∀ i, Json.foldMembers Draft.take i
    (rereadMembers (optionalMember "storeVars" Vars.toJson r.vars)) (r.drafted none none none none) =
      .ok (r.drafted vars none none none) := by
  refine fold_optional (fun vars => r.drafted vars none none none) rfl
    (fun vars => ⟨nofun, vars.decode_reread⟩) fun v slot i h => ?_
  change (Json.fill none "storeVars" i (Json.optional Vars.decode) v >>= _) = _
  rw [h]
  rfl

theorem fold_nodes : ∃ nodes, ∀ i, Json.foldMembers Draft.take i
    (rereadMembers (optionalMember "nodes" Definition.nodesJson r.nodes))
      (r.drafted vars none none none) = .ok (r.drafted vars nodes none none) := by
  refine fold_optional (fun nodes => r.drafted vars nodes none none) rfl
    (fun nodes => ⟨nofun, Definition.decodeNodes_reread nodes⟩) fun v slot i h => ?_
  change (Json.fill none "nodes" i (Json.optional Definition.decodeNodes) v >>= _) = _
  rw [h]
  rfl

theorem fold_edges : ∃ edges, ∀ i, Json.foldMembers Draft.take i
    (rereadMembers (optionalMember "edges" Definition.edgesJson r.edges))
      (r.drafted vars nodes none none) = .ok (r.drafted vars nodes edges none) := by
  refine fold_optional (fun edges => r.drafted vars nodes edges none) rfl
    (fun edges => ⟨nofun, edges, Definition.decodeEdges_reread edges⟩) fun v slot i h => ?_
  change (Json.fill none "edges" i (Json.optional Definition.decodeEdges) v >>= _) = _
  rw [h]
  rfl

/-- The message is taken up as it was. -/
theorem fold_message (i : Nat) : Json.foldMembers Draft.take i
    (rereadMembers (optionalMember "message" .str r.message)) (r.drafted vars nodes edges none) =
      .ok (r.drafted vars nodes edges (r.message.map some)) := by
  cases r.message <;> rfl

end Members

/-- **A record is read as it was**, but for its variables and its graph. -/
theorem decode_reread {r : RunRecord} (hs : r.startedAt.IsProper) (hh : r.lastHeartbeat.IsProper) :
    ∃ vars nodes edges, decode r.toJson.reread = .ok { r with vars, nodes, edges } := by
  obtain ⟨vars, hvars⟩ := fold_vars r
  obtain ⟨nodes, hnodes⟩ := fold_nodes r vars
  obtain ⟨edges, hedges⟩ := fold_edges r vars nodes
  have h₁ := (Json.foldMembers_append (fold_always hs hh) _).trans (hvars _)
  have h₂ := (Json.foldMembers_append h₁ _).trans (hnodes _)
  have h₃ := (Json.foldMembers_append h₂ _).trans (hedges _)
  have h₄ := (Json.foldMembers_append h₃ _).trans (fold_message r vars nodes edges _)
  refine ⟨vars.getD none, nodes.getD none, edges.getD none, ?_⟩
  rw [toJson, Json.reread]
  simp only [Json.rereadMembers_append]
  change (Json.foldMembers Draft.take 0 _ {} >>= _) = _
  rw [h₄]
  change Except.ok { r with
    vars := vars.getD none, nodes := nodes.getD none, edges := edges.getD none
    message := (r.message.map some).getD none } = _
  cases r.message <;> rfl

/-! ## What is read -/

/-- The moments that a record names are in the calendar. -/
structure IsProper (r : RunRecord) : Prop where
  /-- the run started at a moment in the calendar -/
  startedAt : r.startedAt.IsProper
  /-- it gave a sign of life at one -/
  lastHeartbeat : r.lastHeartbeat.IsProper

theorem IsProper.persisted {r : RunRecord} (h : r.IsProper) : r.persisted.IsProper := by
  rw [RunRecord.persisted]
  split
  · exact h
  · exact ⟨h.startedAt, h.lastHeartbeat⟩

end RunRecord

theorem Instant.decode_proper {v : Json} {t : Instant} (h : decode v = .ok t) : t.IsProper := by
  cases v with
  | str s =>
    simp only [decode] at h
    split at h
    · next hread =>
      cases h
      exact read_proper hread
    · cases h
  | _ => cases h

namespace RunRecord

/-- The moments met so far are in the calendar. -/
def Draft.IsProper (d : Draft) : Prop :=
  (∀ t ∈ d.startedAt, t.IsProper) ∧ ∀ t ∈ d.lastHeartbeat, t.IsProper

theorem Draft.IsProper.take {d d' : Draft} {i : Nat} {name : String} {v : Json} (hd : d.IsProper)
    (h : d.take i name v = .ok d') : d'.IsProper := by
  unfold Draft.take at h
  split at h
  case h_4 =>
    obtain ⟨slot, hfill, heq⟩ := bind_eq_ok h
    obtain ⟨t, rfl, ht⟩ := Json.fill_eq_ok hfill
    cases heq
    exact ⟨fun _ hmem => Option.some.inj hmem ▸ Instant.decode_proper ht, hd.2⟩
  case h_5 =>
    obtain ⟨slot, hfill, heq⟩ := bind_eq_ok h
    obtain ⟨t, rfl, ht⟩ := Json.fill_eq_ok hfill
    cases heq
    exact ⟨hd.1, fun _ hmem => Option.some.inj hmem ▸ Instant.decode_proper ht⟩
  case h_11 =>
    cases h
    exact hd
  -- the other members are not about moments
  all_goals
    obtain ⟨slot, -, heq⟩ := bind_eq_ok h
    cases heq
    exact hd

/-- **Whatever is read names moments in the calendar.** -/
theorem decode_proper {v : Json} {r : RunRecord} (h : decode v = .ok r) : r.IsProper := by
  cases v with
  | obj members =>
    obtain ⟨d, hfold, h⟩ := bind_eq_ok h
    have hnone : Draft.IsProper {} := ⟨nofun, nofun⟩
    obtain ⟨hstarted, hheartbeat⟩ := Json.foldMembers_keeps (fun hd h => hd.take h) hnone hfold
    obtain ⟨_, -, h⟩ := bind_eq_ok h
    obtain ⟨_, -, h⟩ := bind_eq_ok h
    obtain ⟨_, -, h⟩ := bind_eq_ok h
    obtain ⟨started, hs, h⟩ := bind_eq_ok h
    obtain ⟨heartbeat, hh, h⟩ := bind_eq_ok h
    cases h
    exact ⟨hstarted _ (Json.require_eq_ok hs), hheartbeat _ (Json.require_eq_ok hh)⟩
  | arr items =>
    obtain ⟨_, -, h⟩ := bind_eq_ok h
    obtain ⟨_, -, h⟩ := bind_eq_ok h
    obtain ⟨_, -, h⟩ := bind_eq_ok h
    obtain ⟨started, hs, h⟩ := bind_eq_ok h
    obtain ⟨heartbeat, hh, h⟩ := bind_eq_ok h
    obtain ⟨_, -, h⟩ := bind_eq_ok h
    obtain ⟨_, -, h⟩ := bind_eq_ok h
    obtain ⟨_, -, h⟩ := bind_eq_ok h
    obtain ⟨_, -, h⟩ := bind_eq_ok h
    obtain ⟨_, -, h⟩ := bind_eq_ok h
    obtain ⟨_, -, h⟩ := bind_eq_ok h
    cases h
    obtain ⟨_, hs⟩ := Json.item_eq_ok hs
    obtain ⟨_, hh⟩ := Json.item_eq_ok hh
    exact ⟨Instant.decode_proper hs, Instant.decode_proper hh⟩
  | _ => cases h

end RunRecord

end Workflow
