import Workflow.Proofs.Json.Decode
import Workflow.Proofs.Vars.Store
import Workflow.Watch.Journal

/-!
# Events and their encodings

An event is encoded under the tag of its variant, and journals write the name that a table of its
own gives it. The two agree (`name_eq_tag`). What is encoded is decoded as the same event, in the
order in which it is written as well as in the order of a canonical value, where the members of a
payload may change places (`IsProper.isDecoded`). So an event comes back, alone, in an envelope and
in the line of a journal, which is the envelope with a time stamp (`Envelope.comes_back`).

The parts of an event are in the form in which a program holds them: values are canonical, and
variables are those of a store. Whatever is decoded has such parts (`decode_proper`).
-/

namespace Workflow

namespace Event

/-! ## Parts -/

/-- The parts of an event are in the form in which they are held: what a script logged is
canonical, and variables are those of a store. -/
def IsProper : Event → Prop
  | nodeLog _ _ args => ∀ v ∈ args, v.IsCanonical
  | varsUpdate vars => vars.IsKept
  | executionState _ _ vars => vars.IsKept
  | _ => True

/-- **The name of an event** is its tag. -/
theorem name_eq_tag (e : Event) : e.name = e.tag := by
  cases e <;> rw [name, tag, variant] <;> decide +kernel

theorem nodup_names : names.Nodup := by decide +kernel

/-- The decoder under a tag is found by it. -/
theorem decodeName_tag {tag : String} {d : Json.Decoder Event} (h : (tag, d) ∈ payloadDecoders) :
    decodeName (.str tag) = .ok d := by
  have hfind : Fields.find? payloadDecoders tag = some d := Fields.find?_of_mem nodup_names h
  rw [decodeName, Json.variant]
  dsimp only
  rw [hfind]

/-! ## Payloads -/

section Payloads

variable {d : PayloadDraft} {wanted : List String} {orNull : Bool} {index : Nat}

theorem take_vars {v : Json} {vars : Vars} (hwanted : wanted.contains "vars" = true)
    (hslot : d.vars = none) (h : Vars.decode v = .ok vars) :
    d.take wanted orNull index "vars" v = .ok { d with vars := some vars } := by
  have hfill : Json.fill d.vars "vars" index Vars.decode v = .ok (some vars) := by
    rw [hslot, Json.fill_ok h]
  rw [PayloadDraft.take, hwanted]
  exact congrArg (Except.map fun slot => { d with vars := slot }) hfill

theorem take_args {args : List Json} (hwanted : wanted.contains "args" = true)
    (hslot : d.args = none) (h : ∀ v ∈ args, v.IsCanonical) :
    d.take wanted orNull index "args" (.arr args) = .ok { d with args := some args } := by
  have hfill : Json.fill d.args "args" index (Json.list Json.anyValue) (.arr args) =
      .ok (some args) := by
    rw [hslot, Json.fill_ok (Json.list_anyValue h)]
  rw [PayloadDraft.take, hwanted]
  exact congrArg (Except.map fun slot => { d with args := slot }) hfill

/-- The variables are the last member of a payload, in either order. -/
theorem read_vars {front : List (String × Json)} {vars : Vars} (h : vars.IsKept)
    (hwanted : wanted.contains "vars" = true) (hslot : d.vars = none)
    (hfront : Json.foldMembers (PayloadDraft.take wanted orNull) 0 front {} = .ok d) :
    Json.foldMembers (PayloadDraft.take wanted orNull) 0 (front ++ [("vars", vars.toJson)]) {} =
      .ok { d with vars := some vars } :=
  (Json.foldMembers_append hfront _).trans
    (Json.foldMembers_cons (take_vars hwanted hslot h.decode_toJson))

theorem ofPayload_ok {members : List (String × Json)} {variant : String} {e : Event}
    {build : PayloadDraft → Except Json.DecodeError Event}
    (h : Json.foldMembers (PayloadDraft.take wanted orNull) 0 members {} = .ok d)
    (hbuild : build d = .ok e) : ofPayload variant wanted orNull build (.obj members) = .ok e := by
  change (Json.foldMembers (PayloadDraft.take wanted orNull) 0 members {} >>= build) = _
  rw [h]
  exact hbuild

end Payloads

/-- An event whose payload is decoded under its tag, as it is encoded and in canonical form. -/
def IsDecoded (e : Event) : Prop :=
  ∃ d, (e.tag, d) ∈ payloadDecoders ∧ d e.content = .ok e ∧ d e.content.canonical = .ok e

theorem nodeLog_isDecoded (node : String) (level : LogLevel) {args : List Json}
    (h : ∀ v ∈ args, v.IsCanonical) : (nodeLog node level args).IsDecoded := by
  have hcanonical : (nodeLog node level args).content.canonical =
      .obj [("args", .arr args), ("level", .str level.name), ("nodeId", .str node)] := by
    change Json.obj [("args", (Json.arr args).canonical), _, _] = _
    rw [Json.isCanonical_arr h]
    rfl
  have hlevel : Json.foldMembers (PayloadDraft.take ["nodeId", "level", "args"] false) 0
      [("nodeId", .str node), ("level", .str level.name)] {} =
        .ok { nodeId := some node, level := some level } := by
    cases level <;> rfl
  have hread : Json.foldMembers (PayloadDraft.take ["nodeId", "level", "args"] false) 0
      [("nodeId", .str node), ("level", .str level.name), ("args", .arr args)] {} =
        .ok { nodeId := some node, level := some level, args := some args } :=
    (Json.foldMembers_append hlevel _).trans (Json.foldMembers_cons (take_args rfl rfl h))
  have hsorted : Json.foldMembers (PayloadDraft.take ["nodeId", "level", "args"] false) 0
      [("args", .arr args), ("level", .str level.name), ("nodeId", .str node)] {} =
        .ok { nodeId := some node, level := some level, args := some args } := by
    rw [Json.foldMembers_cons (take_args rfl rfl h)]
    cases level <;> rfl
  rw [IsDecoded, hcanonical]
  exact ⟨_, List.mem_of_getElem? (i := 1) rfl, ofPayload_ok hread rfl, ofPayload_ok hsorted rfl⟩

theorem varsUpdate_isDecoded {vars : Vars} (h : vars.IsKept) : (varsUpdate vars).IsDecoded := by
  have hcanonical : (varsUpdate vars).content.canonical = .obj [("vars", vars.toJson)] := by
    change Json.obj [("vars", vars.toJson.canonical)] = _
    rw [h.isCanonical_toJson]
  have hread : Json.foldMembers (PayloadDraft.take ["vars"] false) 0 [("vars", vars.toJson)] {} =
      .ok { vars := some vars } :=
    Json.foldMembers_cons (take_vars rfl rfl h.decode_toJson)
  rw [IsDecoded, hcanonical]
  exact ⟨_, List.mem_of_getElem? (i := 5) rfl, ofPayload_ok hread rfl, ofPayload_ok hread rfl⟩

theorem executionState_isDecoded (run : String) (node : Option String) {vars : Vars}
    (h : vars.IsKept) : (executionState run node vars).IsDecoded := by
  have hcanonical : (executionState run node vars).content.canonical =
      .obj ([("currentNodeId", Json.orNull .str node), ("runId", .str run)] ++
        [("vars", vars.toJson)]) := by
    change Json.obj [("currentNodeId", (Json.orNull .str node).canonical), _,
      ("vars", vars.toJson.canonical)] = _
    rw [h.isCanonical_toJson]
    cases node <;> rfl
  have hread : Json.foldMembers (PayloadDraft.take ["runId", "currentNodeId", "vars"] false) 0
      [("runId", .str run), ("currentNodeId", Json.orNull .str node)] {} =
        .ok { runId := some run, currentNodeId := some node } := by
    cases node <;> rfl
  have hsorted : Json.foldMembers (PayloadDraft.take ["runId", "currentNodeId", "vars"] false) 0
      [("currentNodeId", Json.orNull .str node), ("runId", .str run)] {} =
        .ok { runId := some run, currentNodeId := some node } := by
    cases node <;> rfl
  rw [IsDecoded, hcanonical]
  exact ⟨_, List.mem_of_getElem? (i := 12) rfl, ofPayload_ok (read_vars h rfl rfl hread) rfl,
    ofPayload_ok (read_vars h rfl rfl hsorted) rfl⟩

/-- **A payload is decoded** under the tag of its event. -/
theorem IsProper.isDecoded {e : Event} (h : e.IsProper) : e.IsDecoded := by
  cases e with
  | nodeStart node => exact ⟨_, List.mem_of_getElem? (i := 0) rfl, rfl, rfl⟩
  | nodeLog node level args => exact nodeLog_isDecoded node level h
  | nodeError node error => exact ⟨_, List.mem_of_getElem? (i := 2) rfl, rfl, rfl⟩
  | nodeWait node reason =>
    cases reason <;> exact ⟨_, List.mem_of_getElem? (i := 3) rfl, rfl, rfl⟩
  | edgeStart edge => exact ⟨_, List.mem_of_getElem? (i := 4) rfl, rfl, rfl⟩
  | varsUpdate vars => exact varsUpdate_isDecoded h
  | workflowComplete => exact ⟨_, List.mem_of_getElem? (i := 6) rfl, rfl, rfl⟩
  | runStarted run => exact ⟨_, List.mem_of_getElem? (i := 7) rfl, rfl, rfl⟩
  | runCompleted run => exact ⟨_, List.mem_of_getElem? (i := 8) rfl, rfl, rfl⟩
  | runError run message => exact ⟨_, List.mem_of_getElem? (i := 9) rfl, rfl, rfl⟩
  | runStopped run => exact ⟨_, List.mem_of_getElem? (i := 10) rfl, rfl, rfl⟩
  | currentStatus run status =>
    refine ⟨_, List.mem_of_getElem? (i := 11) rfl, ?_⟩
    cases run <;> rcases status with _ | (_ | _ | _ | _ | _ | _) <;> exact ⟨rfl, rfl⟩
  | executionState run node vars => exact executionState_isDecoded run node h

/-! ## Events -/

theorem ofMembers_ok {e : Event} {d : Json.Decoder Event} {content : Json}
    (hd : (e.tag, d) ∈ payloadDecoders) (hcontent : d content = .ok e) (i j : Nat) :
    ofMembers [(i, "event", .str e.tag), (j, "payload", content)] = .ok e := by
  have hname : Json.under i decodeName (.str e.tag) = .ok d := Json.under_ok (decodeName_tag hd) i
  have hpayload : readPayload d [(j, "payload", content)] = .ok e := by
    change (Json.under j d content).bind (fun e => (noRepeat []).bind fun _ => .ok e) = _
    rw [Json.under_ok hcontent]
    rfl
  change (Json.under i decodeName (.str e.tag)).bind
    (fun d => readPayload d [(j, "payload", content)]) = _
  rw [hname]
  exact hpayload

/-- **An event is decoded** from what it is encoded as. -/
theorem decode_toJson {e : Event} (h : e.IsProper) : decode e.toJson = .ok e := by
  obtain ⟨d, hd, hcontent, -⟩ := h.isDecoded
  exact ofMembers_ok hd hcontent 0 1

theorem decode_canonical {e : Event} (h : e.IsProper) : decode e.toJson.canonical = .ok e := by
  obtain ⟨d, hd, -, hcontent⟩ := h.isDecoded
  exact ofMembers_ok hd hcontent 0 1

/-! ## What is decoded -/

/-- The parts of a payload met so far are in the form in which they are held. -/
def PayloadDraft.IsProper (d : PayloadDraft) : Prop :=
  (∀ args ∈ d.args, ∀ v ∈ args, v.IsCanonical) ∧ ∀ vars ∈ d.vars, vars.IsKept

theorem PayloadDraft.IsProper.take {d d' : PayloadDraft} {wanted : List String} {orNull : Bool}
    {index : Nat} {name : String} {v : Json} (hd : d.IsProper)
    (h : d.take wanted orNull index name v = .ok d') : d'.IsProper := by
  unfold PayloadDraft.take at h
  split at h
  · cases h
    exact hd
  split at h
  case h_3 =>
    obtain ⟨slot, hfill, heq⟩ := bind_eq_ok h
    obtain ⟨args, rfl, hargs⟩ := Json.fill_eq_ok hfill
    cases heq
    refine ⟨fun _ hmem w hw => ?_, hd.2⟩
    obtain rfl := Option.some.inj hmem
    obtain ⟨item, hitem⟩ := Json.list_eq_ok hargs w hw
    exact Except.ok.inj hitem ▸ Json.isCanonical_canonical item
  case h_7 =>
    obtain ⟨slot, hfill, heq⟩ := bind_eq_ok h
    obtain ⟨vars, rfl, hvars⟩ := Json.fill_eq_ok hfill
    cases heq
    exact ⟨hd.1, fun _ hmem => Option.some.inj hmem ▸ Vars.isKept_of_decode hvars⟩
  case h_8 =>
    split at h
    all_goals
      obtain ⟨slot, -, heq⟩ := bind_eq_ok h
      cases heq
      exact hd
  case h_12 =>
    cases h
    exact hd
  -- the other members are neither
  all_goals
    obtain ⟨slot, -, heq⟩ := bind_eq_ok h
    cases heq
    exact hd

theorem ofPayload_eq_ok {variant : String} {wanted : List String} {orNull : Bool}
    {build : PayloadDraft → Except Json.DecodeError Event} {v : Json} {e : Event}
    (h : ofPayload variant wanted orNull build v = .ok e) :
    ∃ d, PayloadDraft.IsProper d ∧ build d = .ok e := by
  cases v with
  | obj members =>
    obtain ⟨d, hfold, hbuild⟩ := bind_eq_ok h
    have hnone : PayloadDraft.IsProper {} := ⟨nofun, nofun⟩
    exact ⟨d, Json.foldMembers_keeps (fun hd h => hd.take h) hnone hfold, hbuild⟩
  | _ => cases h

theorem isProper_of_payload {tag : String} {d : Json.Decoder Event} {content : Json} {e : Event}
    (hd : (tag, d) ∈ payloadDecoders) (h : d content = .ok e) : e.IsProper := by
  have hall : ∀ p ∈ payloadDecoders, p.2 content = .ok e → e.IsProper := by
    simp only [payloadDecoders, List.forall_mem_cons, ofVariant]
    refine ⟨?_, ?nodeLog, ?_, ?_, ?_, ?varsUpdate, ?_, ?_, ?_, ?_, ?_, ?_, ?executionState,
      List.forall_mem_nil _⟩ <;> intro h <;> obtain ⟨d, hproper, hbuild⟩ := ofPayload_eq_ok h
    case nodeLog =>
      obtain ⟨_, -, hbuild⟩ := bind_eq_ok hbuild
      obtain ⟨_, -, hbuild⟩ := bind_eq_ok hbuild
      obtain ⟨args, hargs, hbuild⟩ := bind_eq_ok hbuild
      cases hbuild
      exact hproper.1 args (Json.require_eq_ok hargs)
    case varsUpdate =>
      obtain ⟨vars, hvars, hbuild⟩ := bind_eq_ok hbuild
      cases hbuild
      exact hproper.2 vars (Json.require_eq_ok hvars)
    case executionState =>
      obtain ⟨_, -, hbuild⟩ := bind_eq_ok hbuild
      obtain ⟨vars, hvars, hbuild⟩ := bind_eq_ok hbuild
      cases hbuild
      exact hproper.2 vars (Json.require_eq_ok hvars)
    -- the other events have no such parts
    all_goals
      repeat obtain ⟨_, -, hbuild⟩ := bind_eq_ok hbuild
      cases hbuild
      exact trivial
  exact hall _ hd h

theorem readPayload_eq_ok {d : Json.Decoder Event} {members : Members} {e : Event}
    (h : readPayload d members = .ok e) : ∃ content, d content = .ok e := by
  induction members with
  | nil => cases h
  | cons m members ih =>
    obtain ⟨i, k, v⟩ := m
    rw [readPayload] at h
    split at h
    · cases h
    · split at h
      · obtain ⟨e', he, hrest⟩ := bind_eq_ok h
        obtain ⟨_, -, heq⟩ := bind_eq_ok hrest
        cases heq
        exact ⟨v, Json.under_eq_ok he⟩
      · exact ih h

theorem decodeName_eq_ok {v : Json} {d : Json.Decoder Event} {index : Nat}
    (h : Json.under index decodeName v = .ok d) : ∃ tag, (tag, d) ∈ payloadDecoders :=
  Json.variant_eq_ok (Json.under_eq_ok h)

theorem readName_proper {content : Json} {members : Members} {e : Event}
    (h : readName content members = .ok e) : e.IsProper := by
  induction members with
  | nil => cases h
  | cons m members ih =>
    obtain ⟨i, k, v⟩ := m
    rw [readName] at h
    split at h
    · cases h
    · split at h
      · obtain ⟨d, hname, hrest⟩ := bind_eq_ok h
        obtain ⟨tag, hd⟩ := decodeName_eq_ok hname
        split at hrest
        · cases hrest
        · next he =>
          obtain ⟨_, -, heq⟩ := bind_eq_ok hrest
          cases heq
          exact isProper_of_payload hd he
      · exact ih h

theorem ofMembers_proper {members : Members} {e : Event} (h : ofMembers members = .ok e) :
    e.IsProper := by
  induction members with
  | nil => cases h
  | cons m members ih =>
    obtain ⟨i, k, v⟩ := m
    rw [ofMembers] at h
    split at h
    · obtain ⟨d, hname, hpayload⟩ := bind_eq_ok h
      obtain ⟨tag, hd⟩ := decodeName_eq_ok hname
      obtain ⟨content, hcontent⟩ := readPayload_eq_ok hpayload
      exact isProper_of_payload hd hcontent
    · split at h
      · exact readName_proper h
      · exact ih h

/-- **What is decoded is proper.** -/
theorem decode_proper {v : Json} {e : Event} (h : decode v = .ok e) : e.IsProper := by
  cases v with
  | obj members => exact ofMembers_proper h
  | arr items =>
    obtain ⟨d, hname, h⟩ := bind_eq_ok h
    obtain ⟨_, hname⟩ := Json.item_eq_ok hname
    obtain ⟨tag, hd⟩ := Json.variant_eq_ok hname
    obtain ⟨e', he, h⟩ := bind_eq_ok h
    obtain ⟨content, hcontent⟩ := Json.item_eq_ok he
    obtain ⟨_, -, heq⟩ := bind_eq_ok h
    cases heq
    exact isProper_of_payload hd hcontent
  | _ => cases h

end Event

/-! ## Envelopes and lines -/

namespace Envelope

theorem decode_ok {members : List (String × Json)} {subject : String} {e : Event}
    (hsubject : subjectOf (Event.number 0 members) none = .ok (some subject))
    (hevent : Event.ofMembers ((Event.number 0 members).filter fun (_, k, _) => k ≠ "subject") =
      .ok e) : decode (.obj members) = .ok ⟨subject, e⟩ := by
  rw [decode, Json.recordOfMembers]
  dsimp only
  rw [hsubject, hevent]
  rfl

theorem decode_toJson {e : Envelope} (h : e.event.IsProper) : decode e.toJson = .ok e := by
  obtain ⟨d, hd, hcontent, -⟩ := h.isDecoded
  exact decode_ok rfl (Event.ofMembers_ok hd hcontent 1 2)

theorem decode_canonical {e : Envelope} (h : e.event.IsProper) :
    decode e.toJson.canonical = .ok e := by
  obtain ⟨d, hd, -, hcontent⟩ := h.isDecoded
  exact decode_ok rfl (Event.ofMembers_ok hd hcontent 0 1)

theorem decode_line (timestamp : String) {e : Envelope} (h : e.event.IsProper) :
    decode (Journal.line timestamp e) = .ok e := by
  obtain ⟨d, hd, -, hcontent⟩ := h.isDecoded
  rw [Journal.line, e.event.name_eq_tag]
  exact decode_ok rfl (Event.ofMembers_ok hd hcontent 2 3)

/-- The line of a journal is the envelope with a time stamp. -/
theorem canonical_line (timestamp : String) (e : Envelope) : ∃ members,
    e.toJson.canonical = .obj members ∧
      (Journal.line timestamp e).canonical =
        .obj (Fields.put members "timestamp" (.str timestamp)) := by
  have hpayload : e.event.payload.canonical = e.event.content.canonical :=
    Json.isCanonical_canonical e.event.content
  have hline : (Journal.line timestamp e).canonical =
      .obj [("event", .str e.event.name), ("payload", e.event.payload.canonical),
        ("subject", .str e.subject), ("timestamp", .str timestamp)] := rfl
  rw [hline, hpayload, e.event.name_eq_tag]
  exact ⟨_, rfl, rfl⟩

/-- **Events come back.** An event is decoded from what it is encoded as, and so is an envelope, in
the order in which they are written and in canonical form. The encoded event carries the name and
the payload that journals write, and a line of a journal carries the envelope. -/
theorem comes_back (timestamp : String) (e : Envelope) (h : e.event.IsProper) :
    (Event.decode e.event.toJson = .ok e.event ∧
      Event.decode e.event.toJson.canonical = .ok e.event) ∧
    (decode e.toJson = .ok e ∧ decode e.toJson.canonical = .ok e) ∧
    (e.event.toJson.canonical.member? "event" = some (.str e.event.name) ∧
      e.event.toJson.canonical.member? "payload" = some e.event.payload) ∧
    (e.toJson.canonical.member? "event" = some (.str e.event.name) ∧
      e.toJson.canonical.member? "payload" = some e.event.payload) ∧
    decode (Journal.line timestamp e) = .ok e ∧
    ∃ members, e.toJson.canonical = .obj members ∧
      (Journal.line timestamp e).canonical =
        .obj (Fields.put members "timestamp" (.str timestamp)) := by
  refine ⟨⟨Event.decode_toJson h, Event.decode_canonical h⟩,
    ⟨decode_toJson h, decode_canonical h⟩, ?_, ?_, decode_line timestamp h,
    canonical_line timestamp e⟩
  · rw [e.event.name_eq_tag]
    exact ⟨rfl, rfl⟩
  · rw [e.event.name_eq_tag]
    exact ⟨rfl, rfl⟩

/-- What greets a watcher of a run that has a variable. -/
def greeting : Envelope :=
  ⟨"run-1", .executionState "run-1" (some "a") (Vars.empty.set "User Name" (.str "Ada"))⟩

theorem greeting_comes_back : greeting.event.IsProper ∧
    Event.decode greeting.event.toJson.canonical = .ok greeting.event ∧
    decode (Journal.line "2026-01-01T00:00:00+00:00" greeting) = .ok greeting :=
  have hproper : greeting.event.IsProper := Vars.isKept_empty.set "User Name" rfl
  have hback := comes_back "2026-01-01T00:00:00+00:00" greeting hproper
  ⟨hproper, hback.1.2, hback.2.2.2.2.1⟩

end Envelope

end Workflow
