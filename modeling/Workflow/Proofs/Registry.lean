import Workflow.Proofs.Disk
import Workflow.Proofs.Run.Record

/-!
# The registry read back

A table of runs that is saved and loaded comes back in the same order, with every run at rest: no
interpreter is behind it, and it has neither variables nor a graph (`Registry.load_saved`). What is
loaded is saved and loaded without any further change.

Active runs are written with their variables and their graph. The reader has to get through them,
although it throws them away afterwards; it does if they do not nest deeper than it goes, and
otherwise refuses the whole document (`Registry.read_write`, `Registry.read_deep`).
-/

namespace Workflow

/-! ## Records at rest -/

namespace RunRecord

/-- The record of a run that nobody is behind any more: a run that was not over is stopped, and
what only a going run needs is gone. -/
def rested (r : RunRecord) : RunRecord :=
  { r with
    status := match r.status with
      | .starting | .running | .stopping => .stopped
      | status => status
    vars := none, nodes := none, edges := none }

theorem rested_rested (r : RunRecord) : r.rested.rested = r.rested := by
  obtain ⟨_, _, status, _, _, _, _, _, _, _⟩ := r
  cases status <;> rfl

/-- A record at rest is not active. -/
theorem isActive_rested (r : RunRecord) : r.rested.status.isActive = false := by
  obtain ⟨_, _, status, _, _, _, _, _, _, _⟩ := r
  cases status <;> rfl

/-- A record without what only a going run needs. -/
def bare (r : RunRecord) : RunRecord := { r with vars := none, nodes := none, edges := none }

theorem bare_persisted (r : RunRecord) : r.persisted.bare = r.bare := by
  rw [persisted]
  split <;> rfl

/-- What is recovered is at rest, and of a record without variables and graph it is the same. -/
theorem recovered_eq (r : RunRecord) : Registry.recovered r = r.bare.rested := by
  obtain ⟨_, _, status, _, _, _, _, _, _, _⟩ := r
  cases status <;> rfl

/-- The members of a record that is not active do not nest. -/
theorem depth_persisted {r : RunRecord} (h : r.status.isActive = false) :
    r.persisted.toJson.depth = 1 := by
  rw [persisted, h, if_neg Bool.false_ne_true, toJson, Json.depth]
  simp only [Json.depthMembers_append]
  have hnode : (Json.orNull .str r.currentNode).depth = 0 := by cases r.currentNode <;> rfl
  have hmessage : Json.depthMembers (optionalMember "message" .str r.message) = 0 := by
    cases r.message <;> rfl
  have hnone {α : Type} (name : String) (f : α → Json) : optionalMember name f none = [] := rfl
  simp [Json.depthMembers, Json.depth, hnode, hmessage, hnone, RunStatus.toJson, Instant.toJson]

end RunRecord

/-! ## Documents -/

namespace Registry

open RunRecord (bare rested)

variable {records : List RunRecord}

/-- Whether the reader gets through what the active runs hold. The document, the list of runs and
the record itself nest as well. -/
def Readable (records : List RunRecord) : Prop :=
  ∀ r ∈ records, r.status.isActive → r.toJson.depth + 2 ≤ Json.depthLimit

instance (records : List RunRecord) : Decidable (Readable records) := by
  unfold Readable
  infer_instance

theorem depth_toJson_le {n : Nat} :
    (toJson records).depth ≤ n + 2 ↔ ∀ r ∈ records, r.persisted.toJson.depth ≤ n := by
  change max (Json.depthItems _ + 1) 0 + 1 ≤ n + 1 + 1 ↔ _
  rw [Nat.max_zero, Nat.add_le_add_iff_right, Nat.add_le_add_iff_right, Json.depthItems_le,
    List.forall_mem_map]

/-- The reader gets through the document if it gets through what the active runs hold. -/
theorem depth_le_depthLimit : (toJson records).depth ≤ Json.depthLimit ↔ Readable records := by
  refine depth_toJson_le.trans (forall₂_congr fun r _ => ?_)
  cases ha : r.status.isActive with
  | false =>
    rw [RunRecord.depth_persisted ha]
    exact iff_of_true (by decide) nofun
  | true =>
    rw [RunRecord.persisted, ha, if_pos rfl]
    exact ⟨fun h _ => Nat.add_le_add_right h 2, fun h => Nat.le_of_add_le_add_right (h rfl)⟩

theorem isBlankText_write (records : List RunRecord) :
    Text.isBlankText (write records) = false := by
  rw [Text.isBlankText, write, Json.indented, String.toList_ofList]
  rfl

/-- What is read of a document is decoded, record by record. -/
theorem decode_reread (h : ∀ r ∈ records, r.IsProper) :
    ∃ rs, decode (toJson records).reread = .ok rs ∧ rs.map bare = records.map bare := by
  obtain ⟨rs, hrs, hsame⟩ := Json.list_ok (d := RunRecord.decode)
    (f := fun r => RunRecord.toJson (RunRecord.persisted r)) (p := bare) (q := bare) records
    fun r hr => by
      obtain ⟨hstarted, hheartbeat⟩ := (h r hr).persisted
      obtain ⟨_, _, _, hdecode⟩ := RunRecord.decode_reread hstarted hheartbeat
      exact ⟨_, hdecode, r.bare_persisted⟩
  refine ⟨rs, ?_, hsame⟩
  change (Json.foldMembers takeRuns 0 [("runs", _)] none >>= _) = _
  have htake : takeRuns none 0 "runs" _ = .ok (some rs) := Json.fill_ok hrs "runs" 0
  rw [Json.foldMembers_cons htake]
  rfl

/-- **The text of a document says what the table says**, but for variables and graphs, if the
reader gets through what the runs hold. -/
theorem decode_write (h : ∀ r ∈ records, r.IsProper) (hd : Readable records) :
    ∃ rs, Json.decodeText decode (write records).toList = .ok rs ∧
      rs.map bare = records.map bare := by
  obtain ⟨rs, hdecode, hsame⟩ := decode_reread h
  refine ⟨rs, ?_, hsame⟩
  rw [write, Json.indented, String.toList_ofList]
  exact Json.decodeText_written (depth_le_depthLimit.mpr hd) hdecode

/-- **A table that is read was put to rest**, if the reader gets through what its runs hold. -/
theorem read_write (path : String) (h : ∀ r ∈ records, r.IsProper) (hd : Readable records) :
    read path (write records) = .ok (records.map rested) := by
  obtain ⟨rs, htext, hsame⟩ := decode_write h hd
  have hrested : rs.map recovered = (records.map bare).map rested := by
    rw [← hsame, List.map_map]
    exact List.map_congr_left fun r _ => r.recovered_eq
  rw [read, isBlankText_write, if_neg Bool.false_ne_true, htext]
  exact congrArg Except.ok (hrested.trans (List.map_map ..))

/-- **A table that the reader does not get through is refused.** -/
theorem read_deep (path : String) (hd : ¬Readable records) :
    ∃ reason, read path (write records) = .error (.registry reason) := by
  have hdeep : Json.depthLimit < (toJson records).depth :=
    Nat.lt_of_not_le fun hle => hd (depth_le_depthLimit.mp hle)
  obtain ⟨e, hrefused⟩ := Json.decodeText_refused (d := decode) hdeep
  have htext : Json.decodeText decode (write records).toList = .error e := by
    rw [write, Json.indented, String.toList_ofList]
    exact hrefused
  exact ⟨_, by rw [read, isBlankText_write, if_neg Bool.false_ne_true, htext]⟩

/-! ## What is loaded -/

theorem takeRuns_proper {acc acc' : Option (List RunRecord)} {i : Nat} {name : String} {v : Json}
    (hacc : ∀ rs ∈ acc, ∀ r ∈ rs, r.IsProper) (h : takeRuns acc i name v = .ok acc') :
    ∀ rs ∈ acc', ∀ r ∈ rs, r.IsProper := by
  rw [takeRuns] at h
  split at h
  · obtain ⟨rs, rfl, hlist⟩ := Json.fill_eq_ok h
    rintro _ ⟨⟩ r hr
    obtain ⟨_, hdecode⟩ := Json.list_eq_ok hlist r hr
    exact RunRecord.decode_proper hdecode
  · cases h
    exact hacc

theorem decode_proper {v : Json} (h : decode v = .ok records) : ∀ r ∈ records, r.IsProper := by
  cases v with
  | obj members =>
    obtain ⟨runs, hfold, h⟩ := bind_eq_ok h
    have hruns := Json.foldMembers_keeps (P := fun acc => ∀ rs ∈ acc, ∀ r ∈ rs, r.IsProper)
      takeRuns_proper nofun hfold
    cases h
    cases runs with
    | none => exact List.forall_mem_nil _
    | some rs => exact hruns rs rfl
  | arr items =>
    obtain ⟨rs, hitem, h⟩ := bind_eq_ok h
    obtain ⟨_, -, h⟩ := bind_eq_ok h
    cases h
    rcases Json.itemOr_eq_ok hitem with rfl | ⟨_, hlist⟩
    · exact List.forall_mem_nil _
    · intro r hr
      obtain ⟨_, hdecode⟩ := Json.list_eq_ok hlist r hr
      exact RunRecord.decode_proper hdecode
  | _ => cases h

/-- **Whatever is loaded names moments in the calendar.** -/
theorem load_proper {path : String} {found : Stored} (h : load path found = .ok records) :
    ∀ r ∈ records, r.IsProper := by
  have hread (text : String) (h : read path text = .ok records) : ∀ r ∈ records, r.IsProper := by
    rw [read] at h
    split at h
    · cases h
      exact List.forall_mem_nil _
    · split at h
      · next hdecode =>
        cases h
        obtain ⟨_, hvalue⟩ := Json.decodeText_eq_ok hdecode
        refine List.forall_mem_map.mpr fun r hr => ?_
        obtain ⟨hstarted, hheartbeat⟩ := decode_proper hvalue r hr
        exact RunRecord.IsProper.persisted ⟨hstarted, hheartbeat⟩
      · cases h
  cases found with
  | absent =>
    cases h
    exact List.forall_mem_nil _
  | text content => exact hread content h
  | directory | binary => cases h

/-! ## Saving and loading -/

theorem readable_rested (records : List RunRecord) : Readable (records.map rested) := by
  refine List.forall_mem_map.mpr fun r _ ha => ?_
  rw [RunRecord.isActive_rested] at ha
  cases ha

/-- **A table that is saved and loaded is the table at rest**, whose runs are those that were saved
in the same order, and saving and loading it again is possible and changes nothing. -/
theorem load_saved {d d' : Disk} {path : String} (h : ∀ r ∈ records, r.IsProper)
    (hd : Readable records) (hsaved : d.applyAll (saving path records) = .ok d') :
    load path (d'.look path) = .ok (records.map rested) ∧
      ∃ d₂, d'.applyAll (saving path (records.map rested)) = .ok d₂ ∧
        load path (d₂.look path) = .ok (records.map rested) := by
  have hrest : ∀ r ∈ records.map rested, r.IsProper :=
    List.forall_mem_map.mpr fun r hr => ⟨(h r hr).startedAt, (h r hr).lastHeartbeat⟩
  have htwice : (records.map rested).map rested = records.map rested := by
    rw [List.map_map]
    exact List.map_congr_left fun r _ => r.rested_rested
  obtain ⟨hlook, hagain⟩ := Disk.replaced hsaved
  obtain ⟨d₂, hsaved₂⟩ := hagain (write (records.map rested))
  obtain ⟨hlook₂, -⟩ := Disk.replaced hsaved₂
  refine ⟨?_, d₂, hsaved₂, ?_⟩
  · rw [hlook]
    exact read_write path h hd
  · rw [hlook₂]
    exact (read_write path hrest (readable_rested records)).trans (congrArg Except.ok htwice)

/-- A table with a run that was going on since a leap second and one that failed. -/
def sample : List RunRecord :=
  [{ runId := "1", projectId := "p", status := .running
     startedAt := ⟨2016, 12, 31, 23, 59, 59, 1500000000⟩
     lastHeartbeat := ⟨2017, 1, 1, 0, 0, 0, 0⟩
     currentNode := some "a", vars := some ⟨[("x", .arr [.int 1, .null])]⟩
     nodes := some [{ id := "a" }], edges := some [] },
   { runId := "2", projectId := "q", status := .error
     startedAt := ⟨2024, 2, 29, 12, 0, 0, 1⟩
     lastHeartbeat := ⟨2024, 2, 29, 12, 0, 1, 1000⟩
     message := some "no \"script\"" }]

theorem sample_proper : ∀ r ∈ sample, r.IsProper := by
  refine List.forall_mem_cons.mpr ⟨⟨by decide, by decide⟩, List.forall_mem_singleton.mpr ?_⟩
  exact ⟨by decide, by decide⟩

theorem sample_saved :
    ∃ d : Disk, ({} : Disk).applyAll (saving "data/runs.json" sample) = .ok d := by
  have hsaved : (({} : Disk).applyAll (saving "data/runs.json" sample)).isOk = true := by
    decide +kernel
  cases h : ({} : Disk).applyAll (saving "data/runs.json" sample) with
  | error e =>
    rw [h] at hsaved
    cases hsaved
  | ok d => exact ⟨d, rfl⟩

theorem load_sample : ∃ d : Disk, ({} : Disk).applyAll (saving "data/runs.json" sample) = .ok d ∧
    load "data/runs.json" (d.look "data/runs.json") = .ok (sample.map rested) ∧
    ∃ d₂, d.applyAll (saving "data/runs.json" (sample.map rested)) = .ok d₂ ∧
      load "data/runs.json" (d₂.look "data/runs.json") = .ok (sample.map rested) := by
  obtain ⟨d, hsaved⟩ := sample_saved
  exact ⟨d, hsaved, load_saved sample_proper (by decide +kernel) hsaved⟩

end Registry

end Workflow
