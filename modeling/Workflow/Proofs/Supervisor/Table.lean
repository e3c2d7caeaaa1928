import Workflow.Supervisor.Table

/-!
# The table of runs, record by record

A table is looked at here through `find?`: what each operation does to the record of one
run. `RunTable.Tidy` is what all operations keep: the ids are in order, and every record
stands under its own id.

`RunTable.Lone` says that no project has two active runs. It is what allows a supervisor
to speak of *the* active run of a project (`Lone.length_active_le_one`).
-/

namespace Workflow

/-- A status is not both active and over. -/
theorem RunStatus.isActive_of_isTerminal {s : RunStatus} (h : s.isTerminal = true) :
    s.isActive = false := by
  cases s <;> first | rfl | cases h

theorem RunStatus.isTerminal_recovered (s : RunStatus) : s.recovered.isTerminal = true := by
  cases s <;> rfl

/-- Runs that are read back are over. -/
theorem Registry.load_over {path : String} {file : Stored} {records : List RunRecord}
    (h : Registry.load path file = .ok records) : ∀ r ∈ records, r.status.isTerminal = true := by
  intro r hr
  cases file with
  | absent =>
    cases h
    cases hr
  | directory | binary => cases h
  | text content =>
    rw [Registry.load, Registry.read] at h
    split at h
    · cases h
      cases hr
    · split at h
      · cases h
        obtain ⟨r', -, rfl⟩ := List.mem_map.mp hr
        have hpersisted : (Registry.recovered r').status = r'.status.recovered := by
          rw [Registry.recovered, RunRecord.persisted]
          split <;> rfl
        rw [hpersisted]
        exact RunStatus.isTerminal_recovered _
      · cases h

namespace RunTable

/-- The ids are in order, and every record stands under its own id. -/
structure Tidy (t : RunTable) : Prop where
  /-- the ids are in order -/
  sorted : t.Sorted
  /-- records stand under their ids -/
  named : ∀ {id : String} {h : Handle}, t.find? id = some h → h.record.runId = id

/-! ## Looking -/

theorem mem_records_of_find? {t : RunTable} {id : String} {h : Handle}
    (hf : t.find? id = some h) : h.record ∈ t.records :=
  List.mem_map.mpr ⟨(id, h), Fields.mem_of_find? hf, rfl⟩

theorem Tidy.find?_of_mem {t : RunTable} (ht : t.Tidy) {r : RunRecord} (hr : r ∈ t.records) :
    ∃ h, t.find? r.runId = some h ∧ h.record = r := by
  obtain ⟨⟨id, h⟩, hmem, rfl⟩ := List.mem_map.mp hr
  have hf := ht.sorted.find?_of_mem hmem
  refine ⟨h, ?_, rfl⟩
  rw [ht.named hf]
  exact hf

theorem Tidy.ids {t : RunTable} (ht : t.Tidy) : t.records.map (·.runId) = Fields.names t := by
  rw [records, List.map_map]
  refine List.map_congr_left fun x hx => ?_
  exact ht.named (ht.sorted.find?_of_mem hx)

/-- Where no active run is found, there is none. -/
theorem active?_none {t : RunTable} {project id : String} {h : Handle}
    (hnone : t.active? project = none) (hf : t.find? id = some h)
    (hp : h.record.projectId = project) : h.record.status.isActive = false := by
  have hnot := List.find?_eq_none.mp hnone h.record (mem_records_of_find? hf)
  simpa [hp] using hnot

/-- What is looked up is a record of the table. -/
theorem lookup_mem {t : RunTable} {id : String} {r : RunRecord} (h : t.lookup id = some r) :
    r ∈ t.records := by
  rw [lookup] at h
  split at h
  · next handle hf =>
    cases h
    exact mem_records_of_find? hf
  · -- the best so far is always one of the row
    revert h
    refine List.foldlRecOn (motive := fun best => best = some r → r ∈ t.records) _ _ nofun
      fun best hbest r' hr' hsome => ?_
    have hmem : r' ∈ t.records := (List.mem_filter.mp hr').1
    cases best with
    | none =>
      cases hsome
      exact hmem
    | some b =>
      dsimp only at hsome
      split at hsome
      · exact hbest hsome
      · cases hsome
        exact hmem

/-- Who is told where a run stands is told the status of its record. -/
theorem Tidy.find?_of_greeting {t : RunTable} (ht : t.Tidy) {subject run : String}
    {status : RunStatus} (h : .currentStatus (some run) (some status) ∈ t.greeting subject) :
    ∃ handle, t.find? run = some handle ∧ handle.record.status = status := by
  rw [greeting] at h
  split at h
  · next r hlookup =>
    obtain ⟨handle, hf, hr⟩ := ht.find?_of_mem (lookup_mem hlookup)
    rcases List.mem_cons.mp h with heq | hmem
    · cases heq
      exact ⟨handle, hf, congrArg _ hr⟩
    · split at hmem
      · cases List.mem_singleton.mp hmem
      · cases hmem
  · cases List.mem_singleton.mp h

/-! ## Forgetting -/

theorem Tidy.erase {t : RunTable} (ht : t.Tidy) (id : String) : Tidy (Fields.erase t id) where
  sorted := ht.sorted.erase id
  named := by
    intro other h hf
    rw [Fields.find?_erase] at hf
    split at hf
    · cases hf
    · exact ht.named hf

/-- What forgetting many runs does to one. -/
theorem find?_eraseAll (rs : List RunRecord) (t : RunTable) (id : String) :
    (rs.foldl (fun t r => Fields.erase t r.runId) t).find? id =
      if ∃ r ∈ rs, r.runId = id then none else t.find? id :=
  Fields.find?_foldl_erase RunRecord.runId rs t id

theorem Tidy.prune {t : RunTable} (ht : t.Tidy) (project : String) (keep : Nat) :
    Tidy (t.prune project keep) := by
  unfold RunTable.prune
  generalize t.excess project keep = rs
  induction rs generalizing t with
  | nil => exact ht
  | cons r rest ih => exact ih (ht.erase r.runId)

/-- A run that is pruned is a run of the project, and over. -/
theorem Tidy.find?_prune {t : RunTable} (ht : t.Tidy) (project : String) (keep : Nat)
    (id : String) :
    (t.prune project keep).find? id = t.find? id ∨
      ∃ h, t.find? id = some h ∧ h.record.projectId = project ∧
        h.record.status.isTerminal = true ∧ (t.prune project keep).find? id = none := by
  rw [RunTable.prune, find?_eraseAll]
  split
  · next hex =>
    obtain ⟨r, hr, rfl⟩ := hex
    -- pruned records are taken from those of the project that are over, however sorted
    have hended := (List.mergeSort_perm _ _).mem_iff.mp (List.mem_of_mem_take hr)
    obtain ⟨hmem, hp⟩ := List.mem_filter.mp hended
    rw [Bool.and_eq_true] at hp
    obtain ⟨h, hf, rfl⟩ := ht.find?_of_mem hmem
    exact Or.inr ⟨h, hf, of_decide_eq_true hp.1, hp.2, rfl⟩
  · exact Or.inl rfl

/-! ## Coming -/

theorem Tidy.put {t : RunTable} (ht : t.Tidy) {id : String} {h : Handle}
    (hn : h.record.runId = id) : Tidy (Fields.put t id h) where
  sorted := ht.sorted.put id h
  named := by
    intro other h' hf
    rw [Fields.find?_put] at hf
    split at hf
    · next heq =>
      obtain rfl := Option.some.inj hf
      rw [hn, heq]
    · exact ht.named hf

theorem Tidy.enlist {t : RunTable} (ht : t.Tidy) (keep : Nat) (r : RunRecord) :
    Tidy (t.enlist keep r) :=
  (ht.prune r.projectId keep).put rfl

theorem find?_enlist (t : RunTable) (keep : Nat) (r : RunRecord) (id : String) :
    (t.enlist keep r).find? id =
      if r.runId = id then some { record := r, isOwn := true, listens := true }
      else (t.prune r.projectId keep).find? id :=
  Fields.find?_put ..

theorem Tidy.restore {t : RunTable} (ht : t.Tidy) (rs : List RunRecord) : Tidy (t.restore rs) := by
  unfold RunTable.restore
  induction rs generalizing t with
  | nil => exact ht
  | cons r rest ih => exact ih (ht.put rfl)

/-- What taking up many runs does to one. -/
theorem find?_restore (t : RunTable) (rs : List RunRecord) (id : String) :
    (t.restore rs).find? id = t.find? id ∨
      ∃ r ∈ rs, r.runId = id ∧ (t.restore rs).find? id = some { record := r } := by
  unfold RunTable.restore
  induction rs generalizing t with
  | nil => exact Or.inl rfl
  | cons r rest ih =>
    rw [List.foldl_cons]
    rcases ih (Fields.put t r.runId { record := r }) with hkept | ⟨r', hr', hid, hf⟩
    · rw [hkept, Fields.find?_put]
      split
      · next heq => exact Or.inr ⟨r, List.mem_cons_self, heq, rfl⟩
      · exact Or.inl rfl
    · exact Or.inr ⟨r', List.mem_cons_of_mem _ hr', hid, hf⟩

/-! ## The course of a run -/

theorem noted_runId (r : RunRecord) (event : Event) : (noted r event).runId = r.runId := by
  cases event <;> rfl

theorem noted_projectId (r : RunRecord) (event : Event) :
    (noted r event).projectId = r.projectId := by
  cases event <;> rfl

theorem noted_status (r : RunRecord) (event : Event) :
    (noted r event).status = r.status := by
  cases event <;> rfl

/-- What settling makes of a record: whose it is stays, and it is over. -/
theorem settled_spec (r : RunRecord) (result : WalkResult) :
    (settled r result).1.runId = r.runId ∧
      (settled r result).1.projectId = r.projectId ∧
      (settled r result).1.status.isActive = false := by
  cases result with
  | broken => exact ⟨rfl, rfl, rfl⟩
  | report report =>
    simp only [settled]
    split
    · next hs => exact ⟨rfl, rfl, by rw [hs]; rfl⟩
    · cases report.ending <;> exact ⟨rfl, rfl, rfl⟩

/-- What settling makes of a record is over. -/
theorem isTerminal_settled (r : RunRecord) (result : WalkResult) :
    (settled r result).1.status.isTerminal = true := by
  cases result with
  | broken => rfl
  | report report =>
    simp only [settled]
    split
    · next hs =>
      rw [hs]
      rfl
    · cases report.ending <;> rfl

theorem Tidy.observe {t : RunTable} (ht : t.Tidy) (id : String) (event : Event)
    (clock : Instant) : Tidy (t.observe id event clock).2 := by
  unfold RunTable.observe
  split
  · next h hf => exact ht.put ((noted_runId ..).trans (ht.named hf))
  · exact ht

theorem Tidy.beat {t : RunTable} (ht : t.Tidy) (id : String) (clock : Instant) :
    Tidy (t.beat id clock).2 := by
  unfold RunTable.beat
  split
  · next h hf =>
    split
    · have hid := ht.named hf
      exact ht.put hid
    · exact ht
  · exact ht

/-! ## One active run -/

/-- No project has two active runs. -/
def Lone (t : RunTable) : Prop :=
  ∀ id id' h h', t.find? id = some h → t.find? id' = some h' →
    h.record.status.isActive = true → h'.record.status.isActive = true →
    h.record.projectId = h'.record.projectId → id = id'

/-- A project has at most one active record. -/
theorem Lone.length_active_le_one {t : RunTable} (ht : t.Tidy) (hl : t.Lone) (project : String) :
    (t.records.filter fun r => r.projectId = project && r.status.isActive).length ≤ 1 := by
  have hids : (t.records.map (·.runId)).Nodup := by
    rw [ht.ids]
    exact ht.sorted.nodup
  have hsame : ∀ r ∈ t.records.filter (fun r => r.projectId = project && r.status.isActive),
      ∀ r' ∈ t.records.filter (fun r => r.projectId = project && r.status.isActive),
        r.runId = r'.runId := by
    intro r hr r' hr'
    obtain ⟨hmem, hp⟩ := List.mem_filter.mp hr
    obtain ⟨hmem', hp'⟩ := List.mem_filter.mp hr'
    rw [Bool.and_eq_true] at hp hp'
    obtain ⟨h, hf, rfl⟩ := ht.find?_of_mem hmem
    obtain ⟨h', hf', rfl⟩ := ht.find?_of_mem hmem'
    exact hl _ _ h h' hf hf' hp.2 hp'.2
      ((of_decide_eq_true hp.1).trans (of_decide_eq_true hp'.1).symm)
  have hnodup : ((t.records.filter fun r => r.projectId = project && r.status.isActive).map
      (·.runId)).Nodup :=
    List.Nodup.sublist (List.Sublist.map _ List.filter_sublist) hids
  generalize t.records.filter _ = rs at hsame hnodup ⊢
  match rs with
  | [] => exact Nat.zero_le 1
  | [_] => exact Nat.le_refl 1
  | r :: r' :: rest =>
    have heq := hsame r List.mem_cons_self r' (List.mem_cons_of_mem _ List.mem_cons_self)
    rw [List.map_cons, List.map_cons, heq] at hnodup
    exact absurd List.mem_cons_self (List.nodup_cons.mp hnodup).1

end RunTable

end Workflow
