import Workflow.Proofs.Engine.Order
import Workflow.Proofs.Engine.Saving

/-!
# Who is enlisted

Wherever an engine roams, and whenever the registry is read back on the way: every active run was
enlisted here, under a name that was due and is given to no other run, and no project has two of
them (`Enlisted`). So an active run comes of its enlisting alone (`Enlisted.origin`), and it stays
active until it is stopped, settled or replaced by what was read from disk (`Enlisted.stays`).
-/

namespace Workflow.Engine

open Engine.Job

/-- What a run runs stays. -/
theorem Change.graph {run : String} {job : Job} {h h' : Handle} (hc : Change run job h h') :
    h'.record.nodes = h.record.nodes ∧ h'.record.edges = h.record.edges := by
  cases hc with
  | stopped => exact ⟨rfl, rfl⟩
  | noted project h event clock => cases event <;> exact ⟨rfl, rfl⟩
  | beaten => exact ⟨rfl, rfl⟩
  | settled project h w clock =>
    unfold settledAt RunTable.settled
    split
    · exact ⟨rfl, rfl⟩
    · dsimp only
      split
      · exact ⟨rfl, rfl⟩
      · split <;> exact ⟨rfl, rfl⟩

/-- What is known of active runs: there is one for each project at most, and they were enlisted
here, under names that were due. -/
structure Enlisted (s : Settings) (e : Engine) : Prop where
  /-- tasks have numbers of their own -/
  numbered : e.Numbered
  /-- no project has two active runs -/
  single : e.Single
  /-- names are those that were due -/
  names : ∀ {project run}, (project, run) ∈ e.started →
    ∃ n, n ≤ e.startedOf project ∧ run = s.nameRun project n
  /-- active runs were given names -/
  known : ∀ {run h}, e.table.find? run = some h → h.record.status.isActive = true →
    (h.record.projectId, run) ∈ e.started

section Active

variable {s : Settings} {e e' e₁ : Engine} {job : Job} {next : List Job} {run : String} {h : Handle}

/-- **Where an active run comes from**: it was active before, of the same project and running the
same, or it was enlisted just now. -/
theorem Enlisted.origin (he : Enlisted s e) (hj : job ∈ e.pending)
    (hrun : job.run s e = some (next, e₁)) (hf : e₁.table.find? run = some h)
    (ha : h.record.status.isActive = true) :
    (∃ old, e.table.find? run = some old ∧ old.record.status.isActive = true ∧
        old.record.projectId = h.record.projectId ∧ old.record.nodes = h.record.nodes ∧
        old.record.edges = h.record.edges) ∨
      ∃ definition vars, job = .enrol h.record.projectId definition vars ∧
        run = e.newRun s h.record.projectId ∧ h.record.nodes = some definition.nodes ∧
        h.record.edges = some definition.edges := by
  have hfate := run_fate hrun he.single.tidy run
  rw [hf] at hfate
  generalize e.table.find? run = o at hfate ⊢
  cases hfate with
  | kept => exact Or.inl ⟨h, rfl, ha, rfl, rfl, rfl⟩
  | born hjob hr => exact Or.inr ⟨_, _, hjob, hr, rfl, rfl⟩
  | changed hc =>
    obtain ⟨hnodes, hedges⟩ := hc.graph
    exact Or.inl ⟨_, rfl, hc.isActive ha, hc.projectId.symm, hnodes.symm, hedges.symm⟩
  | restored hjob hr =>
    have hnot := he.single.rested_job hj hjob _ hr
    exact nomatch ha.symm.trans hnot

theorem Enlisted.step (he : Enlisted s e) {d : Deed} (hd : e.roam s d = some e') :
    Enlisted s e' := by
  have hn := he.numbered
  cases roam_cases hn hd with
  | asked c => exact ⟨ask_numbered hn _, single_ask he.single c, he.names, he.known⟩
  | @worked id job rest next reply e₁ ht hrun =>
    refine ⟨setTask_numbered (run_numbered hn hrun) (task?_run ht hrun) _,
      single_work hn he.single ht hrun, names_run hrun he.names, fun {run h} hf ha => ?_⟩
    rcases he.origin (mem_pending ht List.mem_cons_self) hrun hf ha with
      ⟨old, hold, hactive, hp, -⟩ | ⟨definition, vars, rfl, rfl, -⟩
    · rw [← hp]
      exact started_mono hrun _ (he.known hold hactive)
    · exact started_enrol hrun ▸ List.mem_cons_self
  | still _ hstill =>
    refine ⟨hstill.numbered, ?_, ?_, ?_⟩
    · constructor
      · rw [hstill.table]
        exact he.single.tidy
      · rw [hstill.table]
        exact he.single.lone
      · rw [hstill.pending, hstill.isStarting]
        exact he.single.lock
      · rw [hstill.pending, hstill.table]
        exact he.single.free
      · rw [hstill.pending]
        exact he.single.rested
    · intro project run hmem
      rw [hstill.started] at hmem
      rw [startedOf, hstill.started]
      exact he.names hmem
    · rw [hstill.table, hstill.started]
      exact he.known

theorem enlisted_fresh (s : Settings) (file : Stored) (source : Option (Option (Fields String)))
    (buffer busCapacity : Nat) : Enlisted s (fresh file source buffer busCapacity) where
  numbered := fresh_numbered file source buffer busCapacity
  single := single_fresh file source buffer busCapacity
  names := fun hmem => by cases hmem
  known := fun hf => by cases hf

theorem Enlisted.roams (he : Enlisted s e) {l : List Moment} (hr : Roams s e l e') :
    Enlisted s e' := by
  induction hr with
  | nil => exact he
  | snoc _ hd ih => exact ih.step hd

theorem Roams.enlisted {file : Stored} {source : Option (Option (Fields String))}
    {buffer busCapacity : Nat} {l : List Moment}
    (hr : Roams s (fresh file source buffer busCapacity) l e) : Enlisted s e :=
  (enlisted_fresh s file source buffer busCapacity).roams hr

/-- The next name of a project is new. -/
theorem Enlisted.newRun_fresh (he : Enlisted s e) (hs : NamesApart s) (project : String) :
    ¬ e.Named (e.newRun s project) := by
  rintro ⟨project', hmem⟩
  obtain ⟨n, hn, heq⟩ := he.names hmem
  obtain ⟨rfl, rfl⟩ := hs _ _ _ _ heq
  omega

/-- The next name of a project is not that of an active run. -/
theorem Enlisted.newRun_ne (he : Enlisted s e) (hs : NamesApart s)
    (hf : e.table.find? run = some h) (ha : h.record.status.isActive = true) (project : String) :
    run ≠ e.newRun s project := by
  rintro rfl
  exact he.newRun_fresh hs project ⟨_, he.known hf ha⟩

/-- The active run that is found for a project is the one it has. -/
theorem Enlisted.active?_eq (he : Enlisted s e) (hf : e.table.find? run = some h)
    (ha : h.record.status.isActive = true) :
    e.table.active? h.record.projectId = some h.record := by
  cases hr : e.table.active? h.record.projectId with
  | none =>
    have hnot := RunTable.active?_none hr hf rfl
    exact nomatch ha.symm.trans hnot
  | some r =>
    have hfound := List.find?_some hr
    rw [Bool.and_eq_true, decide_eq_true_eq] at hfound
    obtain ⟨h', hf', rfl⟩ := he.single.tidy.find?_of_mem (List.mem_of_find?_eq_some hr)
    have hid := he.single.lone _ _ h h' hf hf' ha hfound.2 hfound.1.symm
    rw [← hid] at hf'
    cases hf.symm.trans hf'
    rfl

/-- A project for which a run is found has an active run. -/
theorem Enlisted.of_active? (he : Enlisted s e) {project : String} {r : RunRecord}
    (hr : e.table.active? project = some r) :
    ∃ h, e.table.find? r.runId = some h ∧ h.record = r ∧ r.projectId = project ∧
      r.status.isActive = true := by
  have hfound := List.find?_some hr
  rw [Bool.and_eq_true, decide_eq_true_eq] at hfound
  obtain ⟨h, hf, heq⟩ := he.single.tidy.find?_of_mem (List.mem_of_find?_eq_some hr)
  exact ⟨h, hf, heq, hfound.1, hfound.2⟩

/-- **What keeps a run active**: every job but those that stop it, settle it or take up runs from
disk. -/
theorem Enlisted.stays (he : Enlisted s e) (hs : NamesApart s)
    (hrun : job.run s e = some (next, e₁)) (hf : e.table.find? run = some h)
    (ha : h.record.status.isActive = true) (hstop : job ≠ .stop run)
    (hsettle : ∀ project, job ≠ .settle project run)
    (hrestore : ∀ records, job ≠ .restore records) :
    ∃ h', e₁.table.find? run = some h' ∧ h'.record.status.isActive = true ∧
      h'.record.projectId = h.record.projectId := by
  have hfate := run_fate hrun he.single.tidy run
  rw [hf] at hfate
  generalize e₁.table.find? run = o at hfate ⊢
  cases hfate with
  | kept => exact ⟨h, rfl, ha, rfl⟩
  | born _ hr => exact absurd hr (he.newRun_ne hs hf ha _)
  | pruned _ hover =>
    have hnot := RunStatus.isActive_of_isTerminal hover
    exact nomatch ha.symm.trans hnot
  | changed hc =>
    refine ⟨_, rfl, ?_, hc.projectId⟩
    cases hc with
    | stopped => exact absurd rfl hstop
    | noted project h event clock =>
      rw [RunTable.noted_status]
      exact ha
    | beaten => exact ha
    | settled project => exact absurd rfl (hsettle project)
  | removed _ hnot => exact nomatch ha.symm.trans hnot
  | restored hjob => exact absurd hjob (hrestore _)

/-- A run that is stopped is not active. -/
theorem stop_inactive (hrun : (Job.stop run).run s e = some (next, e₁))
    (hf : e₁.table.find? run = some h) : h.record.status.isActive = false := by
  cases run_cases hrun with
  | aside ha => cases ha
  | notStopped _ _ hnot => exact hnot h hf
  | stopped =>
    have hput : (Fields.put e.table run _).find? run = some h := hf
    rw [Fields.find?_put_self] at hput
    cases hput
    rfl

end Active

end Workflow.Engine
