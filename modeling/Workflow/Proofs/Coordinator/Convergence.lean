import Workflow.Proofs.Coordinator.Tending

/-!
# Two passes are enough

Projects that are tended come to what is wanted of them within two passes, if nothing is asked for
meanwhile and no run comes to its end by itself (`Tended.converges`):

* the first pass stops the active runs that are not fit and starts the projects that have none, so
  that all active runs are fit after it (`View.Fit`, by the invariant `View.Trim`);
* the second pass then stops none, and starts the projects whose runs the first one stopped, so that
  every project that is to run has an active run (`View.Manned`, by the invariant `View.Staffed`);
* every further pass finds nothing to do (`View.Resting`).
-/

namespace Workflow.Engine

open Engine.Job

/-! ## Passes and nothing else -/

/-- Whether a moment goes by the way and no run comes to its end by itself. -/
def Moment.isPeaceful (m : Moment) : Bool :=
  m.deed.isByTheWay &&
    match m.job? with
    | some (.settle _ run) => !(m.before.table.find? run).any (·.record.status.isActive)
    | _ => true

/-- Going from one engine to another by so many passes, peacefully. -/
inductive Passes (s : Settings) (e : Engine) : Nat → Engine → Prop
  /-- nothing happens -/
  | nil : Passes s e 0 e
  /-- something goes by the way -/
  | meanwhile {n : Nat} {e₁ e₂ : Engine} {d : Deed} : Passes s e n e₁ →
      (⟨e₁, d⟩ : Moment).isPeaceful = true → e₁.roam s d = some e₂ → Passes s e n e₂
  /-- one more pass -/
  | pass {n : Nat} {e₁ e₂ : Engine} {l : List Moment} : Passes s e n e₁ →
      Serves s .pass e₁ l e₂ → (∀ m ∈ l, m.isPeaceful = true) → Passes s e (n + 1) e₂

theorem Moment.isPeaceful_aside {m : Moment} (h : m.isPeaceful = true) :
    m.deed.isByTheWay = true := (Bool.and_eq_true_iff.mp h).1

namespace View

/-- All active runs are what is wanted. -/
def Fit (v : View) : Prop :=
  ∀ {run h entry}, v.table.find? run = some h → h.record.status.isActive = true →
    v.projects.find? h.record.projectId = some entry → entry.IsFit

/-- A project has an active run. -/
def HasRun (v : View) (project : String) : Prop :=
  ∃ run h, v.table.find? run = some h ∧ h.record.status.isActive = true ∧
    h.record.projectId = project

/-- Every project that is to run has an active run. -/
def Manned (v : View) : Prop :=
  ∀ {id entry}, v.projects.find? id = some entry → entry.project.desired = .running → v.HasRun id

/-- A pass has not planned yet. -/
def Planning (v : View) : Prop :=
  v.steering.Perm [.loadProjects, .plan] ∨ v.steering = [.plan]

/-- It was noted that a project was started from its latest revision, or will be. -/
def Noted (v : View) (project : String) (entry : ProjectEntry) : Prop :=
  entry.started = some entry.revision ∨ .noteStarted project entry.revision ∈ v.steering

/-- Whether a job carries out what was planned. -/
def carriesOut : Job → Bool
  | .loadProjects | .beginStart .. | .findActive .. | .enrol .. | .stop _ | .stopActive _
  | .noteStarted .. => true
  | _ => false

/-- A pass has planned, and what it has not carried out yet trims all active runs. -/
structure Trim (v : View) : Prop where
  /-- only what was planned is left to steer -/
  planned : ∀ j ∈ v.steering, carriesOut j = true
  /-- an active run is fit, or it will be, or it is to be stopped -/
  fit : ∀ {run h entry}, v.table.find? run = some h → h.record.status.isActive = true →
    v.projects.find? h.record.projectId = some entry →
    entry.project.desired = .running ∧ v.Noted h.record.projectId entry ∨
      .stopActive h.record.projectId ∈ v.steering ∨ .stop run ∈ v.steering
  /-- a run that is to be started will be fit -/
  due : ∀ j ∈ v.steering, ∀ {project definition}, j.starts? = some (project, definition) →
    ∃ entry, v.projects.find? project = some entry ∧ entry.project.desired = .running ∧
      v.Noted project entry

/-- Whether a job stops runs. -/
def halts : Job → Bool
  | .stop _ | .stopActive _ => true
  | _ => false

/-- A pass has planned to stop nothing, and what it has not carried out yet gives every project that
is to run an active run. -/
structure Staffed (v : View) : Prop where
  /-- what was planned trims all active runs -/
  trim : v.Trim
  /-- nothing is to be stopped -/
  calm : ∀ j ∈ v.steering, halts j = false
  /-- a project that is to run has an active run, or gets one -/
  staffed : ∀ {id entry}, v.projects.find? id = some entry → entry.project.desired = .running →
    v.HasRun id ∨ ∃ j ∈ v.steering, ∃ definition, j.starts? = some (id, definition)

/-- All is as it is wanted, and a pass finds nothing to do. -/
structure Resting (v : View) : Prop where
  /-- all active runs are what is wanted -/
  fit : v.Fit
  /-- every project that is to run has one -/
  manned : v.Manned
  /-- nothing but a pass is left to steer -/
  passing : ∀ j ∈ v.steering, j = .loadProjects ∨ j = .plan

theorem Planning.mem {v : View} (h : v.Planning) {j : Job} (hj : j ∈ v.steering) :
    j = .loadProjects ∨ j = .plan := by
  rcases h with hperm | heq
  · simpa using hperm.mem_iff.mp hj
  · rw [heq] at hj
    exact Or.inr (List.mem_singleton.mp hj)

theorem Planning.ne_nil {v : View} (h : v.Planning) : v.steering ≠ [] := by
  intro hnil
  rcases h with hperm | heq
  · rw [hnil] at hperm
    cases List.nil_perm.mp hperm
  · cases hnil.symm.trans heq

/-- What was carried out in full leaves all active runs fit. -/
theorem Trim.done {v : View} (h : v.Trim) (hidle : v.steering = []) : v.Fit := by
  intro run handle entry hf ha hp
  rcases h.fit hf ha hp with ⟨hd, hstarted | hmem⟩ | hstop | hstop
  · exact ⟨hd, hstarted⟩
  all_goals
    rw [hidle] at *
    contradiction

theorem Staffed.done {v : View} (h : v.Staffed) (hidle : v.steering = []) : v.Manned := by
  intro id entry hf hd
  rcases h.staffed hf hd with hruns | ⟨j, hj, -⟩
  · exact hruns
  · rw [hidle] at hj
    cases hj

end View

open View

/-! ## What a job does to the view -/

section Work

variable {s : Settings} {e e₁ : Engine} {id : Nat} {job : Job} {rest next : List Job}
  {reply reply' : Option Reply}

/-- In peace no active run is settled. -/
theorem Moment.isPeaceful_settle (ht : e.task? id = some ⟨job :: rest, reply⟩)
    (h : (⟨e, .work id⟩ : Moment).isPeaceful = true) {run : String} {handle : Handle}
    (hf : e.table.find? run = some handle) (ha : handle.record.status.isActive = true)
    (project : String) : job ≠ .settle project run := by
  rintro rfl
  rw [isPeaceful, job?_work ht, Bool.and_eq_true] at h
  have hnot := h.2
  dsimp only at hnot
  rw [hf, Option.any_some, ha] at hnot
  cases hnot

/-- In peace projects keep their runs, unless these are stopped or runs are taken up from disk. -/
theorem hasRun_work (he : Enlisted s e) (hs : NamesApart s) {project : String}
    (ht : e.task? id = some ⟨job :: rest, reply⟩) (h : job.run s e = some (next, e₁))
    (hpeace : (⟨e, .work id⟩ : Moment).isPeaceful = true) (hstop : ∀ run, job ≠ .stop run)
    (hrestore : ∀ records, job ≠ .restore records) (hruns : e.view.HasRun project) :
    (e₁.setTask id ⟨next ++ rest, reply'⟩).view.HasRun project := by
  obtain ⟨run, handle, hf, ha, rfl⟩ := hruns
  obtain ⟨handle', hf', ha', hproject⟩ := he.stays hs h hf ha (hstop run)
    (Moment.isPeaceful_settle ht hpeace hf ha) hrestore
  exact ⟨run, handle', hf', ha', hproject⟩

/-! ### Planning -/

theorem planning_ask (hidle : e.steering = []) : (e.ask Call.pass.jobs).view.Planning := by
  refine Or.inl (List.Perm.of_eq ?_)
  change (e.ask Call.pass.jobs).steering = _
  rw [steering, pending_ask, List.filter_append]
  change _ ++ e.steering = _
  rw [hidle]
  rfl

/-- A pass goes on until it plans. -/
theorem planning_work (hg : Governed s e) (hp : e.view.Planning)
    (ht : e.task? id = some ⟨job :: rest, reply⟩) (h : job.run s e = some (next, e₁))
    (hplan : job ≠ .plan) : (e₁.setTask id ⟨next ++ rest, reply'⟩).view.Planning := by
  have hn := hg.enlisted.numbered
  cases hsteers : job.steers with
  | false =>
    have hperm := steering_aside hn ht h reply' hsteers
    rcases hp with hload | hplan
    · exact Or.inl (hperm.trans hload)
    · rw [show e.steering = [.plan] from hplan] at hperm
      exact Or.inr (List.perm_singleton.mp hperm)
  | true =>
    have hjob := mem_steering.mpr ⟨mem_pending ht List.mem_cons_self, hsteers⟩
    obtain rfl := (hp.mem hjob).resolve_right hplan
    have hnext : next.filter Job.steers = [] := by
      refine List.filter_eq_nil_iff.mpr fun j hj hjs => ?_
      cases steers_next h hj hjs with
      | load _ hsome => exact hsome hg.source
    have hperm := steering_next hn ht h reply' hsteers
    rw [hnext, List.append_nil] at hperm
    rcases hp with hload | hplan
    · exact Or.inr (List.perm_singleton.mp (hperm.trans hload).cons_inv)
    · rw [show e.steering = [.plan] from hplan] at hjob
      cases List.mem_singleton.mp hjob

/-- When a pass has planned, what is left to steer is what it planned. -/
theorem planned_work (hn : e.Numbered) (hp : e.view.Planning)
    (ht : e.task? id = some ⟨.plan :: rest, reply⟩) (h : Job.plan.run s e = some (next, e₁))
    {j : Job} (hj : j ∈ (e₁.setTask id ⟨next ++ rest, reply'⟩).steering) :
    j = .loadProjects ∨ Steers s e .plan j := by
  have hperm := steering_next hn ht h reply' rfl
  have hmem : j ∈ [Job.loadProjects] ++ next.filter Job.steers := by
    rcases hp with hload | hplan
    · have hswap := hload.trans (List.Perm.swap Job.plan Job.loadProjects [])
      exact (hperm.trans (hswap.append_right _)).cons_inv.mem_iff.mp hj
    · rw [show e.steering = [.plan] from hplan] at hperm
      exact List.mem_append_right _ (hperm.cons_inv.mem_iff.mp hj)
  refine (List.mem_append.mp hmem).imp List.mem_singleton.mp fun hnext => ?_
  obtain ⟨hnext, hsteers⟩ := List.mem_filter.mp hnext
  exact steers_next h hnext hsteers

/-- **What is planned** trims all active runs. -/
theorem trim_plan (hg : Governed s e) (hp : e.view.Planning)
    (ht : e.task? id = some ⟨.plan :: rest, reply⟩) (h : Job.plan.run s e = some (next, e₁)) :
    (e₁.setTask id ⟨next ++ rest, reply'⟩).view.Trim := by
  have hn := hg.enlisted.numbered
  have hstays := fun j => steering_stays hn ht h reply' (j := j)
  have hplanned : ∀ j ∈ (e₁.setTask id ⟨next ++ rest, reply'⟩).steering,
      j = .loadProjects ∨ Steers s e .plan j := fun _ => planned_work hn hp ht h
  cases h
  refine ⟨fun j hj => ?_, fun {run handle entry} hf ha hentry => ?_, fun j hj => ?_⟩
  · rcases hplanned j hj with rfl | hsteers
    · rfl
    · cases hsteers <;> rfl
  · by_cases hfit : entry.IsFit
    · exact Or.inl ⟨hfit.1, Or.inl hfit.2⟩
    · have hactive := hg.enlisted.active?_eq hf ha
      have hmem := mem_plan_halt (e := e) (Fields.mem_of_find? hentry) (by rw [hactive]; rfl) hfit
      rw [hg.tidy.named hentry] at hmem
      exact Or.inr (Or.inl ((hstays _ (Or.inr ⟨hmem, rfl⟩)).resolve_left nofun))
  · intro project definition hstarts
    rcases hplanned j hj with rfl | hsteers
    · cases hstarts
    · cases hsteers with
      | @start name entry hentry hd hnone =>
        cases hstarts
        have hf := hg.tidy.sorted.find?_of_mem hentry
        have hnote := mem_plan_start hentry hd hnone
          (j := .noteStarted entry.project.id entry.revision) (by simp)
        refine ⟨entry, ?_, hd, Or.inr ((hstays _ (Or.inr ⟨hnote, rfl⟩)).resolve_left nofun)⟩
        rw [hg.tidy.named hf]
        exact hf
      | _ => cases hstarts

/-- A pass over projects whose active runs are all fit stops none, and gives every project that is
to run an active one. -/
theorem staffed_plan (hg : Governed s e) (hp : e.view.Planning) (hfit : e.view.Fit)
    (ht : e.task? id = some ⟨.plan :: rest, reply⟩) (h : Job.plan.run s e = some (next, e₁)) :
    (e₁.setTask id ⟨next ++ rest, reply'⟩).view.Staffed := by
  have hn := hg.enlisted.numbered
  refine ⟨trim_plan hg hp ht h, fun j hj => ?_, fun {name entry} hf hd => ?_⟩
  · rcases planned_work hn hp ht h hj with rfl | hsteers
    · rfl
    · cases hsteers with
      | @halt name entry hentry hactive hunfit =>
        obtain ⟨r, hr⟩ := Option.isSome_iff_exists.mp hactive
        obtain ⟨handle, hhandle, rfl, rfl, ha⟩ := hg.enlisted.of_active? hr
        exact absurd (hfit hhandle ha (hg.tidy.sorted.find?_of_mem hentry)) hunfit
      | _ => rfl
  · have hstays := fun j => steering_stays hn ht h reply' (j := j)
    cases h
    cases hactive : e.table.active? name with
    | some r =>
      obtain ⟨handle, hhandle, rfl, hproject, ha⟩ := hg.enlisted.of_active? hactive
      exact Or.inl ⟨_, handle, hhandle, ha, hproject⟩
    | none =>
      have hstart := mem_plan_start (Fields.mem_of_find? hf) hd hactive
        (j := .beginStart entry.project.id entry.project.definition entry.project.vars) (by simp)
      refine Or.inr ⟨_, (hstays _ (Or.inr ⟨hstart, rfl⟩)).resolve_left nofun,
        entry.project.definition, ?_⟩
      rw [Job.starts?, hg.tidy.named hf]

/-! ### Carrying out -/

/-- What was noted or will be is so after a job. -/
theorem noted_work (hg : Governed s e) (ht : e.task? id = some ⟨job :: rest, reply⟩)
    (h : job.run s e = some (next, e₁)) {project : String} {entry : ProjectEntry}
    (hf : e.projects.find? project = some entry) (hnoted : e.view.Noted project entry) :
    (e₁.setTask id ⟨next ++ rest, reply'⟩).view.Noted project (job.noting project entry) := by
  unfold Noted
  rw [noting_revision]
  -- a job that notes something for the project notes its latest revision
  rcases noting_started job project entry with hsame | ⟨revision, rfl, hnew⟩
  · rw [hsame]
    rcases hnoted with hstarted | hmem
    · exact Or.inl hstarted
    · refine (steering_stays hg.enlisted.numbered ht h reply' (Or.inl hmem)).imp_left ?_
      rintro rfl
      rw [← hsame]
      simp [Job.noting]
  · obtain ⟨entry', hf', rfl, -⟩ :=
      hg.notes (mem_steering.mpr ⟨mem_pending ht List.mem_cons_self, rfl⟩)
    cases hf.symm.trans hf'
    exact Or.inl hnew

/-- Jobs that are done while a pass carries out what it planned do not edit. -/
theorem trim_edits (htrim : e.view.Trim) (ht : e.task? id = some ⟨job :: rest, reply⟩) :
    job.edits = false := by
  refine Bool.eq_false_iff.mpr fun hedits => ?_
  have hout := htrim.planned job
    (mem_steering.mpr ⟨mem_pending ht List.mem_cons_self, Job.steers_of_edits hedits⟩)
  cases job <;> first | cases hedits; done | cases hout

/-- Where the steering jobs left come from while a pass carries out what it planned: a start goes
on, or an active run was found and is to be stopped. -/
theorem trim_came (hg : Governed s e) (htrim : e.view.Trim)
    (ht : e.task? id = some ⟨job :: rest, reply⟩) (h : job.run s e = some (next, e₁)) {j : Job}
    (hj : j ∈ (e₁.setTask id ⟨next ++ rest, reply'⟩).steering) :
    j ∈ e.steering ∨ job ∈ e.steering ∧ carriesOut j = true ∧ j.starts? = job.starts? ∧
      halts j = halts job := by
  rcases hg.came ht h hj with hold | ⟨hsteers, htends, hload⟩
  · exact Or.inl hold
  · have hjob : job ∈ e.steering :=
      mem_steering.mpr ⟨mem_pending ht List.mem_cons_self, by cases hsteers <;> rfl⟩
    have hout := htrim.planned job hjob
    refine Or.inr ⟨hjob, ?_⟩
    cases hsteers with
    | find => exact ⟨rfl, rfl, rfl⟩
    | enrol => exact ⟨rfl, rfl, rfl⟩
    | stop => exact ⟨rfl, rfl, rfl⟩
    | load => exact absurd rfl hload
    | _ => cases hout

/-- **Trimming** goes on job by job. -/
theorem trim_work (hg : Governed s e) (htrim : e.view.Trim)
    (ht : e.task? id = some ⟨job :: rest, reply⟩) (h : job.run s e = some (next, e₁)) :
    (e₁.setTask id ⟨next ++ rest, reply'⟩).view.Trim := by
  have he := hg.enlisted
  have hedits := trim_edits htrim ht
  have hamends := (run_projects h).1
  have hstays := fun j => steering_stays he.numbered ht h reply' (j := j)
  refine ⟨fun j hj => ?_, fun {run handle entry'} hf ha hp => ?_, fun j hj => ?_⟩
  · rcases trim_came hg htrim ht h hj with hold | ⟨-, hout, -⟩
    · exact htrim.planned j hold
    · exact hout
  · obtain ⟨entry, hold, rfl⟩ := hamends.back hedits hp
    rw [noting_project]
    rcases he.origin (mem_pending ht List.mem_cons_self) h hf ha with
      ⟨old, hfold, hactive, hproject, -⟩ | ⟨definition, vars, rfl, -⟩
    · rw [← hproject] at hold ⊢
      rcases htrim.fit hfold hactive hold with ⟨hd, hnoted⟩ | hstop | hstop
      · exact Or.inl ⟨hd, noted_work hg ht h hold hnoted⟩
      · rcases hstays _ (Or.inl hstop) with rfl | hleft
        · have hmem := mem_stopActive h (he.active?_eq hfold hactive)
          rw [he.single.tidy.named hfold] at hmem
          exact Or.inr (Or.inr ((hstays _ (Or.inr ⟨hmem, rfl⟩)).resolve_left nofun))
        · exact Or.inr (Or.inl hleft)
      · rcases hstays _ (Or.inl hstop) with rfl | hleft
        · exact nomatch ha.symm.trans (stop_inactive h hf)
        · exact Or.inr (Or.inr hleft)
    · -- the run was enlisted just now, as it was due
      obtain ⟨entry', hp', hd, hnoted⟩ := htrim.due _
        (mem_steering.mpr ⟨mem_pending ht List.mem_cons_self, rfl⟩) rfl
      cases hold.symm.trans hp'
      exact Or.inl ⟨hd, noted_work hg ht h hold hnoted⟩
  · intro project definition hstarts
    have hdue : ∃ entry, e.projects.find? project = some entry ∧
        entry.project.desired = .running ∧ e.view.Noted project entry := by
      rcases trim_came hg htrim ht h hj with hold | ⟨hjob, -, hsame, -⟩
      · exact htrim.due j hold hstarts
      · exact htrim.due job hjob (hsame ▸ hstarts)
    obtain ⟨entry, hf, hd, hnoted⟩ := hdue
    refine ⟨_, hamends.forth hedits hf, ?_, noted_work hg ht h hf hnoted⟩
    rw [noting_project]
    exact hd

/-- A start goes on until its project has an active run. -/
theorem starts_next (he : Enlisted s e) (h : job.run s e = some (next, e₁)) {project : String}
    {definition : Definition} (hstarts : job.starts? = some (project, definition)) :
    (∃ run h, e₁.table.find? run = some h ∧ h.record.status.isActive = true ∧
        h.record.projectId = project) ∨
      ∃ j ∈ next, j ≠ job ∧ j.starts? = some (project, definition) := by
  cases job
  all_goals first
    | cases hstarts; done
    | skip
  case beginStart =>
    cases hstarts
    cases run_cases h with
    | aside ha => cases ha
    | begun => exact Or.inr ⟨_, List.mem_singleton_self _, nofun, rfl⟩
  case findActive =>
    cases hstarts
    cases run_cases h with
    | aside ha => cases ha
    | found _ _ _ r hr =>
      obtain ⟨handle, hf, rfl, hproject, ha⟩ := he.of_active? hr
      exact Or.inl ⟨_, handle, hf, ha, hproject⟩
    | missed => exact Or.inr ⟨_, List.mem_singleton_self _, nofun, rfl⟩
  case enrol vars =>
    cases hstarts
    cases run_cases h with
    | aside ha => cases ha
    | enrolled => exact Or.inl ⟨_, _, (enrolled_spec s e project definition vars).1, rfl, rfl⟩

/-- **Staffing** goes on job by job. -/
theorem staffed_work (hs : NamesApart s) (hg : Governed s e) (hstaffed : e.view.Staffed)
    (ht : e.task? id = some ⟨job :: rest, reply⟩) (h : job.run s e = some (next, e₁))
    (hpeace : (⟨e, .work id⟩ : Moment).isPeaceful = true) :
    (e₁.setTask id ⟨next ++ rest, reply'⟩).view.Staffed := by
  have htrim := hstaffed.trim
  have hpending : job ∈ e.pending := mem_pending ht List.mem_cons_self
  refine ⟨trim_work hg htrim ht h, fun j hj => ?_, fun {name entry'} hf hd => ?_⟩
  · rcases trim_came hg htrim ht h hj with hold | ⟨hjob, -, -, hsame⟩
    · exact hstaffed.calm j hold
    · rw [hsame]
      exact hstaffed.calm job hjob
  · obtain ⟨entry, hold, rfl⟩ := (run_projects h).1.back (trim_edits htrim ht) hf
    rw [noting_project] at hd
    rcases hstaffed.staffed hold hd with hruns | ⟨j, hj, definition, hstarts⟩
    · refine Or.inl (hasRun_work hg.enlisted hs ht h hpeace ?_ ?_ hruns)
      · rintro run rfl
        cases hstaffed.calm _ (mem_steering.mpr ⟨hpending, rfl⟩)
      · rintro records rfl
        cases htrim.planned _ (mem_steering.mpr ⟨hpending, rfl⟩)
    · have hstays := fun j => steering_stays hg.enlisted.numbered ht h reply' (j := j)
      rcases hstays j (Or.inl hj) with rfl | hleft
      · rcases starts_next hg.enlisted h hstarts with hruns | ⟨j', hj', hne, hstarts'⟩
        · exact Or.inl hruns
        · have hleft := (hstays j' (Or.inr ⟨hj', Job.steers_of_starts hstarts'⟩)).resolve_left hne
          exact Or.inr ⟨j', hleft, definition, hstarts'⟩
      · exact Or.inr ⟨j, hleft, definition, hstarts⟩

/-! ### Resting -/

/-- A job that neither edits nor starts a run nor notes a start leaves all active runs fit. -/
theorem fit_work (he : Enlisted s e) (hfit : e.view.Fit)
    (ht : e.task? id = some ⟨job :: rest, reply⟩) (h : job.run s e = some (next, e₁))
    (hjob : job.steers = false ∨ job = .loadProjects ∨ job = .plan) :
    (e₁.setTask id ⟨next ++ rest, reply'⟩).view.Fit := by
  intro run handle entry hf ha hp
  have hprojects : e₁.projects = e.projects := by
    refine (run_apart h ?_ ?_).projects
    · rcases hjob with hjob | rfl | rfl
      · exact Bool.eq_false_iff.mpr fun hedits =>
          nomatch hjob.symm.trans (Job.steers_of_edits hedits)
      · rfl
      · rfl
    · rintro project revision rfl
      rcases hjob with hjob | hjob | hjob <;> cases hjob
  rcases he.origin (mem_pending ht List.mem_cons_self) h hf ha with
    ⟨old, hfold, hactive, hproject, -⟩ | ⟨definition, vars, rfl, -⟩
  · have hp' : e.projects.find? handle.record.projectId = some entry := hprojects ▸ hp
    exact hfit hfold hactive (hproject ▸ hp')
  · rcases hjob with hjob | hjob | hjob <;> cases hjob

/-- A pass that finds all as it is wanted does nothing and leaves nothing to do. -/
theorem resting_next (hg : Governed s e) (hrest : e.view.Resting)
    (hpending : job ∈ e.pending) (hsteers : job.steers = true) :
    job ∈ passing ∧ job.run s e = some ([], e) := by
  rcases hrest.passing job (mem_steering.mpr ⟨hpending, hsteers⟩) with rfl | rfl
  · refine ⟨by simp [passing], ?_⟩
    simp only [Job.run, hg.source]
  · refine ⟨by simp [passing], ?_⟩
    have hnone :
        (e.projects.plan fun id => (e.table.active? id).isSome).flatMap ofDecision = [] := by
      refine List.eq_nil_iff_forall_not_mem.mpr fun j hj => ?_
      cases plan_next (s := s) hj with
      | start hentry hd hidle | note hentry hd hidle =>
        obtain ⟨run, handle, hf, ha, rfl⟩ :=
          hrest.manned (hg.tidy.sorted.find?_of_mem hentry) hd
        cases hidle.symm.trans (hg.enlisted.active?_eq hf ha)
      | halt hentry hactive hunfit =>
        obtain ⟨r, hr⟩ := Option.isSome_iff_exists.mp hactive
        obtain ⟨handle, hf, rfl, rfl, ha⟩ := hg.enlisted.of_active? hr
        exact hunfit (hrest.fit hf ha (hg.tidy.sorted.find?_of_mem hentry))
    rw [Job.run, hnone]

/-- **Resting** goes on in peace. -/
theorem resting_work (hs : NamesApart s) (hg : Governed s e) (hrest : e.view.Resting)
    (ht : e.task? id = some ⟨job :: rest, reply⟩) (h : job.run s e = some (next, e₁))
    (hpeace : (⟨e, .work id⟩ : Moment).isPeaceful = true) :
    (e₁.setTask id ⟨next ++ rest, reply'⟩).view.Resting := by
  have hn := hg.enlisted.numbered
  have hpending : job ∈ e.pending := mem_pending ht List.mem_cons_self
  have hjob : job.steers = false ∨ job = .loadProjects ∨ job = .plan := by
    cases hsteers : job.steers with
    | false => exact Or.inl rfl
    | true => exact Or.inr (hrest.passing job (mem_steering.mpr ⟨hpending, hsteers⟩))
  refine ⟨fit_work hg.enlisted hrest.fit ht h hjob, fun {name entry} hf hd => ?_, fun j hj => ?_⟩
  · have hedits : job.edits = false := by
      rcases hjob with hjob | rfl | rfl
      · exact Bool.eq_false_iff.mpr fun hedits =>
          nomatch hjob.symm.trans (Job.steers_of_edits hedits)
      · rfl
      · rfl
    obtain ⟨entry, hold, rfl⟩ := (run_projects h).1.back hedits hf
    rw [noting_project] at hd
    refine hasRun_work hg.enlisted hs ht h hpeace ?_ ?_ (hrest.manned hold hd)
    · rintro run rfl
      rcases hjob with hjob | hjob | hjob <;> cases hjob
    · rintro records rfl
      rcases hjob with hjob | hjob | hjob <;> cases hjob
  · rcases mem_steering_work hn ht h hj with hold | hsteers
    · exact hrest.passing j hold
    · have hjs : job.steers = true := by cases hsteers <;> rfl
      have hnext := (resting_next hg hrest hpending hjs).2
      cases h.symm.trans hnext
      have hperm := steering_next hn ht h reply' hjs
      rw [List.filter_nil, List.append_nil] at hperm
      exact hrest.passing j (hperm.mem_iff.mp (List.mem_cons_of_mem _ hj))

end Work

/-! ## Passes -/

section Passing

variable {s : Settings} {e e' : Engine}

/-- The view after a deed is that before it, or that after a job. -/
theorem view_step {P : View → Prop} {d : Deed} (hn : e.Numbered) (hd : e.roam s d = some e')
    (haside : d.isByTheWay = true) (h₀ : P e.view)
    (hwork : ∀ id job rest next reply reply' e₁, d = .work id →
      e.task? id = some ⟨job :: rest, reply⟩ → job.run s e = some (next, e₁) →
      P (e₁.setTask id ⟨next ++ rest, reply'⟩).view) : P e'.view := by
  have hstill : (∀ id, d ≠ .work id) → P e'.view := fun hw =>
    (view_aside hn hw hd haside).symm ▸ h₀
  cases roam_cases hn hd with
  | asked => exact hstill nofun
  | worked ht hrun => exact hwork _ _ _ _ _ _ _ rfl ht hrun
  | still hw => exact hstill hw

/-- **The first pass**: all active runs are fit after it. -/
theorem Serves.fit {l : List Moment} (hserves : Serves s .pass e l e') (hg : Governed s e)
    (hidle : e.steering = []) : Governed s e' ∧ e'.steering = [] ∧ e'.view.Fit := by
  obtain ⟨hg', hidle', hend⟩ := hserves.keeps hg hidle rfl
    (P := fun e => e.view.Planning ∨ e.view.Trim) (Or.inl (planning_ask hidle))
    fun m hm e₂ hg _ h hd => by
      refine view_step (P := fun v => v.Planning ∨ v.Trim) hg.enlisted.numbered hd
        (hserves.aside m hm) h fun _ job _ _ _ _ _ _ ht hrun => ?_
      rcases h with hplanning | htrim
      · by_cases hplan : job = .plan
        · subst hplan
          exact Or.inr (trim_plan hg hplanning ht hrun)
        · exact Or.inl (planning_work hg hplanning ht hrun hplan)
      · exact Or.inr (trim_work hg htrim ht hrun)
  refine ⟨hg', hidle', ?_⟩
  rcases hend with hplanning | htrim
  · exact absurd hidle' hplanning.ne_nil
  · exact htrim.done hidle'

/-- **The second pass**: every project that is to run has an active run after it. -/
theorem Serves.manned {l : List Moment} (hs : NamesApart s) (hserves : Serves s .pass e l e')
    (hpeace : ∀ m ∈ l, m.isPeaceful = true) (hg : Governed s e) (hidle : e.steering = [])
    (hfit : e.view.Fit) : e'.view.Manned := by
  obtain ⟨hg', hidle', hend⟩ := hserves.keeps hg hidle rfl
    (P := fun e => e.view.Planning ∧ e.view.Fit ∨ e.view.Staffed)
    (Or.inl ⟨planning_ask hidle, hfit⟩)
    fun m hm e₂ hg _ h hd => by
      have hm' := hpeace m hm
      obtain ⟨e₁, d⟩ := m
      refine view_step (P := fun v => v.Planning ∧ v.Fit ∨ v.Staffed) hg.enlisted.numbered hd
        (hserves.aside _ hm) h fun _ job _ _ _ _ _ hw ht hrun => ?_
      obtain rfl : d = _ := hw
      rcases h with ⟨hplanning, hfit⟩ | hstaffed
      · by_cases hplan : job = .plan
        · subst hplan
          exact Or.inr (staffed_plan hg hplanning hfit ht hrun)
        · refine Or.inl ⟨planning_work hg hplanning ht hrun hplan, ?_⟩
          refine fit_work hg.enlisted hfit ht hrun ?_
          cases hsteers : job.steers with
          | false => exact Or.inl rfl
          | true =>
            have hmem := mem_steering.mpr ⟨mem_pending ht List.mem_cons_self, hsteers⟩
            exact Or.inr (hplanning.mem hmem)
      · exact Or.inr (staffed_work hs hg hstaffed ht hrun hm')
  rcases hend with ⟨hplanning, -⟩ | hstaffed
  · exact absurd hidle' hplanning.ne_nil
  · exact hstaffed.done hidle'

/-- What passes come to. -/
theorem Passes.reach (hs : NamesApart s) {n : Nat} (hp : Passes s e n e') (hg : Governed s e)
    (hidle : e.steering = []) :
    Governed s e' ∧ e'.steering = [] ∧ (1 ≤ n → e'.view.Fit) ∧ (2 ≤ n → e'.view.Resting) := by
  induction hp with
  | nil => exact ⟨hg, hidle, nofun, nofun⟩
  | @meanwhile n e₁ e₂ d _ hpeace hd ih =>
    obtain ⟨hg₁, hidle₁, hfit, hrest⟩ := ih
    have haside := Moment.isPeaceful_aside hpeace
    have hn := hg₁.enlisted.numbered
    refine ⟨hg₁.step hd haside, idle_step hn hidle₁ hd haside, fun hle => ?_, fun hle => ?_⟩
    · refine view_step (P := Fit) hn hd haside (hfit hle) fun _ job _ _ _ _ _ _ ht hrun => ?_
      refine fit_work hg₁.enlisted (hfit hle) ht hrun (Or.inl ?_)
      refine Bool.eq_false_iff.mpr fun hsteers => ?_
      have hmem := mem_steering.mpr ⟨mem_pending ht List.mem_cons_self, hsteers⟩
      rw [hidle₁] at hmem
      cases hmem
    · refine view_step (P := Resting) hn hd haside (hrest hle) fun _ _ _ _ _ _ _ hw ht hrun => ?_
      subst hw
      exact resting_work hs hg₁ (hrest hle) ht hrun hpeace
  | @pass n e₁ e₂ l _ hserves hpeace ih =>
    obtain ⟨hg₁, hidle₁, hfit, -⟩ := ih
    obtain ⟨hg₂, hidle₂, hfit₂⟩ := hserves.fit hg₁ hidle₁
    refine ⟨hg₂, hidle₂, fun _ => hfit₂, fun hle => ⟨hfit₂, ?_, ?_⟩⟩
    · exact hserves.manned hs hpeace hg₁ hidle₁ (hfit (by omega))
    · intro j hj
      rw [show e₂.view.steering = [] from hidle₂] at hj
      cases hj

end Passing

/-! ## What projects come to -/

/-- At every moment of a course an engine had been come to by a part of it. -/
theorem Roams.upTo {s : Settings} {e₀ e : Engine} {l : List Moment} (h : Roams s e₀ l e)
    {m : Moment} (hm : m ∈ l) : ∃ l₁, Roams s e₀ l₁ m.before ∧ ∀ m' ∈ l₁, m' ∈ l := by
  induction h with
  | nil => cases hm
  | @snoc l e e' d hr hd ih =>
    rcases List.mem_append.mp hm with hm | hm
    · obtain ⟨l₁, hr₁, hsub⟩ := ih hm
      exact ⟨l₁, hr₁, fun m' hm' => List.mem_append_left _ (hsub m' hm')⟩
    · obtain rfl := List.mem_singleton.mp hm
      exact ⟨l, hr, fun m' hm' => List.mem_append_left _ hm'⟩

/-- What a pass does that finds all as it is wanted: none of its jobs changes anything. -/
theorem Serves.idle {s : Settings} (hs : NamesApart s) {e e' : Engine} {l : List Moment}
    (hserves : Serves s .pass e l e') (hpeace : ∀ m ∈ l, m.isPeaceful = true) (hg : Governed s e)
    (hidle : e.steering = []) (hrest : e.view.Resting) {m : Moment} (hm : m ∈ l) {job : Job}
    (hjob : m.job? = some job) (hsteers : job.steers = true) :
    job ∈ passing ∧ job.run s m.before = some ([], m.before) := by
  have hask : (e.ask Call.pass.jobs).view.Resting :=
    ⟨hrest.fit, hrest.manned, fun j hj => (planning_ask hidle).mem hj⟩
  obtain ⟨l₁, hcourse, hsub⟩ := hserves.course.upTo hm
  obtain ⟨hg', hrest'⟩ := hcourse.keeps (P := fun e => Governed s e ∧ e.view.Resting)
    ⟨hg.ask hidle rfl, hask⟩ fun m' hm' e₂ ⟨hg, hrest⟩ hd => by
      have hquiet := hpeace m' (hsub m' hm')
      have haside := Moment.isPeaceful_aside hquiet
      obtain ⟨e₁, d⟩ := m'
      refine ⟨hg.step hd haside, ?_⟩
      refine view_step (P := Resting) hg.enlisted.numbered hd haside hrest
        fun _ _ _ _ _ _ _ hw ht hrun => ?_
      obtain rfl : d = _ := hw
      exact resting_work hs hg hrest ht hrun hquiet
  exact resting_next hg' hrest' (mem_pending_of_job? hjob) hsteers

/-- The active records of a project. -/
def activeOf (e : Engine) (project : String) : List RunRecord :=
  e.table.records.filter fun r => r.projectId = project && r.status.isActive

/-- The active record of a project is its only one. -/
theorem Enlisted.activeOf_eq {s : Settings} {e : Engine} (he : Enlisted s e) {run : String}
    {h : Handle} (hf : e.table.find? run = some h) (ha : h.record.status.isActive = true) :
    e.activeOf h.record.projectId = [h.record] := by
  have hle := he.single.lone.length_active_le_one he.single.tidy h.record.projectId
  have hmem : h.record ∈ e.activeOf h.record.projectId :=
    List.mem_filter.mpr ⟨RunTable.mem_records_of_find? hf, by simp [ha]⟩
  change (e.activeOf h.record.projectId).length ≤ 1 at hle
  match hactive : e.activeOf h.record.projectId with
  | [] =>
    rw [hactive] at hmem
    cases hmem
  | [r] =>
    rw [hactive, List.mem_singleton] at hmem
    rw [hmem]
  | _ :: _ :: _ =>
    rw [hactive] at hle
    exact absurd hle (by simp)

/-- **Two passes are enough.** Take whatever a coordinator without a source comes to by calls one
after the other, while runs go on and end as they may. After two more passes, if nothing that
steers is asked for meanwhile and no run comes to its end by itself, every project that is to run
has exactly one active run, which runs the nodes and edges that the project has now, and every
project that is to be stopped has none. Every further pass changes nothing: it consists of the two
jobs that look at the source and at the projects, and both leave the engine as it was and nothing
to do. -/
theorem Tended.converges {s : Settings} (hs : NamesApart s) {e e' : Engine} (h : Tended s e)
    {n : Nat} (hp : Passes s e n e') (hn : 2 ≤ n) :
    (∀ id entry, e'.projects.find? id = some entry →
      (entry.project.desired = .running →
        ∃ r, e'.activeOf id = [r] ∧ Carries r entry.project.definition) ∧
      (entry.project.desired = .stopped → e'.activeOf id = [])) ∧
    ∀ l e'', Serves s .pass e' l e'' → (∀ m ∈ l, m.isPeaceful = true) →
      ∀ m ∈ l, ∀ job, m.job? = some job → job.steers = true →
        job ∈ passing ∧ job.run s m.before = some ([], m.before) := by
  obtain ⟨hg, hidle⟩ := h.governed
  obtain ⟨hg', hidle', -, hrest⟩ := hp.reach hs hg hidle
  refine ⟨fun id entry hf => ⟨fun hd => ?_, fun hd => ?_⟩, ?_⟩
  · obtain ⟨run, handle, hrun, ha, rfl⟩ := (hrest hn).manned hf hd
    have hfit := (hrest hn).fit hrun ha hf
    exact ⟨handle.record, hg'.enlisted.activeOf_eq hrun ha, hg'.carries hrun ha hf hfit.2⟩
  · refine List.filter_eq_nil_iff.mpr fun r hr hactive => ?_
    rw [Bool.and_eq_true, decide_eq_true_eq] at hactive
    obtain ⟨handle, hrun, rfl⟩ := hg'.enlisted.single.tidy.find?_of_mem hr
    obtain ⟨rfl, ha⟩ := hactive
    cases hd.symm.trans ((hrest hn).fit hrun ha hf).1
  · intro l e'' hserves hpeace m hm job hjob hsteers
    exact hserves.idle hs hpeace hg' hidle' (hrest hn) hm hjob hsteers

/-! ## Trying out -/

/-- Serves a call by so many jobs of its task, if that is all it takes. -/
def serve? (s : Settings) (e : Engine) (c : Call) (jobs : Nat) : Option (List Moment × Engine) :=
  ((e.ask c.jobs).replay s (List.replicate jobs (.work e.nextTask))).filter fun (l, e') =>
    l.all Moment.isPeaceful && e'.isDone e.nextTask

theorem serve?_spec {s : Settings} {e e' : Engine} {c : Call} {jobs : Nat} {l : List Moment}
    (h : e.serve? s c jobs = some (l, e')) :
    Serves s c e l e' ∧ ∀ m ∈ l, m.isPeaceful = true := by
  obtain ⟨hreplay, hspec⟩ := Option.filter_eq_some_iff.mp h
  rw [Bool.and_eq_true] at hspec
  have hpeace := List.all_eq_true.mp hspec.1
  exact ⟨⟨(replay_runs hreplay).roams, fun m hm => Moment.isPeaceful_aside (hpeace m hm), hspec.2⟩,
    hpeace⟩

/-- Serves calls one after the other. -/
def serveAll? (s : Settings) (e : Engine) : List (Call × Nat) → Option Engine
  | [] => some e
  | (c, jobs) :: rest => (e.serve? s c jobs).bind fun (_, e₁) => serveAll? s e₁ rest

theorem tended_serveAll {s : Settings} {e e' : Engine} {calls : List (Call × Nat)}
    (h : Tended s e) (hcalls : ∀ x ∈ calls, x.1.tends = true)
    (hserve : e.serveAll? s calls = some e') : Tended s e' := by
  induction calls generalizing e with
  | nil =>
    cases hserve
    exact h
  | cons x rest ih =>
    obtain ⟨⟨l, e₁⟩, hone, hrest⟩ := Option.bind_eq_some_iff.mp hserve
    exact ih (h.called (hcalls x List.mem_cons_self) (serve?_spec hone).1)
      (fun y hy => hcalls y (List.mem_cons_of_mem _ hy)) hrest

theorem passes_serveAll {s : Settings} {e₀ e e' : Engine} {n : Nat} {jobs : List Nat}
    (h : Passes s e₀ n e) (hserve : e.serveAll? s (jobs.map fun k => (.pass, k)) = some e') :
    Passes s e₀ (n + jobs.length) e' := by
  induction jobs generalizing e n with
  | nil =>
    cases hserve
    exact h
  | cons k rest ih =>
    obtain ⟨⟨l, e₁⟩, hone, hrest⟩ := Option.bind_eq_some_iff.mp hserve
    obtain ⟨hserves, hpeace⟩ := serve?_spec hone
    have hpasses := ih (h.pass hserves hpeace) hrest
    rw [List.length_cons, Nat.add_comm rest.length 1, ← Nat.add_assoc]
    exact hpasses

/-- A project that is to run, before and after it was changed. -/
def changing (node : String) : Project :=
  { id := "p", desired := .running, definition := { nodes := [{ id := node }] } }

/-- A project is started and changed. -/
def changed : List (Call × Nat) :=
  [(.upsert (changing "a"), 2), (.pass, 18), (.upsert (changing "b"), 2)]

/-- Its old run is stopped in a first pass, and a new one started in a second. -/
theorem changed_spec :
    ∃ e e', (fresh .absent none 8 8).serveAll? trial changed = some e ∧
      e.serveAll? trial ([14, 18].map fun k => (.pass, k)) = some e' ∧
      e'.projects.find? "p" =
        some { project := changing "b", revision := 1, started := some 1 } := by
  have hall : (((fresh .absent none 8 8).serveAll? trial changed).bind fun e =>
      (e.serveAll? trial ([14, 18].map fun k => (.pass, k))).map fun e' =>
        e'.projects.find? "p") =
      some (some { project := changing "b", revision := 1, started := some 1 }) := rfl
  obtain ⟨e, he, hmap⟩ := Option.bind_eq_some_iff.mp hall
  obtain ⟨e', he', hf⟩ := Option.map_eq_some_iff.mp hmap
  exact ⟨e, e', he, he', hf⟩

theorem changed_converges :
    ∃ e e' r, Tended trial e ∧ Passes trial e 2 e' ∧ e'.activeOf "p" = [r] ∧
      Carries r (changing "b").definition := by
  obtain ⟨e, e', he, he', hf⟩ := changed_spec
  have hcalls : ∀ x ∈ changed, x.1.tends = true := by
    intro x hx
    simp only [changed, List.mem_cons, List.not_mem_nil, or_false] at hx
    rcases hx with rfl | rfl | rfl <;> rfl
  have htended := tended_serveAll (.fresh .absent 8 8) hcalls he
  have hpasses : Passes trial e 2 e' := passes_serveAll .nil he'
  obtain ⟨r, hr, hcarries⟩ :=
    ((htended.converges trial_namesApart hpasses (Nat.le_refl 2)).1 _ _ hf).1 rfl
  exact ⟨e, e', r, htended, hpasses, hr, hcarries⟩

end Workflow.Engine
