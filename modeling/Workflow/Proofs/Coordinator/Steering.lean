import Workflow.Proofs.Engine.Enlisted

/-!
# Steering

Some jobs *steer*: they change the set of projects, they start or stop runs or take them up from
disk, or they come to that. What steers is the business of clients and of the coordinator alone;
what runs do on their own never comes to it (`steers_next`, `Steers`).

Here is what each job makes of the set of projects (`run_projects`), which steering jobs come of
which, and what a pass plans for a project: it is left alone if it has an active run that is fit
(`ProjectEntry.IsFit`), or none and is to have none.
-/

namespace Workflow

/-! ## What a pass decides -/

namespace ProjectEntry

/-- Whether a run of a project is what is wanted: the project is to run, and its run was started
from the latest revision. -/
def IsFit (entry : ProjectEntry) : Prop :=
  entry.project.desired = .running ∧ entry.started = some entry.revision

theorem decide_start {entry : ProjectEntry} {active : Bool} {p : Project} {revision : Nat}
    (h : entry.decide active = some (.start p revision)) :
    active = false ∧ entry.project.desired = .running ∧ p = entry.project ∧
      revision = entry.revision := by
  unfold decide at h
  split at h
  · next hd =>
    split at h
    · next ha =>
      cases h
      exact ⟨by simpa using ha, hd, rfl, rfl⟩
    · split at h <;> cases h
  · split at h <;> cases h

theorem decide_stop {entry : ProjectEntry} {active : Bool} {project : String}
    (h : entry.decide active = some (.stop project)) :
    active = true ∧ ¬ entry.IsFit ∧ project = entry.project.id := by
  unfold decide at h
  split at h
  · split at h
    · cases h
    · next ha =>
      split at h
      · cases h
      · next hs =>
        cases h
        exact ⟨by simpa using ha, fun hfit => hs hfit.2, rfl⟩
  · next hd =>
    split at h
    · next ha =>
      cases h
      refine ⟨ha, fun hfit => ?_, rfl⟩
      cases hd.symm.trans hfit.1
    · cases h

/-- A project that is to run is started if it has no active run. -/
theorem decide_idle {entry : ProjectEntry} (hd : entry.project.desired = .running) :
    entry.decide false = some (.start entry.project entry.revision) := by
  rw [decide, hd]
  rfl

/-- An active run that is not fit is stopped. -/
theorem decide_unfit {entry : ProjectEntry} (hfit : ¬ entry.IsFit) :
    entry.decide true = some (.stop entry.project.id) := by
  unfold decide
  split
  · next hd =>
    have hs : entry.started ≠ some entry.revision := fun hs => hfit ⟨hd, hs⟩
    rw [Bool.not_true, if_neg Bool.false_ne_true, if_neg hs]
  · rfl

end ProjectEntry

/-! ## Sets of projects -/

/-- Projects are in order, each under its own id. -/
structure ProjectSet.Tidy (ps : ProjectSet) : Prop where
  /-- projects are in order -/
  sorted : ps.Sorted
  /-- each is under its own id -/
  named : ∀ {id entry}, ps.find? id = some entry → entry.project.id = id

theorem ProjectSet.Tidy.put {ps : ProjectSet} (ht : ps.Tidy) {id : String} {entry : ProjectEntry}
    (hid : entry.project.id = id) : ProjectSet.Tidy (Fields.put ps id entry) where
  sorted := ht.sorted.put id entry
  named := by
    intro id' entry' hf
    rw [Fields.find?_put] at hf
    split at hf
    · next heq =>
      cases hf
      exact hid.trans heq
    · exact ht.named hf

theorem ProjectSet.Tidy.erase {ps : ProjectSet} (ht : ps.Tidy) (id : String) :
    ProjectSet.Tidy (Fields.erase ps id) where
  sorted := ht.sorted.erase id
  named := by
    intro id' entry' hf
    rw [Fields.find?_erase] at hf
    split at hf
    · cases hf
    · exact ht.named hf

namespace Engine

open Engine.Job

/-! ## Jobs that steer -/

/-- Whether a job steers: it changes the set of projects, starts, stops or takes up runs, or comes
to that. -/
def Job.steers : Job → Bool
  | beginStart .. | findActive .. | enrol .. | stop _ | reload | restore _ | shutDown | cancelAll
  | loadProjects | plan | upsert _ | setDesired .. | dropMissing _ | forget _ | stopActive _
  | noteStarted .. => true
  | _ => false

/-- Whether a job changes what is wanted of the projects. -/
def Job.edits : Job → Bool
  | upsert _ | setDesired .. | forget _ => true
  | _ => false

theorem Job.steers_of_edits {j : Job} (h : j.edits = true) : j.steers = true := by
  cases j <;> first | rfl | cases h

/-- That a job that steers leaves another one to do that does. -/
inductive Steers (s : Settings) (e : Engine) : Job → Job → Prop
  /-- with the start lock one looks for an active run -/
  | find (project : String) (definition : Definition) (vars : Vars) :
      Steers s e (.beginStart project definition vars) (.findActive project definition vars)
  /-- a run is enlisted where none was found -/
  | enrol {project : String} (definition : Definition) (vars : Vars) :
      e.table.active? project = none →
      Steers s e (.findActive project definition vars) (.enrol project definition vars)
  /-- what was read is taken up -/
  | restore {records : List RunRecord} : Registry.load s.registryPath e.file = .ok records →
      Steers s e .reload (.restore records)
  /-- at the end all runs are stopped, and all walks cancelled -/
  | shut (j : Job) : Steers s e .shutDown j
  /-- projects are taken up from their source -/
  | load (j : Job) : e.source ≠ none → Steers s e .loadProjects j
  /-- and those that are gone there are forgotten -/
  | drop (ids : List String) (j : Job) : Steers s e (.dropMissing ids) j
  /-- the run of a project that was forgotten is stopped -/
  | disown {project : String} {entry : ProjectEntry} : e.projects.find? project = some entry →
      Steers s e (.forget project) (.stopActive project)
  /-- a project that is to run and does not is started -/
  | start {id : String} {entry : ProjectEntry} : (id, entry) ∈ e.projects →
      entry.project.desired = .running → e.table.active? id = none →
      Steers s e .plan
        (.beginStart entry.project.id entry.project.definition entry.project.vars)
  /-- and it is noted from which revision -/
  | note {id : String} {entry : ProjectEntry} : (id, entry) ∈ e.projects →
      entry.project.desired = .running → e.table.active? id = none →
      Steers s e .plan (.noteStarted entry.project.id entry.revision)
  /-- an active run that is not fit is stopped -/
  | halt {id : String} {entry : ProjectEntry} : (id, entry) ∈ e.projects →
      (e.table.active? id).isSome = true → ¬ entry.IsFit →
      Steers s e .plan (.stopActive entry.project.id)
  /-- what was found active is stopped -/
  | stop {project : String} {r : RunRecord} : e.table.active? project = some r →
      Steers s e (.stopActive project) (.stop r.runId)

section Work

variable {s : Settings} {e e₁ : Engine} {job : Job} {next : List Job}

theorem plan_next {j : Job}
    (hj : j ∈ (e.projects.plan fun id => (e.table.active? id).isSome).flatMap ofDecision) :
    Steers s e .plan j := by
  obtain ⟨decision, hdecision, hj⟩ := List.mem_flatMap.mp hj
  obtain ⟨⟨id, entry⟩, hmem, hd⟩ := List.mem_filterMap.mp hdecision
  cases decision with
  | start p revision =>
    obtain ⟨hnone, hrunning, rfl, rfl⟩ := ProjectEntry.decide_start hd
    have hactive := Option.isSome_eq_false_iff.mp hnone
    rcases List.mem_cons.mp hj with rfl | hj
    · exact .start hmem hrunning (Option.isNone_iff_eq_none.mp hactive)
    · obtain rfl := List.mem_singleton.mp hj
      exact .note hmem hrunning (Option.isNone_iff_eq_none.mp hactive)
  | stop project =>
    obtain ⟨hactive, hfit, rfl⟩ := ProjectEntry.decide_stop hd
    obtain rfl := List.mem_singleton.mp hj
    exact .halt hmem hactive hfit

/-- A pass starts what is to run and does not, and notes that. -/
theorem mem_plan_start {id : String} {entry : ProjectEntry} (hmem : (id, entry) ∈ e.projects)
    (hd : entry.project.desired = .running) (hnone : e.table.active? id = none) {j : Job}
    (hj : j ∈ [.beginStart entry.project.id entry.project.definition entry.project.vars,
      .noteStarted entry.project.id entry.revision]) :
    j ∈ (e.projects.plan fun id => (e.table.active? id).isSome).flatMap ofDecision := by
  refine List.mem_flatMap.mpr ⟨.start entry.project entry.revision, ?_, hj⟩
  refine List.mem_filterMap.mpr ⟨(id, entry), hmem, ?_⟩
  dsimp only
  rw [hnone]
  exact ProjectEntry.decide_idle hd

/-- A pass stops what is active and not fit. -/
theorem mem_plan_halt {id : String} {entry : ProjectEntry} (hmem : (id, entry) ∈ e.projects)
    (hactive : (e.table.active? id).isSome = true) (hfit : ¬ entry.IsFit) :
    .stopActive entry.project.id ∈
      (e.projects.plan fun id => (e.table.active? id).isSome).flatMap ofDecision := by
  refine List.mem_flatMap.mpr ⟨.stop entry.project.id, ?_, List.mem_singleton_self _⟩
  refine List.mem_filterMap.mpr ⟨(id, entry), hmem, ?_⟩
  dsimp only
  rw [hactive]
  exact ProjectEntry.decide_unfit hfit

/-- **Steering comes of steering**: which jobs that steer a job leaves to do. -/
theorem steers_next (h : job.run s e = some (next, e₁)) {j : Job} (hj : j ∈ next)
    (hsteers : j.steers = true) : Steers s e job j := by
  cases hjob : job.isAside with
  | false =>
    rcases mem_next_routine h hjob hj with hroutine | hleads
    · cases j <;> first | cases hroutine; done | cases hsteers
    · cases hleads with
      | find project definition vars => exact .find project definition vars
      | enrol definition vars hnone => exact .enrol definition vars hnone
      | start | restore => cases hjob
      | stop _ haside | post _ _ haside | cancelAll haside => exact nomatch hjob.symm.trans haside
      | _ => cases hsteers
  | true =>
    cases job
    case plan =>
      cases h
      exact plan_next hj
    case shutDown => exact .shut j
    case dropMissing ids => exact .drop ids j
    case forget project =>
      simp only [Job.run, ProjectSet.remove] at h
      cases hf : e.projects.find? project with
      | none =>
        rw [hf] at h
        cases h
        obtain rfl := List.mem_singleton.mp hj
        cases hsteers
      | some entry =>
        rw [hf] at h
        cases h
        simp only [List.mem_cons, List.not_mem_nil, or_false] at hj
        rcases hj with rfl | rfl
        · exact .disown hf
        · cases hsteers
    case stopActive project =>
      simp only [Job.run] at h
      split at h
      · cases h
        cases hj
      · next r hr =>
        cases h
        obtain rfl := List.mem_singleton.mp hj
        exact .stop hr
    case reload =>
      simp only [Job.run] at h
      split at h
      · cases h
        obtain rfl := List.mem_singleton.mp hj
        cases hsteers
      · next hload =>
        cases h
        obtain rfl := List.mem_singleton.mp hj
        exact .restore hload
    case loadProjects =>
      refine .load j fun hnone => ?_
      simp only [Job.run, hnone] at h
      cases h
      cases hj
    -- all others aside leave a short row of jobs to do
    all_goals first
      | cases hjob; done
      | skip
    all_goals
      refine absurd hsteers (Bool.eq_false_iff.mp ?_)
      revert j
      simp only [Job.run, writeDown] at h
      repeat' split at h
    all_goals cases h
    all_goals simp [replying, Job.steers]

theorem steers_spawned : ∀ j ∈ (job.spawned e).flatten, j.steers = false := by
  intro j hj
  cases job
  case keepJournal run =>
    obtain rfl := List.mem_singleton.mp hj
    rfl
  case launch project run =>
    rcases List.mem_cons.mp hj with rfl | hj
    · rfl
    · obtain rfl := List.mem_singleton.mp hj
      rfl
  all_goals cases hj

/-! ## The set of projects -/

/-- What a job makes of the set of projects. -/
inductive Amends (ps : ProjectSet) : Job → ProjectSet → Prop
  /-- it stays as it is -/
  | kept {job : Job} : (∀ id revision, job ≠ .noteStarted id revision) → Amends ps job ps
  /-- a project is taken up -/
  | upserted (p : Project) : Amends ps (.upsert p) (ps.upsert p)
  /-- a project is wanted otherwise -/
  | wished {id : String} {entry : ProjectEntry} (desired : Desired) : ps.find? id = some entry →
      Amends ps (.setDesired id desired)
        (ps.put id { entry with project := { entry.project with desired := desired } })
  /-- a project is forgotten -/
  | forgotten {id : String} {entry : ProjectEntry} : ps.find? id = some entry →
      Amends ps (.forget id) (ps.erase id)
  /-- it is noted from which revision a project was started -/
  | noted (id : String) (revision : Nat) :
      Amends ps (.noteStarted id revision) (ps.noteStarted id revision)

theorem Amends.tidy {ps ps' : ProjectSet} {job : Job} (ha : Amends ps job ps') (ht : ps.Tidy) :
    ps'.Tidy := by
  cases ha with
  | kept => exact ht
  | upserted p =>
    unfold ProjectSet.upsert
    split
    · exact ht.put rfl
    · exact ht.put rfl
  | wished desired hf =>
    have hid := ht.named hf
    exact ht.put hid
  | forgotten => exact ht.erase _
  | noted id revision =>
    unfold ProjectSet.noteStarted
    split
    · next entry hf =>
      have hid := ht.named hf
      exact ht.put hid
    · exact ht

/-- A project is gone only if it was forgotten. -/
theorem Amends.gone {ps ps' : ProjectSet} {job : Job} (ha : Amends ps job ps') {project : String}
    (hgone : ps'.find? project = none) :
    ps.find? project = none ∨
      job = .forget project ∧ ∃ entry, ps.find? project = some entry := by
  cases hp : ps.find? project with
  | none => exact Or.inl rfl
  | some entry =>
    refine Or.inr ?_
    cases ha with
    | kept => cases hgone.symm.trans hp
    | upserted p =>
      unfold ProjectSet.upsert at hgone
      split at hgone
      all_goals
        rw [Fields.find?_put] at hgone
        split at hgone
        · cases hgone
        · cases hgone.symm.trans hp
    | wished desired hf =>
      rw [Fields.find?_put] at hgone
      split at hgone
      · cases hgone
      · cases hgone.symm.trans hp
    | @forgotten id _ hf =>
      rw [Fields.find?_erase] at hgone
      split at hgone
      · next heq =>
        subst heq
        exact ⟨rfl, entry, rfl⟩
      · cases hgone.symm.trans hp
    | noted id revision =>
      unfold ProjectSet.noteStarted at hgone
      split at hgone
      · rw [Fields.find?_put] at hgone
        split at hgone
        · cases hgone
        · cases hgone.symm.trans hp
      · cases hgone.symm.trans hp

/-- What jobs other than those of the coordinator leave as it was. -/
structure Apart (e e₁ : Engine) : Prop where
  /-- the projects -/
  projects : e₁.projects = e.projects
  /-- where they are read from -/
  source : e₁.source = e.source

/-- A job that does not deal with the set of projects leaves it alone. -/
theorem run_apart (h : job.run s e = some (next, e₁)) (hedits : job.edits = false)
    (hnote : ∀ id revision, job ≠ .noteStarted id revision) : Apart e e₁ := by
  cases run_cases h with
  | aside ha =>
    cases job
    all_goals first
      | cases ha; done
      | cases hedits; done
      | exact absurd rfl (hnote _ _)
      | skip
    all_goals
      simp only [Job.run, writeDown] at h
      repeat' split at h
    all_goals cases h
    all_goals exact ⟨rfl, rfl⟩
  | stopped =>
    split
    · obtain ⟨walks, heq⟩ := (e.readClock s).2.cancel_eq _
      rw [heq]
      exact ⟨rfl, rfl⟩
    · exact ⟨rfl, rfl⟩
  | followed hf => cases hf <;> exact ⟨rfl, rfl⟩
  | settled hs => cases hs <;> exact ⟨rfl, rfl⟩
  | _ => exact ⟨rfl, rfl⟩

/-- **The set of projects**: what a job makes of it, and where projects are read from stays. -/
theorem run_projects (h : job.run s e = some (next, e₁)) :
    Amends e.projects job e₁.projects ∧ e₁.source = e.source := by
  have hapart : job.edits = false → (∀ id revision, job ≠ .noteStarted id revision) →
      Amends e.projects job e₁.projects ∧ e₁.source = e.source := by
    intro hedits hnote
    have ha := run_apart h hedits hnote
    rw [ha.projects]
    exact ⟨.kept hnote, ha.source⟩
  cases job
  case upsert p =>
    cases h
    exact ⟨.upserted p, rfl⟩
  case noteStarted id revision =>
    cases h
    exact ⟨.noted id revision, rfl⟩
  case setDesired id desired =>
    simp only [Job.run, ProjectSet.setDesired] at h
    cases hf : e.projects.find? id with
    | none =>
      rw [hf] at h
      cases h
      exact ⟨.kept (by rintro _ _ ⟨⟩), rfl⟩
    | some entry =>
      rw [hf] at h
      cases h
      exact ⟨.wished desired hf, rfl⟩
  case forget id =>
    simp only [Job.run, ProjectSet.remove] at h
    cases hf : e.projects.find? id with
    | none =>
      rw [hf] at h
      cases h
      exact ⟨.kept (by rintro _ _ ⟨⟩), rfl⟩
    | some entry =>
      rw [hf] at h
      cases h
      exact ⟨.forgotten hf, rfl⟩
  all_goals exact hapart rfl (by rintro _ _ ⟨⟩)

/-- A project that is forgotten leaves its run to be stopped. -/
theorem mem_forget {project : String} (h : (Job.forget project).run s e = some (next, e₁))
    {entry : ProjectEntry} (hf : e.projects.find? project = some entry) :
    .stopActive project ∈ next := by
  simp only [Job.run, ProjectSet.remove, hf] at h
  cases h
  exact List.mem_cons_self

/-- The active run that is found is to be stopped. -/
theorem mem_stopActive {project : String} (h : (Job.stopActive project).run s e = some (next, e₁))
    {r : RunRecord} (hr : e.table.active? project = some r) : .stop r.runId ∈ next := by
  simp only [Job.run, hr] at h
  cases h
  exact List.mem_cons_self

end Work

/-- A deed that is no work of a task leaves the projects alone, and gives them no source. -/
theorem roam_apart {s : Settings} {e e' : Engine} {d : Deed} (hw : ∀ id, d ≠ .work id)
    (h : e.roam s d = some e') :
    e'.projects = e.projects ∧ (e.source = none → e'.source = none) := by
  cases d
  case work id => exact absurd rfl (hw id)
  case ask c =>
    cases h
    exact ⟨rfl, id⟩
  all_goals
    simp only [roam, after] at h
    repeat' split at h
  all_goals cases h
  case edit.isTrue hsome =>
    refine ⟨rfl, fun hnone => ?_⟩
    rw [hnone] at hsome
    cases hsome
  all_goals exact ⟨rfl, id⟩

end Engine

end Workflow
