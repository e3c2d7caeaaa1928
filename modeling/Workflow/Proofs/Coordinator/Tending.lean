import Workflow.Proofs.Coordinator.Steering
import Workflow.Proofs.Sameness

/-!
# Tending projects

Clients of a coordinator call one after the other: each call is served to its end before the next
one (`Serves`), while runs go on, are watched and come to their ends. `Tended` are the engines that
a coordinator without a source comes to in that way.

What holds of all of them (`Governed`) ties three things together: the revision that a project was
started from, its latest revision, and what its active run runs. As long as the two revisions are
the same, the run runs the definition that the project has now, or one that is the same value by
value. It is kept because what is planned is carried out before anything else is asked for, so
whatever is left to be started or noted is still up to date (`Governed.work`).
-/

namespace Workflow.Engine

open Engine.Job

/-! ## Calls one after the other -/

/-- Whether a deed goes by the way: it is no call that steers. -/
def Deed.isByTheWay : Deed → Bool
  | .ask c => !c.jobs.any Job.steers
  | _ => true

/-- Whether clients of a coordinator call so: they do not start runs themselves, and do not shut
down. -/
def Call.tends : Call → Bool
  | start .. | shutDown => false
  | _ => true

/-- A call is served to its end, and all else that happens meanwhile goes by the way. -/
structure Serves (s : Settings) (c : Call) (e : Engine) (l : List Moment) (e' : Engine) : Prop where
  /-- what happens after the call came -/
  course : Roams s (e.ask c.jobs) l e'
  /-- nobody else steers -/
  aside : ∀ m ∈ l, m.deed.isByTheWay = true
  /-- the task of the call is done -/
  isDone : e'.isDone e.nextTask = true

/-- What a coordinator without a source comes to by calls one after the other. -/
inductive Tended (s : Settings) : Engine → Prop
  /-- nobody has called yet -/
  | fresh (file : Stored) (buffer busCapacity : Nat) :
      Tended s (Engine.fresh file none buffer busCapacity)
  /-- runs go on by themselves -/
  | meanwhile {e e' : Engine} {d : Deed} : Tended s e → d.isByTheWay = true →
      e.roam s d = some e' → Tended s e'
  /-- a call was served -/
  | called {c : Call} {e e' : Engine} {l : List Moment} : Tended s e → c.tends = true →
      Serves s c e l e' → Tended s e'

/-! ## What is left to steer -/

/-- The jobs left that steer. -/
def steering (e : Engine) : List Job := e.pending.filter Job.steers

/-- What steering is about. -/
structure View where
  /-- the runs that are known -/
  table : RunTable
  /-- the projects that are looked after -/
  projects : ProjectSet
  /-- the jobs left that steer -/
  steering : List Job

/-- What steering is about in an engine. -/
def view (e : Engine) : View := ⟨e.table, e.projects, e.steering⟩

theorem mem_steering {e : Engine} {j : Job} :
    j ∈ e.steering ↔ j ∈ e.pending ∧ j.steers = true := List.mem_filter

section Work

variable {s : Settings} {e e₁ : Engine} {id : Nat} {job : Job} {rest next : List Job}
  {reply : Option Reply}

/-- A job that steers is replaced by those it leaves to do; all other jobs leave none. -/
theorem steering_work (hn : e.Numbered) (ht : e.task? id = some ⟨job :: rest, reply⟩)
    (h : job.run s e = some (next, e₁)) (reply' : Option Reply) :
    ([job].filter Job.steers ++ (e₁.setTask id ⟨next ++ rest, reply'⟩).steering).Perm
      (e.steering ++ next.filter Job.steers) := by
  have hperm := (pending_advance hn ht h reply').filter Job.steers
  have hspawned : (job.spawned e).flatten.filter Job.steers = [] :=
    List.filter_eq_nil_iff.mpr fun j hj => Bool.eq_false_iff.mp (steers_spawned j hj)
  rw [List.filter_append, List.filter_append, hspawned, List.append_nil] at hperm
  refine List.Perm.trans (List.Perm.of_eq ?_) hperm
  rw [List.filter_cons]
  cases hj : job.steers <;> simp [hj, steering]

theorem steering_aside (hn : e.Numbered) (ht : e.task? id = some ⟨job :: rest, reply⟩)
    (h : job.run s e = some (next, e₁)) (reply' : Option Reply) (hj : job.steers = false) :
    (e₁.setTask id ⟨next ++ rest, reply'⟩).steering.Perm e.steering := by
  have hperm := steering_work hn ht h reply'
  have hnext : next.filter Job.steers = [] := by
    refine List.filter_eq_nil_iff.mpr fun j hmem hsteers => ?_
    cases steers_next h hmem hsteers <;> cases hj
  have hnot : ¬ job.steers = true := by
    rw [hj]
    exact Bool.false_ne_true
  rw [hnext, List.append_nil, List.filter_cons_of_neg hnot] at hperm
  exact hperm

theorem steering_next (hn : e.Numbered) (ht : e.task? id = some ⟨job :: rest, reply⟩)
    (h : job.run s e = some (next, e₁)) (reply' : Option Reply) (hj : job.steers = true) :
    (job :: (e₁.setTask id ⟨next ++ rest, reply'⟩).steering).Perm
      (e.steering ++ next.filter Job.steers) := by
  have hperm := steering_work hn ht h reply'
  rw [List.filter_cons_of_pos hj] at hperm
  exact hperm

/-- Where the steering jobs left come from. -/
theorem mem_steering_work (hn : e.Numbered) (ht : e.task? id = some ⟨job :: rest, reply⟩)
    (h : job.run s e = some (next, e₁)) {reply' : Option Reply} {j : Job}
    (hj : j ∈ (e₁.setTask id ⟨next ++ rest, reply'⟩).steering) :
    j ∈ e.steering ∨ Steers s e job j := by
  have hmem := (steering_work hn ht h reply').mem_iff.mp (List.mem_append_right _ hj)
  refine (List.mem_append.mp hmem).imp_right fun hnext => ?_
  obtain ⟨hnext, hsteers⟩ := List.mem_filter.mp hnext
  exact steers_next h hnext hsteers

/-- A steering job that is left or comes is done or left after that. -/
theorem steering_stays (hn : e.Numbered) (ht : e.task? id = some ⟨job :: rest, reply⟩)
    (h : job.run s e = some (next, e₁)) (reply' : Option Reply) {j : Job}
    (hj : j ∈ e.steering ∨ j ∈ next ∧ j.steers = true) :
    j = job ∨ j ∈ (e₁.setTask id ⟨next ++ rest, reply'⟩).steering := by
  have hmem : j ∈ e.steering ++ next.filter Job.steers := by
    rcases hj with hj | hj
    · exact List.mem_append_left _ hj
    · exact List.mem_append_right _ (List.mem_filter.mpr hj)
  have hwork := (steering_work hn ht h reply').mem_iff.mpr hmem
  refine (List.mem_append.mp hwork).imp_left fun hj => ?_
  exact List.mem_singleton.mp (List.mem_filter.mp hj).1

end Work

/-! ## The set of projects while nothing is edited -/

/-- What a job notes of a project. -/
def Job.noting (id : String) (entry : ProjectEntry) : Job → ProjectEntry
  | noteStarted p revision => if p = id then { entry with started := some revision } else entry
  | _ => entry

@[simp] theorem noting_project (job : Job) (id : String) (entry : ProjectEntry) :
    (job.noting id entry).project = entry.project := by
  unfold Job.noting
  split
  · split <;> rfl
  · rfl

@[simp] theorem noting_revision (job : Job) (id : String) (entry : ProjectEntry) :
    (job.noting id entry).revision = entry.revision := by
  unfold Job.noting
  split
  · split <;> rfl
  · rfl

/-- From which revision a project was started changes only when it is noted. -/
theorem noting_started (job : Job) (id : String) (entry : ProjectEntry) :
    (job.noting id entry).started = entry.started ∨
      ∃ revision, job = .noteStarted id revision ∧
        (job.noting id entry).started = some revision := by
  unfold Job.noting
  split
  · next p revision =>
    split
    · next heq => exact Or.inr ⟨revision, by rw [heq], rfl⟩
    · exact Or.inl rfl
  · exact Or.inl rfl

/-- A job that does not edit leaves all projects as they are, but for what it notes. -/
theorem Amends.find?_eq {ps ps' : ProjectSet} {job : Job} (ha : Amends ps job ps')
    (hedits : job.edits = false) (id : String) :
    ps'.find? id = (ps.find? id).map fun entry => job.noting id entry := by
  cases ha with
  | kept hnote =>
    have hsame : (fun entry => job.noting id entry) = fun entry => entry := by
      funext entry
      cases job <;> first | rfl | exact absurd rfl (hnote _ _)
    rw [hsame, Option.map_id']
  | upserted => cases hedits
  | wished => cases hedits
  | forgotten => cases hedits
  | noted p revision =>
    unfold ProjectSet.noteStarted
    split
    · next entry hf =>
      rw [Fields.find?_put]
      split
      · next heq =>
        subst heq
        simp [hf, Job.noting]
      · next hne => simp [Job.noting, hne]
    · next hnone =>
      cases hf : ps.find? id with
      | none => rfl
      | some entry =>
        have hne : p ≠ id := by
          rintro rfl
          cases hnone.symm.trans hf
        simp [Job.noting, hne]

/-- A project is there after the job as it was before, but for what is noted. -/
theorem Amends.back {ps ps' : ProjectSet} {job : Job} (ha : Amends ps job ps')
    (hedits : job.edits = false) {id : String} {entry' : ProjectEntry}
    (hf : ps'.find? id = some entry') :
    ∃ entry, ps.find? id = some entry ∧ entry' = job.noting id entry := by
  rw [ha.find?_eq hedits, Option.map_eq_some_iff] at hf
  obtain ⟨entry, hf, rfl⟩ := hf
  exact ⟨entry, hf, rfl⟩

theorem Amends.forth {ps ps' : ProjectSet} {job : Job} (ha : Amends ps job ps')
    (hedits : job.edits = false) {id : String} {entry : ProjectEntry}
    (hf : ps.find? id = some entry) : ps'.find? id = some (job.noting id entry) := by
  rw [ha.find?_eq hedits, hf]
  rfl

/-! ## The invariant -/

/-- Whether a job may be left while a coordinator without a source is tended. -/
def Job.tends : Job → Bool
  | dropMissing _ | shutDown => false
  | _ => true

/-- The project that a job is about to start, and what its run will run. -/
def Job.starts? : Job → Option (String × Definition)
  | beginStart project definition _ | findActive project definition _
  | enrol project definition _ => some (project, definition)
  | _ => none

theorem Job.steers_of_starts {j : Job} {x : String × Definition} (h : j.starts? = some x) :
    j.steers = true := by
  cases j <;> first | rfl | cases h

/-- That a run runs a definition, or one that is the same value by value. -/
def Carries (r : RunRecord) (d : Definition) : Prop :=
  ∃ d₀ : Definition, d₀.Alike d ∧ r.nodes = some d₀.nodes ∧ r.edges = some d₀.edges

theorem Carries.of_eq {r r' : RunRecord} {d : Definition} (h : Carries r d)
    (hnodes : r.nodes = r'.nodes) (hedges : r.edges = r'.edges) : Carries r' d := by
  obtain ⟨d₀, halike, hn, he⟩ := h
  exact ⟨d₀, halike, hnodes ▸ hn, hedges ▸ he⟩

/-- What holds of all that a coordinator comes to which is tended. -/
structure Governed (s : Settings) (e : Engine) : Prop where
  /-- active runs were enlisted, and are alone -/
  enlisted : Enlisted s e
  /-- projects stand under their ids -/
  tidy : e.projects.Tidy
  /-- no project comes from a source -/
  source : e.source = none
  /-- a project was not started from a revision to come -/
  dated : ∀ {id entry k}, e.projects.find? id = some entry → entry.started = some k →
    k ≤ entry.revision
  /-- an active run that was started from the latest revision runs what the project is now -/
  carries : ∀ {run h entry}, e.table.find? run = some h → h.record.status.isActive = true →
    e.projects.find? h.record.projectId = some entry → entry.started = some entry.revision →
    Carries h.record entry.project.definition
  /-- an active run of a project that was forgotten is to be stopped -/
  owned : ∀ {run h}, e.table.find? run = some h → h.record.status.isActive = true →
    e.projects.find? h.record.projectId = none →
    .stopActive h.record.projectId ∈ e.steering ∨ .stop run ∈ e.steering
  /-- while something is edited nothing else is to be done -/
  sole : ∀ j ∈ e.steering, j.edits = true → e.steering = [j]
  /-- nobody shuts down, and nothing comes from a source -/
  tends : ∀ j ∈ e.steering, j.tends = true
  /-- what is to be started is up to date -/
  starts : ∀ j ∈ e.steering, ∀ {project definition}, j.starts? = some (project, definition) →
    ∃ entry, e.projects.find? project = some entry ∧ definition = entry.project.definition
  /-- what is to be noted is up to date, and the runs of which it is to be noted run what the
  project is now -/
  notes : ∀ {project revision}, .noteStarted project revision ∈ e.steering →
    ∃ entry, e.projects.find? project = some entry ∧ revision = entry.revision ∧
      ∀ {run h}, e.table.find? run = some h → h.record.status.isActive = true →
        h.record.projectId = project → Carries h.record entry.project.definition

section CarryingOut

variable {s : Settings} {e e₁ : Engine} {id : Nat} {job : Job} {rest next : List Job}
  {reply reply' : Option Reply}

/-- Where the steering jobs left come from while projects are tended. -/
theorem Governed.came (hg : Governed s e) (ht : e.task? id = some ⟨job :: rest, reply⟩)
    (h : job.run s e = some (next, e₁)) {j : Job}
    (hj : j ∈ (e₁.setTask id ⟨next ++ rest, reply'⟩).steering) :
    j ∈ e.steering ∨ Steers s e job j ∧ job.tends = true ∧ job ≠ .loadProjects := by
  refine (mem_steering_work hg.enlisted.numbered ht h hj).imp_right fun hsteers => ?_
  refine ⟨hsteers, ?_, ?_⟩
  · refine hg.tends job (mem_steering.mpr ⟨mem_pending ht List.mem_cons_self, ?_⟩)
    cases hsteers <;> rfl
  · rintro rfl
    cases hsteers with
    | load _ hsome => exact hsome hg.source

/-- A project that is to be started is known, and up to date. -/
theorem Governed.start (hg : Governed s e) (ht : e.task? id = some ⟨job :: rest, reply⟩)
    {project : String} {definition : Definition}
    (hstarts : job.starts? = some (project, definition)) :
    ∃ entry, e.projects.find? project = some entry ∧ definition = entry.project.definition :=
  hg.starts job
    (mem_steering.mpr ⟨mem_pending ht List.mem_cons_self, Job.steers_of_starts hstarts⟩) hstarts

theorem Governed.sole_work (hg : Governed s e) (ht : e.task? id = some ⟨job :: rest, reply⟩)
    (h : job.run s e = some (next, e₁)) (hedits : job.edits = false) {j : Job}
    (hj : j ∈ (e₁.setTask id ⟨next ++ rest, reply'⟩).steering) (hje : j.edits = true) :
    (e₁.setTask id ⟨next ++ rest, reply'⟩).steering = [j] := by
  have hold : j ∈ e.steering := by
    refine (hg.came ht h hj).resolve_right fun ⟨hsteers, htends, hload⟩ => ?_
    cases hsteers with
    | shut => cases htends
    | drop => cases htends
    | load => exact hload rfl
    | _ => cases hje
  have hsole := hg.sole j hold hje
  cases hsteers : job.steers with
  | true =>
    have hmem : job ∈ e.steering := mem_steering.mpr ⟨mem_pending ht List.mem_cons_self, hsteers⟩
    rw [hsole, List.mem_singleton] at hmem
    subst hmem
    cases hje.symm.trans hedits
  | false =>
    have hperm := steering_aside hg.enlisted.numbered ht h reply' hsteers
    rw [hsole] at hperm
    exact List.perm_singleton.mp hperm

theorem Governed.owned_work (hg : Governed s e) (ht : e.task? id = some ⟨job :: rest, reply⟩)
    (h : job.run s e = some (next, e₁)) {run : String} {handle : Handle}
    (hf : e₁.table.find? run = some handle) (ha : handle.record.status.isActive = true)
    (habsent : e.projects.find? handle.record.projectId = none) :
    .stopActive handle.record.projectId ∈ (e₁.setTask id ⟨next ++ rest, reply'⟩).steering ∨
      .stop run ∈ (e₁.setTask id ⟨next ++ rest, reply'⟩).steering := by
  have he := hg.enlisted
  have hstays := fun j => steering_stays he.numbered ht h reply' (j := j)
  rcases he.origin (mem_pending ht List.mem_cons_self) h hf ha with
    ⟨old, hold, hactive, hproject, -⟩ | ⟨definition, vars, rfl, -⟩
  · rw [← hproject] at habsent ⊢
    rcases hg.owned hold hactive habsent with hstop | hstop
    · rcases hstays _ (Or.inl hstop) with rfl | hleft
      · have hmem := mem_stopActive h (he.active?_eq hold hactive)
        rw [he.single.tidy.named hold] at hmem
        exact Or.inr ((hstays _ (Or.inr ⟨hmem, rfl⟩)).resolve_left nofun)
      · exact Or.inl hleft
    · rcases hstays _ (Or.inl hstop) with rfl | hleft
      · exact nomatch ha.symm.trans (stop_inactive h hf)
      · exact Or.inr hleft
  · obtain ⟨entry, hp, -⟩ := hg.start ht rfl
    cases habsent.symm.trans hp

/-- An active run after a job was active before and runs the same, or it was enlisted just now and
runs what its project is. -/
theorem Governed.running (hg : Governed s e) (ht : e.task? id = some ⟨job :: rest, reply⟩)
    (h : job.run s e = some (next, e₁)) {run : String} {handle : Handle}
    (hf : e₁.table.find? run = some handle) (ha : handle.record.status.isActive = true)
    {entry : ProjectEntry} (hp : e.projects.find? handle.record.projectId = some entry) :
    (∃ old, e.table.find? run = some old ∧ old.record.status.isActive = true ∧
        old.record.projectId = handle.record.projectId ∧
        ∀ d, Carries old.record d → Carries handle.record d) ∨
      Carries handle.record entry.project.definition := by
  rcases hg.enlisted.origin (mem_pending ht List.mem_cons_self) h hf ha with
    ⟨old, hold, hactive, hproject, hnodes, hedges⟩ | ⟨definition, vars, rfl, rfl, hnodes, hedges⟩
  · exact Or.inl ⟨old, hold, hactive, hproject, fun d hd => hd.of_eq hnodes hedges⟩
  · obtain ⟨entry', hp', rfl⟩ := hg.start ht rfl
    cases hp.symm.trans hp'
    exact Or.inr ⟨_, .refl _, hnodes, hedges⟩

theorem Governed.carries_work (hg : Governed s e) (ht : e.task? id = some ⟨job :: rest, reply⟩)
    (h : job.run s e = some (next, e₁)) {run : String} {handle : Handle}
    (hf : e₁.table.find? run = some handle) (ha : handle.record.status.isActive = true)
    {entry : ProjectEntry} (hp : e.projects.find? handle.record.projectId = some entry)
    (hstarted : (job.noting handle.record.projectId entry).started = some entry.revision) :
    Carries handle.record entry.project.definition := by
  rcases hg.running ht h hf ha hp with ⟨old, hold, hactive, hproject, hsame⟩ | hnew
  · refine hsame _ ?_
    rcases noting_started job handle.record.projectId entry with hkept | ⟨revision, rfl, -⟩
    · rw [hkept] at hstarted
      exact hg.carries hold hactive (hproject ▸ hp) hstarted
    · obtain ⟨entry', hp', -, hruns⟩ :=
        hg.notes (mem_steering.mpr ⟨mem_pending ht List.mem_cons_self, rfl⟩)
      cases hp.symm.trans hp'
      exact hruns hold hactive hproject
  · exact hnew

theorem Governed.starts_work (hg : Governed s e) (ht : e.task? id = some ⟨job :: rest, reply⟩)
    (h : job.run s e = some (next, e₁)) {j : Job}
    (hj : j ∈ (e₁.setTask id ⟨next ++ rest, reply'⟩).steering) {project : String}
    {definition : Definition} (hstarts : j.starts? = some (project, definition)) :
    ∃ entry, e.projects.find? project = some entry ∧ definition = entry.project.definition := by
  rcases hg.came ht h hj with hold | ⟨hsteers, htends, hload⟩
  · exact hg.starts j hold hstarts
  · cases hsteers with
    | find => exact hg.start ht hstarts
    | enrol => exact hg.start ht hstarts
    | start hmem =>
      cases hstarts
      have hf := hg.tidy.sorted.find?_of_mem hmem
      rw [hg.tidy.named hf]
      exact ⟨_, hf, rfl⟩
    | shut => cases htends
    | drop => cases htends
    | load => exact absurd rfl hload
    | _ => cases hstarts

theorem Governed.notes_work (hg : Governed s e) (ht : e.task? id = some ⟨job :: rest, reply⟩)
    (h : job.run s e = some (next, e₁)) {project : String} {revision : Nat}
    (hj : .noteStarted project revision ∈ (e₁.setTask id ⟨next ++ rest, reply'⟩).steering) :
    ∃ entry, e.projects.find? project = some entry ∧ revision = entry.revision ∧
      ∀ {run h}, e.table.find? run = some h → h.record.status.isActive = true →
        h.record.projectId = project → Carries h.record entry.project.definition := by
  rcases hg.came ht h hj with hold | ⟨hsteers, htends, hload⟩
  · exact hg.notes hold
  · cases hsteers with
    | note hmem _ hnone =>
      have hf := hg.tidy.sorted.find?_of_mem hmem
      rw [hg.tidy.named hf]
      refine ⟨_, hf, rfl, fun hold hactive hproject => ?_⟩
      -- what is noted is planned only for projects without an active run
      rw [← hproject, hg.enlisted.active?_eq hold hactive] at hnone
      cases hnone
    | shut => cases htends
    | drop => cases htends
    | load => exact absurd rfl hload

/-- **Carrying out**: the set of projects stays but for what is noted. -/
theorem Governed.carryOut (hg : Governed s e) (ht : e.task? id = some ⟨job :: rest, reply⟩)
    (h : job.run s e = some (next, e₁)) (hedits : job.edits = false)
    (henlisted : Enlisted s (e₁.setTask id ⟨next ++ rest, reply'⟩)) :
    Governed s (e₁.setTask id ⟨next ++ rest, reply'⟩) := by
  obtain ⟨hamends, hsource⟩ := run_projects h
  refine ⟨henlisted, hamends.tidy hg.tidy, hsource.trans hg.source, ?_, ?_, ?_,
    fun j hj => hg.sole_work ht h hedits hj, ?_, ?_, ?_⟩
  · intro id entry' k hf hk
    obtain ⟨entry, hold, rfl⟩ := hamends.back hedits hf
    rw [noting_revision]
    rcases noting_started job id entry with hsame | ⟨revision, rfl, hnew⟩
    · rw [hsame] at hk
      exact hg.dated hold hk
    · obtain ⟨entry', hold', rfl, -⟩ :=
        hg.notes (mem_steering.mpr ⟨mem_pending ht List.mem_cons_self, rfl⟩)
      cases hold.symm.trans hold'
      cases hnew.symm.trans hk
      exact Nat.le_refl _
  · intro run handle entry' hf ha hp hstarted
    obtain ⟨entry, hold, rfl⟩ := hamends.back hedits hp
    rw [noting_revision] at hstarted
    rw [noting_project]
    exact hg.carries_work ht h hf ha hold hstarted
  · intro run handle hf ha habsent
    have hnone : e₁.projects.find? handle.record.projectId = none := habsent
    rw [hamends.find?_eq hedits, Option.map_eq_none_iff] at hnone
    exact hg.owned_work ht h hf ha hnone
  · intro j hj
    rcases hg.came ht h hj with hold | ⟨hsteers, htends, hload⟩
    · exact hg.tends j hold
    · cases hsteers with
      | shut => cases htends
      | drop => cases htends
      | load => exact absurd rfl hload
      | _ => rfl
  · intro j hj project definition hstarts
    obtain ⟨entry, hf, rfl⟩ := hg.starts_work ht h hj hstarts
    exact ⟨_, hamends.forth hedits hf, by rw [noting_project]⟩
  · intro project revision hj
    obtain ⟨entry, hp, rfl, hruns⟩ := hg.notes_work ht h hj
    refine ⟨_, hamends.forth hedits hp, (noting_revision ..).symm, ?_⟩
    intro run handle hf ha hproject
    rw [noting_project]
    subst hproject
    rcases hg.running ht h hf ha hp with ⟨old, hold, hactive, hsame, hcarries⟩ | hnew
    · exact hcarries _ (hruns hold hactive hsame)
    · exact hnew

end CarryingOut

/-- What becomes of a project that is edited: if its definition was changed it has a new revision,
and otherwise its definition is alike. -/
theorem Amends.entry {ps ps' : ProjectSet} {job : Job} (ha : Amends ps job ps')
    (hedits : job.edits = true) {id : String} {entry' : ProjectEntry}
    (hf : ps'.find? id = some entry') :
    entry'.started = none ∨ ∃ entry, ps.find? id = some entry ∧ entry'.started = entry.started ∧
      (entry'.revision = entry.revision ∧
          entry.project.definition.Alike entry'.project.definition ∨
        entry'.revision = entry.revision + 1) := by
  -- a project that is not the one edited
  have hother : ps.find? id = some entry' → ∃ entry, ps.find? id = some entry ∧
      entry'.started = entry.started ∧ (entry'.revision = entry.revision ∧
          entry.project.definition.Alike entry'.project.definition ∨
        entry'.revision = entry.revision + 1) :=
    fun hf => ⟨entry', hf, rfl, Or.inl ⟨rfl, .refl _⟩⟩
  cases ha with
  | kept => exact Or.inr (hother hf)
  | noted => cases hedits
  | upserted p =>
    unfold ProjectSet.upsert at hf
    split at hf
    · next entry hold =>
      rw [Fields.find?_put] at hf
      split at hf
      · next heq =>
        subst heq
        cases hf
        refine Or.inr ⟨entry, hold, rfl, ?_⟩
        unfold ProjectEntry.revise
        dsimp only
        split
        · next hsame => exact Or.inl ⟨rfl, Or.inr hsame⟩
        · exact Or.inr rfl
      · exact Or.inr (hother hf)
    · rw [Fields.find?_put] at hf
      split at hf
      · cases hf
        exact Or.inl rfl
      · exact Or.inr (hother hf)
  | @wished _ entry desired hold =>
    rw [Fields.find?_put] at hf
    split at hf
    · next heq =>
      subst heq
      cases hf
      exact Or.inr ⟨entry, hold, rfl, Or.inl ⟨rfl, .refl _⟩⟩
    · exact Or.inr (hother hf)
  | forgotten =>
    rw [Fields.find?_erase] at hf
    split at hf
    · cases hf
    · exact Or.inr (hother hf)

section Editing

variable {s : Settings} {e e₁ e' : Engine} {id : Nat} {job : Job} {rest next : List Job}
  {reply reply' : Option Reply}

/-- While something is edited, what is left to steer after it is to stop the run of a project that
was forgotten. -/
theorem Governed.edited (hg : Governed s e) (ht : e.task? id = some ⟨job :: rest, reply⟩)
    (h : job.run s e = some (next, e₁)) (hedits : job.edits = true) {j : Job}
    (hj : j ∈ (e₁.setTask id ⟨next ++ rest, reply'⟩).steering) :
    ∃ project, job = .forget project ∧ j = .stopActive project := by
  have hsteers := Job.steers_of_edits hedits
  have hsole := hg.sole job (mem_steering.mpr ⟨mem_pending ht List.mem_cons_self, hsteers⟩) hedits
  have hperm := steering_next hg.enlisted.numbered ht h reply' hsteers
  rw [hsole] at hperm
  obtain ⟨hnext, hjs⟩ := List.mem_filter.mp ((hperm.cons_inv).mem_iff.mp hj)
  cases steers_next h hnext hjs with
  | @disown project => exact ⟨project, rfl, rfl⟩
  | _ => cases hedits

/-- **Editing**: the set of projects changes while nothing else is to be done. -/
theorem Governed.edit (hg : Governed s e) (ht : e.task? id = some ⟨job :: rest, reply⟩)
    (h : job.run s e = some (next, e₁)) (hedits : job.edits = true)
    (henlisted : Enlisted s (e₁.setTask id ⟨next ++ rest, reply'⟩)) :
    Governed s (e₁.setTask id ⟨next ++ rest, reply'⟩) := by
  obtain ⟨hamends, hsource⟩ := run_projects h
  have htable : e₁.table = e.table := by
    refine (aside_frame ?_ h).table
    cases job <;> first | rfl | cases hedits
  have hjob : job ∈ e.steering :=
    mem_steering.mpr ⟨mem_pending ht List.mem_cons_self, Job.steers_of_edits hedits⟩
  have hedited : ∀ j ∈ (e₁.setTask id ⟨next ++ rest, reply'⟩).steering,
      ∃ project, job = .forget project ∧ j = .stopActive project :=
    fun _ => hg.edited ht h hedits
  refine ⟨henlisted, hamends.tidy hg.tidy, hsource.trans hg.source, ?_, ?_, ?_, ?_, ?_, ?_, ?_⟩
  · intro id entry' k hf hk
    rcases hamends.entry hedits hf with hnone | ⟨entry, hold, hstarted, hrevision⟩
    · cases hnone.symm.trans hk
    · rw [hstarted] at hk
      have hle := hg.dated hold hk
      omega
  · intro run handle entry' hf ha hp hstarted'
    change e₁.table.find? run = some handle at hf
    rw [htable] at hf
    rcases hamends.entry hedits hp with hnone | ⟨entry, hold, hstarted, hrevision⟩
    · cases hnone.symm.trans hstarted'
    · rw [hstarted] at hstarted'
      have hle := hg.dated hold hstarted'
      rcases hrevision with ⟨hsame, halike⟩ | hmore
      · rw [hsame] at hstarted'
        obtain ⟨d₀, halike₀, hnodes, hedges⟩ := hg.carries hf ha hold hstarted'
        exact ⟨d₀, halike₀.trans halike, hnodes, hedges⟩
      · omega
  · intro run handle hf ha habsent
    change e₁.table.find? run = some handle at hf
    rw [htable] at hf
    rcases hamends.gone habsent with hgone | ⟨rfl, entry, hentry⟩
    · have hsole := hg.sole job hjob hedits
      rcases hg.owned hf ha hgone with hstop | hstop
      all_goals
        rw [hsole, List.mem_singleton] at hstop
        subst hstop
        cases hedits
    · have hstop := mem_forget h hentry
      exact Or.inl ((steering_stays hg.enlisted.numbered ht h reply'
        (Or.inr ⟨hstop, rfl⟩)).resolve_left nofun)
  · intro j hj hje
    obtain ⟨_, -, rfl⟩ := hedited j hj
    cases hje
  · intro j hj
    obtain ⟨_, -, rfl⟩ := hedited j hj
    rfl
  · intro j hj project definition hstarts
    obtain ⟨_, -, rfl⟩ := hedited j hj
    cases hstarts
  · intro project revision hj
    obtain ⟨_, -, heq⟩ := hedited _ hj
    cases heq

/-! ## Deeds and calls -/

/-- What goes by the way and is no work of a task leaves all alone that steering is about. -/
theorem view_aside {d : Deed} (hn : e.Numbered) (hw : ∀ id, d ≠ .work id)
    (hd : e.roam s d = some e') (haside : d.isByTheWay = true) : e'.view = e.view := by
  unfold view
  rw [(roam_apart hw hd).1]
  cases roam_cases hn hd with
  | asked c =>
    have hnone : c.jobs.filter Job.steers = [] := by
      refine List.filter_eq_nil_iff.mpr fun j hj hsteers => ?_
      have hany := List.any_eq_true.mpr ⟨j, hj, hsteers⟩
      rw [Deed.isByTheWay, hany] at haside
      cases haside
    rw [steering, pending_ask, List.filter_append, hnone]
    rfl
  | worked => exact absurd rfl (hw _)
  | still _ hstill => rw [hstill.table, steering, hstill.pending, steering]

/-- The invariant depends on the runs, the projects and what is left to steer only. -/
theorem Governed.of_view (hg : Governed s e) (henlisted : Enlisted s e')
    (hsource : e'.source = none) (hview : e'.view = e.view) : Governed s e' := by
  obtain ⟨htable, hprojects, hsteering⟩ := View.mk.inj hview
  constructor
  · exact henlisted
  · exact hprojects ▸ hg.tidy
  · exact hsource
  · rw [hprojects]
    exact hg.dated
  · rw [hprojects, htable]
    exact hg.carries
  · rw [hprojects, htable, hsteering]
    exact hg.owned
  · rw [hsteering]
    exact hg.sole
  · rw [hsteering]
    exact hg.tends
  · rw [hsteering, hprojects]
    exact hg.starts
  · rw [hsteering, hprojects, htable]
    exact hg.notes

/-- **A step**: what goes by the way keeps the invariant, whatever is left to do. -/
theorem Governed.step (hg : Governed s e) {d : Deed} (hd : e.roam s d = some e')
    (haside : d.isByTheWay = true) : Governed s e' := by
  have hn := hg.enlisted.numbered
  have henlisted := hg.enlisted.step hd
  have hstill : (∀ id, d ≠ .work id) → Governed s e' := fun hw =>
    hg.of_view henlisted ((roam_apart hw hd).2 hg.source) (view_aside hn hw hd haside)
  cases roam_cases hn hd with
  | asked => exact hstill nofun
  | @worked id job rest next reply e₁ ht hrun =>
    cases hedits : job.edits with
    | true => exact hg.edit ht hrun hedits henlisted
    | false => exact hg.carryOut ht hrun hedits henlisted
  | still hw => exact hstill hw

/-- **A call** keeps the invariant if nothing is left to steer. -/
theorem Governed.ask (hg : Governed s e) (hidle : e.steering = []) {c : Call}
    (hc : c.tends = true) : Governed s (e.ask c.jobs) := by
  have henlisted : Enlisted s (e.ask c.jobs) := hg.enlisted.step (d := .ask c) rfl
  have hsteering : (e.ask c.jobs).steering = c.jobs.filter Job.steers := by
    rw [steering, pending_ask, List.filter_append]
    change _ ++ e.steering = _
    rw [hidle, List.append_nil]
  -- no call that clients make comes with more than one job that edits, starts or notes
  have hjobs : ∀ j ∈ c.jobs.filter Job.steers, j.tends = true ∧ j.starts? = none ∧
      (∀ project revision, j ≠ .noteStarted project revision) ∧
      (j.edits = true → c.jobs.filter Job.steers = [j]) := by
    intro j hj
    cases c with
    | start => cases hc
    | shutDown => cases hc
    | pass =>
      simp only [Call.jobs, passing, List.filter_cons, Job.steers, if_true, Bool.false_eq_true,
        if_false, List.filter_nil, List.mem_cons, List.not_mem_nil, or_false] at hj
      rcases hj with rfl | rfl <;> exact ⟨rfl, rfl, by rintro _ _ ⟨⟩, by rintro ⟨⟩⟩
    | send run m =>
      cases m with
      | stop =>
        obtain rfl := List.mem_singleton.mp hj
        exact ⟨rfl, rfl, by rintro _ _ ⟨⟩, by rintro ⟨⟩⟩
      | _ => cases hj
    | remove => cases hj
    | watch => cases hj
    | _ =>
      obtain rfl := List.mem_singleton.mp hj
      exact ⟨rfl, rfl, by rintro _ _ ⟨⟩, fun _ => rfl⟩
  constructor
  · exact henlisted
  · exact hg.tidy
  · exact hg.source
  · exact hg.dated
  · exact hg.carries
  · intro run h hf ha habsent
    rcases hg.owned hf ha habsent with hstop | hstop
    all_goals
      rw [hidle] at hstop
      cases hstop
  · intro j hj hje
    rw [hsteering] at hj ⊢
    exact (hjobs j hj).2.2.2 hje
  · intro j hj
    rw [hsteering] at hj
    exact (hjobs j hj).1
  · intro j hj project definition hstarts
    rw [hsteering] at hj
    cases (hjobs j hj).2.1.symm.trans hstarts
  · intro project revision hj
    rw [hsteering] at hj
    exact absurd rfl ((hjobs _ hj).2.2.1 project revision)

end Editing

theorem steering_fresh (file : Stored) (source : Option (Option (Fields String)))
    (buffer busCapacity : Nat) : (fresh file source buffer busCapacity).steering = [] := rfl

theorem governed_fresh (s : Settings) (file : Stored) (buffer busCapacity : Nat) :
    Governed s (fresh file none buffer busCapacity) := by
  have hnone : ∀ {j}, j ∉ (fresh file none buffer busCapacity).steering := by
    intro j hj
    rw [steering_fresh] at hj
    cases hj
  constructor
  · exact enlisted_fresh s file none buffer busCapacity
  · exact ⟨List.Pairwise.nil, fun hf => by cases hf⟩
  · rfl
  · exact fun hf => by cases hf
  · exact fun hf => by cases hf
  · exact fun hf => by cases hf
  · exact fun j hj => absurd hj hnone
  · exact fun j hj => absurd hj hnone
  · exact fun j hj => absurd hj hnone
  · exact fun hj => absurd hj hnone

/-! ## Served calls -/

/-- What every deed of a course keeps is kept all along. -/
theorem Roams.keeps {s : Settings} {P : Engine → Prop} {e₀ e : Engine} {l : List Moment}
    (h : Roams s e₀ l e) (h₀ : P e₀)
    (hstep : ∀ m ∈ l, ∀ e', P m.before → m.before.roam s m.deed = some e' → P e') : P e := by
  induction h with
  | nil => exact h₀
  | @snoc l e e' d _ hd ih =>
    have hbefore := ih fun m hm => hstep m (List.mem_append_left _ hm)
    exact hstep ⟨e, d⟩ (List.mem_append_right _ List.mem_cons_self) e' hbefore hd

/-- Only one task has jobs of some kind left. -/
def HeldBy (p : Job → Bool) (id : Nat) (e : Engine) : Prop :=
  ∀ x ∈ e.tasks, x.1 ≠ id → ∀ j ∈ x.2.left, p j = false

/-- Jobs that come only of their own kind stay with their task, as long as nobody asks for more. -/
theorem HeldBy.step {s : Settings} {p : Job → Bool} {id : Nat} {e e' : Engine} {d : Deed}
    (hnext : ∀ {job next e₁}, job.run s e = some (next, e₁) → ∀ j ∈ next, p j = true → p job = true)
    (hspawned : ∀ job : Job, ∀ j ∈ (job.spawned e).flatten, p j = false)
    (hn : e.Numbered) (h : e.HeldBy p id) (hd : e.roam s d = some e')
    (hasked : ∀ c, d = .ask c → ∀ j ∈ c.jobs, p j = false) : e'.HeldBy p id := by
  intro x hx hne j hj
  cases roam_cases hn hd with
  | asked c =>
    rcases List.mem_cons.mp hx with rfl | hx
    · exact hasked c rfl j hj
    · exact h x hx hne j hj
  | worked ht hrun =>
    rcases mem_tasks_advance hrun hx with rfl | hx | hx
    · have hold := h _ (task_mem ht) hne
      rcases List.mem_append.mp hj with hj | hj
      · refine Bool.eq_false_iff.mpr fun hp => ?_
        exact Bool.eq_false_iff.mp (hold _ List.mem_cons_self) (hnext hrun j hj hp)
      · exact hold j (List.mem_cons_of_mem _ hj)
    · exact h x hx hne j hj
    · exact hspawned _ j (List.mem_flatten.mpr ⟨_, hx, hj⟩)
  | still _ hstill => exact h x (hstill.tasks x hx) hne j hj

/-- What only one task may have is left to that task. -/
theorem HeldBy.left {p : Job → Bool} {id : Nat} {e : Engine} (hn : e.Numbered)
    (h : e.HeldBy p id) {j : Job} (hj : j ∈ e.pending) (hp : p j = true) :
    ∃ t, e.task? id = some t ∧ j ∈ t.left := by
  obtain ⟨⟨i, t'⟩, hx, hj⟩ := List.mem_flatMap.mp hj
  by_cases hid : i = id
  · subst hid
    cases ht : e.task? i with
    | none =>
      have hnot := List.find?_eq_none.mp (Option.map_eq_none_iff.mp ht) _ hx
      simp at hnot
    | some t =>
      obtain ⟨front, back, hsplit, hfront, hback⟩ := tasks_split hn ht
      rw [hsplit, List.mem_append, List.mem_cons] at hx
      rcases hx with hx | heq | hx
      · exact absurd rfl (hfront _ hx)
      · cases heq
        exact ⟨t', rfl, hj⟩
      · exact absurd rfl (hback _ hx)
  · exact absurd hp (Bool.eq_false_iff.mp (h _ hx hid j hj))

/-- A task that is done has nothing left of what it alone had. -/
theorem HeldBy.none_left {p : Job → Bool} {id : Nat} {e : Engine} (hn : e.Numbered)
    (h : e.HeldBy p id) (hdone : e.isDone id = true) : ∀ j ∈ e.pending, p j = false := by
  intro j hj
  refine Bool.eq_false_iff.mpr fun hp => ?_
  obtain ⟨t, ht, hj⟩ := h.left hn hj hp
  rw [isDone, ht, Option.map_some, Option.getD_some, List.isEmpty_iff] at hdone
  rw [hdone] at hj
  cases hj

/-- Who asks for something when nobody has jobs of some kind left is the only one to have them. -/
theorem heldBy_ask {p : Job → Bool} {e : Engine} (hfree : ∀ j ∈ e.pending, p j = false)
    (jobs : List Job) : (e.ask jobs).HeldBy p e.nextTask := by
  intro x hx hne j hj
  rcases List.mem_cons.mp hx with rfl | hx
  · exact absurd rfl hne
  · exact hfree j (List.mem_flatMap.mpr ⟨x, hx, hj⟩)

/-- Only one task steers. -/
def SteersIn (id : Nat) (e : Engine) : Prop :=
  ∀ x ∈ e.tasks, x.1 ≠ id → ∀ j ∈ x.2.left, j.steers = false

theorem SteersIn.step {s : Settings} {id : Nat} {e e' : Engine} {d : Deed} (hn : e.Numbered)
    (h : e.SteersIn id) (hd : e.roam s d = some e') (haside : d.isByTheWay = true) :
    e'.SteersIn id := by
  refine HeldBy.step (fun hrun j hj hsteers => ?_) (fun _ => steers_spawned) hn h hd ?_
  · cases steers_next hrun hj hsteers <;> rfl
  · rintro c rfl j hj
    refine Bool.eq_false_iff.mpr fun hsteers => ?_
    have hany := List.any_eq_true.mpr ⟨j, hj, hsteers⟩
    rw [Deed.isByTheWay, hany] at haside
    cases haside

theorem steersIn_ask {e : Engine} (hidle : e.steering = []) (jobs : List Job) :
    (e.ask jobs).SteersIn e.nextTask :=
  heldBy_ask (fun j hj => Bool.eq_false_iff.mpr fun hsteers => by
    have hmem : j ∈ e.steering := mem_steering.mpr ⟨hj, hsteers⟩
    rw [hidle] at hmem
    cases hmem) jobs

/-- When the task that steers is done, nothing is left to steer. -/
theorem SteersIn.idle {id : Nat} {e : Engine} (hn : e.Numbered) (h : e.SteersIn id)
    (hdone : e.isDone id = true) : e.steering = [] :=
  List.filter_eq_nil_iff.mpr fun j hj => Bool.eq_false_iff.mp (HeldBy.none_left hn h hdone j hj)

section Served

variable {s : Settings} {c : Call} {e e' : Engine} {l : List Moment}

/-- **A served call**: what it begins with, and what everything keeps that goes by the way. -/
theorem Serves.keeps (hserves : Serves s c e l e') (hg : Governed s e) (hidle : e.steering = [])
    (hc : c.tends = true) {P : Engine → Prop} (h₀ : P (e.ask c.jobs))
    (hstep : ∀ m ∈ l, ∀ e', Governed s m.before → m.before.SteersIn e.nextTask → P m.before →
      m.before.roam s m.deed = some e' → P e') :
    Governed s e' ∧ e'.steering = [] ∧ P e' := by
  have hkept : Governed s e' ∧ e'.SteersIn e.nextTask ∧ P e' := by
    refine hserves.course.keeps (P := fun e' => Governed s e' ∧ e'.SteersIn e.nextTask ∧ P e')
      ⟨hg.ask hidle hc, steersIn_ask hidle _, h₀⟩ fun m hm e₂ ⟨hg, hsteers, hp⟩ hd => ?_
    have haside := hserves.aside m hm
    exact ⟨hg.step hd haside, hsteers.step hg.enlisted.numbered hd haside,
      hstep m hm e₂ hg hsteers hp hd⟩
  obtain ⟨hg', hsteers, hp⟩ := hkept
  exact ⟨hg', hsteers.idle hg'.enlisted.numbered hserves.isDone, hp⟩

/-- What goes by the way leaves nothing to steer. -/
theorem idle_step {d : Deed} (hn : e.Numbered) (hidle : e.steering = [])
    (hd : e.roam s d = some e') (haside : d.isByTheWay = true) : e'.steering = [] := by
  have hstill : (∀ id, d ≠ .work id) → e'.steering = [] := fun hw =>
    (View.mk.inj (view_aside hn hw hd haside)).2.2.trans hidle
  cases roam_cases hn hd with
  | asked => exact hstill nofun
  | @worked id job rest next reply e₁ ht hrun =>
    have hjob : job.steers = false := Bool.eq_false_iff.mpr fun hsteers => by
      have hmem := mem_steering.mpr ⟨mem_pending ht List.mem_cons_self, hsteers⟩
      rw [hidle] at hmem
      cases hmem
    have hperm := steering_aside hn ht hrun (job.reply?.or reply) hjob
    rw [hidle] at hperm
    exact List.perm_nil.mp hperm
  | still hw => exact hstill hw

end Served

/-- **Projects that are tended** are governed, and between calls nothing is left to steer. -/
theorem Tended.governed {s : Settings} {e : Engine} (h : Tended s e) :
    Governed s e ∧ e.steering = [] := by
  induction h with
  | fresh file buffer busCapacity =>
    exact ⟨governed_fresh s file buffer busCapacity, steering_fresh ..⟩
  | meanwhile _ haside hd ih =>
    exact ⟨ih.1.step hd haside, idle_step ih.1.enlisted.numbered ih.2 hd haside⟩
  | called _ hc hserves ih =>
    obtain ⟨hg, hidle, -⟩ := hserves.keeps (P := fun _ => True) ih.1 ih.2 hc trivial
      fun _ _ _ _ _ _ _ => trivial
    exact ⟨hg, hidle⟩

end Workflow.Engine
