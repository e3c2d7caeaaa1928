import Workflow.Proofs.Coordinator.Replacement
import Workflow.Proofs.Coordinator.Convergence
import Workflow.Proofs.Coordinator.Strays

/-!
# Passes over a directory that stays as it is

A coordinator with a source reads the projects anew at every pass. That takes many jobs: each
project is taken up by one, and each that is gone is forgotten by another, while all other tasks go
on. As long as nobody else deals with the projects it comes to the same as replacing them in one go
(`Polls.loaded`): the jobs that are left always lead to the same set (`effect_next`).

So what replacing a set by the same list again does to it decides what a pass does to a directory
that did not change. A run that was fit is stopped exactly if two files hold versions of its project
whose definitions differ (`Polls.restarts_iff`): each pass then finds a new revision.
-/

namespace Workflow.Engine

open Engine.Job

/-! ## Jobs that deal with the projects -/

/-- Whether a job deals with the set of projects, or comes to that. -/
def Job.deals : Job → Bool
  | loadProjects | plan | upsert _ | setDesired .. | dropMissing _ | forget _
  | noteStarted .. => true
  | _ => false

/-- Whether a job only takes up what a source gives. -/
def Job.loads : Job → Bool
  | plan | setDesired .. | noteStarted .. => false
  | _ => true

/-- What a job that takes up what a source gives makes of the set of projects in the end, with all
the jobs that it leaves to do. -/
def Job.effect (specs : List Project) (ps : ProjectSet) : Job → ProjectSet
  | loadProjects => ps.replaceAll specs
  | upsert p => ps.upsert p
  | dropMissing ids => (ps.missing ids).foldl Fields.erase ps
  | forget id => Fields.erase ps id
  | _ => ps

theorem Job.steers_of_deals {j : Job} (h : j.deals = true) : j.steers = true := by
  cases j <;> first | rfl | cases h

theorem Job.loads_of_idle {j : Job} (h : j.deals = false) : j.loads = true := by
  cases j <;> first | rfl | cases h

theorem Job.effect_of_idle {j : Job} (h : j.deals = false) (specs : List Project)
    (ps : ProjectSet) : j.effect specs ps = ps := by
  cases j <;> first | rfl | cases h

theorem Job.foldl_effect_of_idle {js : List Job} (h : ∀ j ∈ js, j.deals = false)
    (specs : List Project) (ps : ProjectSet) : js.foldl (Job.effect specs) ps = ps := by
  induction js with
  | nil => rfl
  | cons j rest ih =>
    rw [List.foldl_cons, Job.effect_of_idle (h j List.mem_cons_self)]
    exact ih fun j hj => h j (List.mem_cons_of_mem _ hj)

section Work

variable {s : Settings} {e e₁ : Engine} {job : Job} {next : List Job}

/-- What deals with the projects comes of what does. -/
theorem deals_next (h : job.run s e = some (next, e₁)) {j : Job} (hj : j ∈ next)
    (hdeals : j.deals = true) : job.deals = true := by
  cases steers_next h hj (Job.steers_of_deals hdeals) with
  | shut =>
    cases h
    rcases List.mem_append.mp hj with hj | hj
    · obtain ⟨run, -, rfl⟩ := List.mem_map.mp hj
      cases hdeals
    · simp only [List.mem_cons, List.not_mem_nil, or_false] at hj
      rcases hj with rfl | rfl <;> cases hdeals
  | load | drop | note => rfl
  | _ => cases hdeals

theorem deals_spawned (e : Engine) (job : Job) : ∀ j ∈ (job.spawned e).flatten, j.deals = false :=
  fun j hj => Bool.eq_false_iff.mpr fun hdeals =>
    Bool.eq_false_iff.mp (steers_spawned j hj) (Job.steers_of_deals hdeals)

/-- A job that has nothing to do with the projects leaves them alone, and only such jobs to do. -/
theorem idle_next (h : job.run s e = some (next, e₁)) (hidle : job.deals = false) :
    e₁.projects = e.projects ∧ e₁.source = e.source ∧ ∀ j ∈ next, j.deals = false := by
  have hedits : job.edits = false := by cases job <;> first | rfl | cases hidle
  have hapart := run_apart h hedits (by rintro _ _ rfl; cases hidle)
  refine ⟨hapart.projects, hapart.source, fun j hj => Bool.eq_false_iff.mpr fun hdeals => ?_⟩
  cases hidle.symm.trans (deals_next h hj hdeals)

/-- **The effect of a job is kept**: what is left to do after it leads to the set of projects that
it was to lead to. -/
theorem effect_next {files : Fields String} (hsource : e.source = some (some files))
    (h : job.run s e = some (next, e₁)) (hloads : job.loads = true) :
    next.foldl (Job.effect (Project.ofFiles files)) e₁.projects =
        job.effect (Project.ofFiles files) e.projects ∧
      (∀ j ∈ next, j.loads = true) := by
  cases hdeals : job.deals with
  | false =>
    obtain ⟨hprojects, -, hnext⟩ := idle_next h hdeals
    rw [hprojects, Job.foldl_effect_of_idle hnext, Job.effect_of_idle hdeals]
    exact ⟨rfl, fun j hj => Job.loads_of_idle (hnext j hj)⟩
  | true =>
    cases job
    case loadProjects =>
      simp only [Job.run, hsource, Project.load] at h
      cases h
      constructor
      · rw [List.foldl_append, List.foldl_map]
        rfl
      · intro j hj
        rcases List.mem_append.mp hj with hj | hj
        · obtain ⟨p, -, rfl⟩ := List.mem_map.mp hj
          rfl
        · obtain rfl := List.mem_singleton.mp hj
          rfl
    case upsert p =>
      cases h
      refine ⟨rfl, fun j hj => ?_⟩
      obtain rfl := List.mem_singleton.mp hj
      rfl
    case dropMissing ids =>
      cases h
      constructor
      · rw [List.foldl_map]
        rfl
      · intro j hj
        obtain ⟨id, -, rfl⟩ := List.mem_map.mp hj
        rfl
    case forget id =>
      simp only [Job.run, ProjectSet.remove] at h
      cases hf : e.projects.find? id with
      | none =>
        rw [hf] at h
        cases h
        constructor
        · exact (Fields.erase_eq_self hf).symm
        intro j hj
        obtain rfl := List.mem_singleton.mp hj
        rfl
      | some entry =>
        rw [hf] at h
        cases h
        refine ⟨rfl, fun j hj => ?_⟩
        simp only [List.mem_cons, List.not_mem_nil, or_false] at hj
        rcases hj with rfl | rfl <;> rfl
    all_goals first
      | cases hloads; done
      | cases hdeals

/-- What is noted of projects does not change them. -/
theorem mirrors_note {ps : ProjectSet} {specs : List Project} (hm : ps.Mirrors specs) (id : String)
    (revision : Nat) : (ps.noteStarted id revision).Mirrors specs := by
  intro other
  rw [← hm other, ProjectSet.noteStarted]
  cases hf : ps.find? id with
  | none => rfl
  | some entry =>
    rw [Fields.find?_put]
    split
    · next heq =>
      rw [← heq, hf]
      rfl
    · rfl

end Work

/-! ## Passes -/

/-- Whether a deed leaves the projects to the coordinator: nobody asks for anything that deals with
them, and their files stay as they are. -/
def Deed.letsBe : Deed → Bool
  | .ask c => !c.jobs.any Job.deals
  | .edit _ => false
  | _ => true

theorem Deed.asks_of_letsBe {d : Deed} (h : d.letsBe = true) (c : Call) (hd : d = .ask c) :
    ∀ j ∈ c.jobs, j.deals = false := by
  subst hd
  intro j hj
  refine Bool.eq_false_iff.mpr fun hdeals => ?_
  rw [letsBe, List.any_eq_true.mpr ⟨j, hj, hdeals⟩] at h
  cases h

/-- A pass is made to its end, and meanwhile the projects are left to the coordinator. -/
structure Polls (s : Settings) (e : Engine) (l : List Moment) (e' : Engine) : Prop where
  /-- what happens after the pass was asked for -/
  course : Roams s (e.ask passing) l e'
  /-- nobody else deals with the projects, or changes their files -/
  alone : ∀ m ∈ l, m.deed.letsBe = true
  /-- the task of the pass is done -/
  isDone : e'.isDone e.nextTask = true

/-- The projects come from a directory, and nothing is left to do with them. -/
structure Unhandled (files : Fields String) (e : Engine) : Prop where
  /-- tasks have numbers of their own -/
  numbered : e.Numbered
  /-- projects are in order, each under its own id -/
  tidy : e.projects.Tidy
  /-- the files in the directory -/
  source : e.source = some (some files)
  /-- no job deals with the projects -/
  free : ∀ j ∈ e.pending, j.deals = false

theorem unhandled_fresh (file : Stored) (files : Fields String) (buffer busCapacity : Nat) :
    Unhandled files (fresh file (some (some files)) buffer busCapacity) where
  numbered := fresh_numbered ..
  tidy := ⟨List.Pairwise.nil, nofun⟩
  source := rfl
  free := by
    intro j hj
    obtain ⟨_, hx, _⟩ := List.mem_flatMap.mp hj
    cases hx

/-- That the projects are left as they are, but for notes of what was started. -/
def OnlyNotes (e : Engine) : Prop :=
  ∀ j ∈ e.pending, j.deals = true → ∃ project revision, j = .noteStarted project revision

/-- How far a pass is: what is left to be loaded leads to some set of projects, or that is done and
it is only noted what was started. -/
inductive Polling (specs : List Project) (goal : ProjectSet) (id : Nat) (e : Engine) : Prop
  /-- it loads the projects -/
  | loading {todo : List Job} {reply : Option Reply} :
      e.task? id = some ⟨todo ++ [.plan, .answer .done], reply⟩ → (∀ j ∈ todo, j.loads = true) →
      todo.foldl (Job.effect specs) e.projects = goal → Polling specs goal id e
  /-- it does what was planned -/
  | acting : e.OnlyNotes → e.projects.Mirrors specs → Polling specs goal id e

/-- A pass under way. -/
structure Underway (files : Fields String) (goal : ProjectSet) (id : Nat) (e : Engine) : Prop where
  /-- tasks have numbers of their own -/
  numbered : e.Numbered
  /-- projects are in order, each under its own id -/
  tidy : e.projects.Tidy
  /-- the files in the directory -/
  source : e.source = some (some files)
  /-- no other task deals with the projects -/
  held : e.HeldBy Job.deals id
  /-- how far the pass is -/
  polling : Polling (Project.ofFiles files) goal id e

section Passing

variable {s : Settings} {files : Fields String} {goal : ProjectSet} {id : Nat} {e e' : Engine}
  {d : Deed}

theorem roam_source (hw : ∀ id, d ≠ .work id) (hlets : d.letsBe = true)
    (h : e.roam s d = some e') : e'.source = e.source := by
  cases d
  case work id => exact absurd rfl (hw id)
  case edit => cases hlets
  case ask c =>
    cases h
    rfl
  all_goals
    simp only [roam, after] at h
    repeat' split at h
  all_goals cases h
  all_goals rfl

/-- Other tasks leave the projects alone. -/
theorem Underway.others (h : Underway files goal id e) (hd : e.roam s d = some e')
    (hne : d ≠ .work id) : e'.projects = e.projects := by
  cases roam_cases h.numbered hd with
  | asked => rfl
  | @worked i job rest next reply e₁ ht hrun =>
    have hi : i ≠ id := fun heq => hne (heq ▸ rfl)
    exact (idle_next hrun (h.held _ (task_mem ht) hi _ List.mem_cons_self)).1
  | still hw => exact (roam_apart hw hd).1

theorem Underway.source_step (h : Underway files goal id e) (hd : e.roam s d = some e')
    (hlets : d.letsBe = true) : e'.source = some (some files) := by
  rw [← h.source]
  cases roam_cases h.numbered hd with
  | asked => rfl
  | worked _ hrun => exact (run_projects hrun).2
  | still hw => exact roam_source hw hlets hd

theorem Underway.held_step (h : Underway files goal id e) (hd : e.roam s d = some e')
    (hlets : d.letsBe = true) : e'.HeldBy Job.deals id :=
  HeldBy.step deals_next (deals_spawned e) h.numbered h.held hd (Deed.asks_of_letsBe hlets)

/-- Loading goes on, and when all is loaded it is planned what to do. -/
theorem Underway.load (h : Underway files goal id e) {todo : List Job} {reply : Option Reply}
    (ht : e.task? id = some ⟨todo ++ [.plan, .answer .done], reply⟩)
    (hloads : ∀ j ∈ todo, j.loads = true)
    (hgoal : todo.foldl (Job.effect (Project.ofFiles files)) e.projects = goal)
    (hmirrors : goal.Mirrors (Project.ofFiles files)) (hd : e.roam s (.work id) = some e') :
    Polling (Project.ofFiles files) goal id e' := by
  have hn' := (roam_cases h.numbered hd).numbered h.numbered
  cases todo with
  | nil =>
    obtain ⟨next, e₁, hrun, reply', rfl, htask⟩ := roam_work h.numbered ht hd
    cases hrun
    refine .acting (fun j hj hdeals => ?_) ?_
    · obtain ⟨t, ht', hleft⟩ := (h.held_step hd rfl).left hn' hj hdeals
      cases (htask (List.append_ne_nil_of_right_ne_nil _ (List.cons_ne_nil _ _))).symm.trans ht'
      rcases List.mem_append.mp hleft with hplan | hanswer
      · cases plan_next (s := s) hplan with
        | note => exact ⟨_, _, rfl⟩
        | start | halt => cases hdeals
      · obtain rfl := List.mem_singleton.mp hanswer
        cases hdeals
    · subst hgoal
      exact hmirrors
  | cons job rest =>
    obtain ⟨next, e₁, hrun, reply', rfl, htask⟩ := roam_work h.numbered ht hd
    obtain ⟨hrest, hjob⟩ := And.intro (fun j hj => hloads j (List.mem_cons_of_mem _ hj))
      (hloads job List.mem_cons_self)
    obtain ⟨heffect, hnext⟩ := effect_next h.source hrun hjob
    have htask' : (e₁.setTask id ⟨next ++ (rest ++ [.plan, .answer .done]), reply'⟩).task? id =
        some ⟨next ++ rest ++ [.plan, .answer .done], reply'⟩ := by
      rw [List.append_assoc]
      exact htask (by simp)
    refine .loading htask' ?_ ?_
    · exact fun j hj => (List.mem_append.mp hj).elim (hnext j) (hrest j)
    · rw [← hgoal, List.foldl_append, List.foldl_cons]
      exact congrArg (fun ps => rest.foldl _ ps) heffect

/-- What is noted meanwhile leaves the set a mirror of the files. -/
theorem Underway.act (h : Underway files goal id e) (hnotes : e.OnlyNotes)
    (hm : e.projects.Mirrors (Project.ofFiles files)) (hd : e.roam s d = some e')
    (hlets : d.letsBe = true) : Polling (Project.ofFiles files) goal id e' := by
  cases roam_cases h.numbered hd with
  | asked c =>
    refine .acting (fun j hj hdeals => ?_) hm
    rcases List.mem_append.mp hj with hj | hj
    · exact absurd hdeals (Bool.eq_false_iff.mp (Deed.asks_of_letsBe hlets c rfl j hj))
    · exact hnotes j hj hdeals
  | @worked i job rest next reply e₁ ht hrun =>
    refine .acting ?_ ?_
    · refine forall_pending_work h.numbered ht hrun hnotes fun j hj hdeals => ?_
      rcases hj with hj | hj
      · obtain ⟨_, _, rfl⟩ :=
          hnotes job (mem_pending ht List.mem_cons_self) (deals_next hrun hj hdeals)
        cases hrun
        cases hj
      · exact absurd hdeals (Bool.eq_false_iff.mp (deals_spawned e job j hj))
    · change e₁.projects.Mirrors _
      cases hdeals : job.deals with
      | false =>
        rw [(idle_next hrun hdeals).1]
        exact hm
      | true =>
        obtain ⟨project, revision, rfl⟩ := hnotes job (mem_pending ht List.mem_cons_self) hdeals
        cases hrun
        exact mirrors_note hm project revision
  | still hw hstill =>
    refine .acting (fun j hj => ?_) ?_
    · rw [hstill.pending] at hj
      exact hnotes j hj
    · rw [(roam_apart hw hd).1]
      exact hm

/-- **A pass goes on**, whatever else is done. -/
theorem Underway.step (h : Underway files goal id e)
    (hmirrors : goal.Mirrors (Project.ofFiles files)) (hd : e.roam s d = some e')
    (hlets : d.letsBe = true) : Underway files goal id e' := by
  obtain ⟨hn, ht⟩ := (Roams.nil.snoc hd).projects_tidy h.numbered h.tidy
  refine ⟨hn, ht, h.source_step hd hlets, h.held_step hd hlets, ?_⟩
  cases h.polling with
  | loading htask hloads hgoal =>
    by_cases hw : d = .work id
    · subst hw
      exact h.load htask hloads hgoal hmirrors hd
    · refine .loading (roam_task? h.numbered hd hw htask (by simp)) hloads ?_
      rw [h.others hd hw]
      exact hgoal
  | acting hnotes hm => exact h.act hnotes hm hd hlets

/-- A pass that is asked for when nothing deals with the projects leads to their replacement. -/
theorem Unhandled.underway (h : Unhandled files e) :
    Underway files (e.projects.replaceAll (Project.ofFiles files)) e.nextTask (e.ask passing) where
  numbered := ask_numbered h.numbered _
  tidy := h.tidy
  source := h.source
  held := heldBy_ask h.free _
  polling := by
    have ht : (e.ask passing).task? e.nextTask =
        some ⟨[.loadProjects] ++ [.plan, .answer .done], none⟩ := by
      rw [task?, ask, List.find?_cons_of_pos] <;> simp [passing]
    refine .loading ht (fun j hj => ?_) rfl
    obtain rfl := List.mem_singleton.mp hj
    rfl

end Passing

section Passes

variable {s : Settings} {files : Fields String} {e e' : Engine} {l : List Moment}

/-- A pass at any moment of it. -/
theorem Polls.underway (h : Polls s e l e') (hu : Unhandled files e) {l₁ : List Moment}
    {e₁ : Engine} (hcourse : Roams s (e.ask passing) l₁ e₁) (hsub : ∀ m ∈ l₁, m ∈ l) :
    Underway files (e.projects.replaceAll (Project.ofFiles files)) e.nextTask e₁ :=
  hcourse.keeps (P := Underway files _ e.nextTask) hu.underway fun m hm _ hbefore hd =>
    hbefore.step (e.projects.replaceAll_mirrors _) hd (h.alone m (hsub m hm))

/-- **What a pass works on** is the set of projects replaced by those in the files. -/
theorem Polls.loaded (h : Polls s e l e') (hu : Unhandled files e) {m : Moment} (hm : m ∈ l)
    (hplan : m.job? = some .plan) :
    m.before.projects = e.projects.replaceAll (Project.ofFiles files) := by
  obtain ⟨l₁, hcourse, hsub⟩ := h.course.upTo hm
  have hunder := h.underway hu hcourse hsub
  have hpending := mem_pending_of_job? hplan
  cases hunder.polling with
  | acting hnotes =>
    obtain ⟨_, _, hnote⟩ := hnotes _ hpending rfl
    cases hnote
  | @loading todo _ ht hloads hgoal =>
    -- the task that plans is the one that loads, so nothing is left to be loaded
    obtain ⟨e₁, d⟩ := m
    cases d with
    | work i =>
      obtain ⟨t, hti, hhead⟩ := Option.bind_eq_some_iff.mp hplan
      have hi : i = e.nextTask := by
        refine Decidable.byContradiction fun hne => ?_
        cases hunder.held _ (task_mem hti) hne _ (List.mem_of_mem_head? hhead)
      subst hi
      cases ht.symm.trans hti
      cases todo with
      | nil => exact hgoal
      | cons j rest =>
        cases hhead
        cases hloads _ List.mem_cons_self
    | _ => cases hplan

/-- After a pass the projects are those in the files, and nothing is left to do with them. -/
theorem Polls.unhandled (h : Polls s e l e') (hu : Unhandled files e) :
    Unhandled files e' ∧ e'.projects.Mirrors (Project.ofFiles files) := by
  have hunder := h.underway hu h.course fun _ hm => hm
  have hfree := hunder.held.none_left hunder.numbered h.isDone
  refine ⟨⟨hunder.numbered, hunder.tidy, hunder.source, hfree⟩, ?_⟩
  cases hunder.polling with
  | acting _ hm => exact hm
  | loading ht =>
    have hplan := hfree .plan (mem_pending ht (List.mem_append_right _ List.mem_cons_self))
    cases hplan

/-- What a pass plans to stop: the active runs that are not fit. -/
theorem stopActive_mem_plan {s : Settings} {next : List Job} {e₁ : Engine} (ht : e.projects.Tidy)
    (h : Job.plan.run s e = some (next, e₁)) {id : String} {entry : ProjectEntry}
    (hf : e.projects.find? id = some entry) :
    .stopActive id ∈ next ↔ (e.table.active? id).isSome = true ∧ ¬ entry.IsFit := by
  cases h
  constructor
  · intro hmem
    generalize hj : Job.stopActive id = j at hmem
    cases plan_next (s := s) hmem with
    | @halt id' entry' hentry hactive hfit =>
      have hf' := ht.sorted.find?_of_mem hentry
      obtain rfl : id = id' := (Job.stopActive.inj hj).trans (ht.named hf')
      cases hf.symm.trans hf'
      exact ⟨hactive, hfit⟩
    | start | note => cases hj
  · rintro ⟨hactive, hfit⟩
    have hhalt := mem_plan_halt (Fields.mem_of_find? hf) hactive hfit
    rw [ht.named hf] at hhalt
    exact hhalt

end Passes

/-- **A source that stays as it is restarts the runs of those projects that it contradicts itself
about.** To replace a set of projects by the same list twice in a row leaves the same as once
exactly if no two projects of the list have the same id and definitions that differ: where two have,
the one that stays is the last, and the first is found to be a change again.

So after a pass over a directory that stays as it is, with nobody else dealing with the projects,
the next pass finds the projects as the first one left them exactly if that holds of all its files.
And it stops an active run of a project that was fit then, to start another one, exactly if it does
not hold of the files of that project. -/
theorem Polls.restarts_iff {s : Settings} {files : Fields String} {e e₁ e₂ : Engine}
    {l₁ l₂ : List Moment} (hu : Unhandled files e) (h₁ : Polls s e l₁ e₁)
    (h₂ : Polls s e₁ l₂ e₂) :
    (∀ (ps : ProjectSet) (specs : List Project), ps.Tidy →
      ((ps.replaceAll specs).replaceAll specs = ps.replaceAll specs ↔
        ∀ id, Project.Agree specs id)) ∧
    ∀ m ∈ l₂, m.job? = some .plan →
      (m.before.projects = e₁.projects ↔ ∀ id, Project.Agree (Project.ofFiles files) id) ∧
      ∀ id entry, e₁.projects.find? id = some entry → entry.IsFit →
        ∃ next, Job.plan.run s m.before = some (next, m.before) ∧
          (.stopActive id ∈ next ↔ (m.before.table.active? id).isSome = true ∧
            ¬ Project.Agree (Project.ofFiles files) id) := by
  obtain ⟨hu₁, hmirrors⟩ := h₁.unhandled hu
  refine ⟨fun ps specs ht => ?_, fun m hm hplan => ?_⟩
  · exact (ps.replaceAll_mirrors specs).replaceAll_eq_iff (ht.replaceAll specs)
  · have hloaded := h₂.loaded hu₁ hm hplan
    have htidy : m.before.projects.Tidy := by
      rw [hloaded]
      exact hu₁.tidy.replaceAll _
    refine ⟨by rw [hloaded]; exact hmirrors.replaceAll_eq_iff hu₁.tidy, fun id entry hf hfit => ?_⟩
    have hfound := hmirrors.find?_replaceAll id
    rw [← hloaded, hf, Option.map_some] at hfound
    refine ⟨_, rfl, (stopActive_mem_plan (s := s) htidy rfl hfound).trans ?_⟩
    refine and_congr_right fun _ => not_congr ?_
    rw [← hmirrors.changes_eq_zero hf, ProjectEntry.IsFit, hfit.2, Option.some.injEq]
    exact ⟨fun h => Nat.left_eq_add.mp h.2, fun h => ⟨hfit.1, Nat.left_eq_add.mpr h⟩⟩

/-- Two files with versions of one project that have different nodes. -/
def twoVersions : Fields String :=
  let version node := "\x7b\"id\": \"p\", \"desiredStatus\": \"running\", " ++
    "\"definition\": \x7b\"nodes\": [\x7b\"id\": \"" ++ node ++ "\"\x7d]\x7d\x7d"
  [("a.json", version "a"), ("b.json", version "b")]

/-- Whether a moment plans what to do. -/
def Moment.isPlanning (m : Moment) : Bool :=
  match m.job? with
  | some .plan => true
  | _ => false

theorem Moment.job?_of_isPlanning {m : Moment} (h : m.isPlanning = true) : m.job? = some .plan := by
  unfold isPlanning at h
  split at h
  · assumption
  · cases h

/-- So many jobs of a pass, if that is all it takes. -/
def poll? (s : Settings) (e : Engine) (jobs : Nat) : Option (List Moment × Engine) :=
  ((e.ask passing).replay s (works e.nextTask jobs)).filter fun (l, e') =>
    l.all (·.deed.letsBe) && e'.isDone e.nextTask

theorem poll?_spec {s : Settings} {e e' : Engine} {jobs : Nat} {l : List Moment}
    (h : e.poll? s jobs = some (l, e')) : Polls s e l e' := by
  obtain ⟨hreplay, hspec⟩ := Option.filter_eq_some_iff.mp h
  rw [Bool.and_eq_true] at hspec
  exact ⟨(replay_runs hreplay).roams, List.all_eq_true.mp hspec.1, hspec.2⟩

theorem twoVersions_differ : ¬ Project.Agree (Project.ofFiles twoVersions) "p" := by
  have hany : (Project.ofFiles twoVersions).any (fun p => (Project.ofFiles twoVersions).any fun q =>
      p.id = "p" && q.id = "p" && !p.definition.same q.definition) = true := by decide +kernel
  obtain ⟨p, hp, hany⟩ := List.any_eq_true.mp hany
  obtain ⟨q, hq, hpq⟩ := List.any_eq_true.mp hany
  simp only [Bool.and_eq_true, decide_eq_true_eq] at hpq
  obtain ⟨⟨hpid, hqid⟩, hdiffer⟩ := hpq
  intro hagree
  rw [hagree p hp q hq hpid hqid] at hdiffer
  cases hdiffer

theorem twoVersions_spec :
    ∃ l₁ e₁ l₂ e₂ m entry,
      (fresh .absent (some (some twoVersions)) 8 8).poll? trial 23 = some (l₁, e₁) ∧
      e₁.poll? trial 19 = some (l₂, e₂) ∧ m ∈ l₂ ∧ m.isPlanning = true ∧
      (m.before.table.active? "p").isSome = true ∧ e₁.projects.find? "p" = some entry ∧
      entry.IsFit := by
  have hall : ((fresh .absent (some (some twoVersions)) 8 8).poll? trial 23).any (fun x =>
      (x.2.poll? trial 19).any (fun y => y.1.any fun m =>
        m.isPlanning && (m.before.table.active? "p").isSome) &&
      (x.2.projects.find? "p").any fun entry =>
        decide (entry.project.desired = .running) && decide (entry.started = some entry.revision)) =
      true := by decide +kernel
  obtain ⟨⟨l₁, e₁⟩, h₁, hspec⟩ := (Option.any_eq_true _ _).mp hall
  obtain ⟨hsecond, hentry⟩ := (Bool.and_eq_true ..).mp hspec
  obtain ⟨⟨l₂, e₂⟩, h₂, hmoment⟩ := (Option.any_eq_true _ _).mp hsecond
  obtain ⟨m, hm, hplan⟩ := List.any_eq_true.mp hmoment
  obtain ⟨hplan, hactive⟩ := (Bool.and_eq_true ..).mp hplan
  obtain ⟨entry, hf, hfit⟩ := (Option.any_eq_true _ _).mp hentry
  rw [Bool.and_eq_true, decide_eq_true_eq, decide_eq_true_eq] at hfit
  exact ⟨l₁, e₁, l₂, e₂, m, entry, h₁, h₂, hm, hplan, hactive, hf, hfit⟩

theorem twoVersions_restart :
    ∃ e l₁ e₁ l₂ e₂ m next, Unhandled twoVersions e ∧ Polls trial e l₁ e₁ ∧ Polls trial e₁ l₂ e₂ ∧
      m ∈ l₂ ∧ m.before.projects ≠ e₁.projects ∧
      Job.plan.run trial m.before = some (next, m.before) ∧ .stopActive "p" ∈ next := by
  obtain ⟨l₁, e₁, l₂, e₂, m, entry, h₁, h₂, hm, hplan, hactive, hf, hfit⟩ := twoVersions_spec
  have hu := unhandled_fresh .absent twoVersions 8 8
  obtain ⟨-, hpass⟩ := Polls.restarts_iff hu (poll?_spec h₁) (poll?_spec h₂)
  obtain ⟨hsame, hrestart⟩ := hpass m hm (Moment.job?_of_isPlanning hplan)
  obtain ⟨next, hrun, hstop⟩ := hrestart "p" entry hf hfit
  refine ⟨_, l₁, e₁, l₂, e₂, m, next, hu, poll?_spec h₁, poll?_spec h₂, hm, fun heq => ?_, hrun, ?_⟩
  · exact twoVersions_differ (hsame.mp heq "p")
  · exact hstop.mpr ⟨hactive, twoVersions_differ⟩

end Workflow.Engine
