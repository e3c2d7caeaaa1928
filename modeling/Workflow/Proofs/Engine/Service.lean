import Workflow.Proofs.Engine.Settling

/-!
# Who serves a run

What a run tells is published by one task at a time. The task that enlists a run announces
that it was started and then launches it; by that the run gets a driver, which publishes
what the run tells, event by event, and each time goes on to follow it.

So a job `serves` a run if it launches or drives it, and what a task has left to do is of
one of two kinds (`Dutiful`): either nothing of it has to do with what runs tell, or it
publishes what one run tells, then serves that run, and whatever comes behind that has
nothing to do with it.
-/

namespace Workflow

/-- Whether an event announces the end of a run as its interpreter came to it. -/
def Event.closes (run : String) : Event → Bool
  | runCompleted r | runError r _ => r = run
  | _ => false

theorem Event.isTerminal_of_closes {event : Event} {run : String} (h : event.closes run = true) :
    event.isTerminal = true := by
  cases event <;> first | rfl | cases h

theorem Event.isTerminal_of_endsRun {event : Event} {run : String} (h : event.endsRun run = true) :
    event.isTerminal = true := by
  cases event <;> first | rfl | cases h

theorem Event.endsRun_of_closes {event : Event} {run : String} (h : event.closes run = true) :
    event.endsRun run = true := by
  cases event <;> first | exact h | cases h

namespace Engine

open Engine.Job

/-! ## Kinds of jobs -/

/-- Whether a job serves a run: it launches or drives it. -/
def Job.serves (run : String) : Job → Bool
  | launch _ id | drive _ id => id = run
  | _ => false

/-- Whether a job is one of those before a service for a run: it publishes what is told of
the run, or saves. -/
def Job.relays (project run : String) : Job → Bool
  | deliver subject event => (subject = run || subject = project) && !event.isTerminal
  | lockFile | snapshot | save _ | unlockFile | keepJournal _ | announce _ => true
  | _ => false

/-- Whether a job neither serves a run nor publishes what one tells. -/
def Job.isApart : Job → Bool
  | launch .. | drive .. => false
  | deliver _ event => event.isTerminal
  | _ => true

/-- Whether a job comes to announce the end of a run. -/
def Job.closes (run : String) : Job → Bool
  | settle _ id => id = run
  | deliver _ event => event.closes run
  | _ => false

@[simp]
theorem Job.serves_launch (project run : String) : (Job.launch project run).serves run = true :=
  decide_eq_true rfl

@[simp]
theorem Job.serves_drive (project run : String) : (Job.drive project run).serves run = true :=
  decide_eq_true rfl

theorem Job.serves_of_relays {project run id : String} {j : Job}
    (h : j.relays project run = true) : j.serves id = false := by
  cases j <;> first | rfl | cases h

theorem Job.serves_of_isApart {run : String} {j : Job} (h : j.isApart = true) :
    j.serves run = false := by
  cases j <;> first | rfl | cases h

theorem Job.serves_of_isChore {run : String} {j : Job} (h : j.isChore = true) :
    j.serves run = false := by
  cases j <;> first | rfl | cases h

/-- What is published of an event that ends no run is relayed. -/
theorem publishing_relays {project run : String} {event : Event} (h : event.isTerminal = false) :
    ∀ j ∈ publishing project run event, j.relays project run = true := by
  intro j hj
  obtain ⟨subject, hsubject, rfl | rfl⟩ := mem_publishing hj
  · rw [relays, h]
    simpa using hsubject
  · rfl

theorem saving_relays (project run : String) (b : Bool) :
    ∀ j ∈ (if b then saving else []), j.relays project run = true := by
  intro j hj
  split at hj
  · rcases List.mem_cons.mp hj with rfl | hj
    · rfl
    · obtain rfl := List.mem_singleton.mp hj
      rfl
  · cases hj

/-! ## Where such jobs come from -/

section Next

variable {s : Settings} {e e₁ : Engine} {job : Job} {next : List Job}

/-- A service for a run comes of one, or of enlisting the run. -/
theorem serves_next (h : job.run s e = some (next, e₁)) {j : Job}
    (hj : j ∈ next ∨ j ∈ (job.spawned e).flatten) {run : String} (hserves : j.serves run = true) :
    job.serves run = true ∨
      ∃ project definition vars, job = .enrol project definition vars ∧ run = e.newRun s project := by
  rcases hj.elim (mem_next h) mem_spawned with hchore | hleads
  · exact nomatch hserves.symm.trans (Job.serves_of_isChore hchore)
  · cases hleads with
    | launch project definition vars =>
      exact Or.inr ⟨project, definition, vars, rfl, (of_decide_eq_true hserves).symm⟩
    | drive => exact Or.inl hserves
    | driveOn => exact Or.inl hserves
    | _ => cases hserves

/-- What comes to announce the end of a run comes of settling it, which comes of driving
it. -/
theorem closes_next (ho : Orderly s e) (h : job.run s e = some (next, e₁)) {j : Job}
    (hj : j ∈ next ∨ j ∈ (job.spawned e).flatten) {run : String} (hcloses : j.closes run = true) :
    job.closes run = true ∨ ∃ project, job = .drive project run ∧ .settle project run ∈ next := by
  cases j
  case settle project id =>
    obtain rfl : id = run := of_decide_eq_true hcloses
    rcases hj.elim (mem_next h) mem_spawned with hchore | hleads
    · cases hchore
    · cases hleads with
      | settle => exact Or.inr ⟨project, rfl, hj.resolve_right List.not_mem_nil⟩
  case deliver subject event =>
    rcases hj with hj | hj
    · cases deliver_next h hj with
      | started => cases hcloses
      | stopped => cases hcloses
      | told hw ht =>
        -- what an interpreter tells is never the end of a run
        have hnot := (ho.sound hw).told event (ht ▸ List.mem_cons_self)
        exact nomatch (Event.isTerminal_of_closes hcloses).symm.trans hnot
      | @due project id _ _ _ hf hdue =>
        have hid := ho.single.tidy.named hf
        have hends := Event.endsRun_unique (dueAt_announces hdue) (Event.endsRun_of_closes hcloses)
        exact Or.inl (decide_eq_true (hid.symm.trans hends))
    · cases job <;> simp [spawned] at hj
  all_goals cases hcloses

/-- Nothing that comes of other jobs has to do with what runs tell. -/
theorem apart_next (h : job.run s e = some (next, e₁)) (hjob : job.isApart = true)
    (henrol : ∀ project definition vars, job ≠ .enrol project definition vars) :
    ∀ j ∈ next, j.isApart = true := by
  intro j hj
  cases j
  case deliver subject event =>
    cases deliver_next h hj with
    | started project definition vars => exact absurd rfl (henrol project definition vars)
    | stopped => rfl
    | told => cases hjob
    | due _ hdue => exact Event.isTerminal_of_endsRun (dueAt_announces hdue)
  case launch project run =>
    rcases mem_next h hj with hchore | hleads
    · cases hchore
    · cases hleads with
      | launch project definition vars => exact absurd rfl (henrol project definition vars)
  case drive =>
    rcases mem_next h hj with hchore | hleads
    · cases hchore
    · cases hleads <;> cases hjob
  all_goals rfl

/-- What comes of a job before a service comes before it too, and publishes nothing. -/
theorem relays_next {project run : String} (h : job.run s e = some (next, e₁))
    (hjob : job.relays project run = true) :
    ∀ j ∈ next, j.relays project run = true ∧ ∀ subject event, j ≠ .deliver subject event := by
  intro j hj
  cases job
  case snapshot =>
    cases h
    obtain rfl := List.mem_singleton.mp hj
    exact ⟨rfl, nofun⟩
  case save =>
    cases h
    obtain rfl := List.mem_singleton.mp hj
    exact ⟨rfl, nofun⟩
  case lockFile =>
    simp only [Job.run] at h
    split at h
    · cases h
    · cases h
      cases hj
  case keepJournal =>
    cases h
    cases hj
  case unlockFile =>
    cases h
    cases hj
  case deliver =>
    cases h
    cases hj
  case announce =>
    cases h
    cases hj
  all_goals cases hjob

end Next

/-! ## What tasks have left to do -/

/-- **Duties**: what a task has left to do has nothing to do with what runs tell, or it
publishes what one run has told and then serves that run. -/
inductive Dutiful (started : List (String × String)) : List Job → Prop
  /-- it has nothing to do with it -/
  | apart {left : List Job} : (∀ j ∈ left, j.isApart = true) → Dutiful started left
  /-- it serves a run -/
  | courier {project run : String} {front back : List Job} {server : Job} :
      (project, run) ∈ started → server = .launch project run ∨ server = .drive project run →
      (∀ j ∈ front, j.relays project run = true) → (∀ j ∈ back, j.isApart = true) →
      Dutiful started (front ++ server :: back)

/-- Before one service there is no other. -/
theorem any_serves {project run : String} {front back : List Job} {server : Job}
    (hserver : server = .launch project run ∨ server = .drive project run)
    (hfront : ∀ j ∈ front, j.relays project run = true) (hback : ∀ j ∈ back, j.isApart = true)
    (other : String) : (front ++ server :: back).any (Job.serves other) = decide (run = other) := by
  have hnone : front.any (Job.serves other) = false :=
    any_none.mpr fun j hj => Job.serves_of_relays (hfront j hj)
  have hnone' : back.any (Job.serves other) = false :=
    any_none.mpr fun j hj => Job.serves_of_isApart (hback j hj)
  rw [List.any_append, List.any_cons, hnone, hnone', Bool.false_or, Bool.or_false]
  rcases hserver with rfl | rfl <;> rfl

/-- What a task that serves a run has left to do. -/
theorem Dutiful.server {started : List (String × String)} {left : List Job}
    (hd : Dutiful started left) {run : String} (hserves : left.any (Job.serves run) = true) :
    ∃ project front back server, left = front ++ server :: back ∧ (project, run) ∈ started ∧
      (server = .launch project run ∨ server = .drive project run) ∧
      (∀ j ∈ front, j.relays project run = true) ∧ ∀ j ∈ back, j.isApart = true := by
  cases hd with
  | apart hall =>
    have hnone : left.any (Job.serves run) = false :=
      any_none.mpr fun j hj => Job.serves_of_isApart (hall j hj)
    exact nomatch hserves.symm.trans hnone
  | @courier project run' front back server hname hserver hfront hback =>
    have hsame := (any_serves hserver hfront hback run).symm.trans hserves
    obtain rfl : run' = run := of_decide_eq_true hsame
    exact ⟨project, front, back, server, rfl, hname, hserver, hfront, hback⟩

/-- A task serves a run of the project that the run was started for. -/
theorem Dutiful.named {started : List (String × String)} {project run : String} {server : Job}
    {rest : List Job} (hserver : server = .launch project run ∨ server = .drive project run)
    (hd : Dutiful started (server :: rest)) : (project, run) ∈ started := by
  generalize hleft : server :: rest = left at hd
  cases hd with
  | apart hall =>
    subst hleft
    have hapart := hall _ List.mem_cons_self
    rcases hserver with rfl | rfl <;> cases hapart
  | @courier project' run' front back server' hname hserver' hfront =>
    cases front with
    | cons j front =>
      obtain ⟨rfl, -⟩ := List.cons.inj hleft
      have hrelays := hfront _ List.mem_cons_self
      rcases hserver with rfl | rfl <;> cases hrelays
    | nil =>
      obtain ⟨rfl, -⟩ := List.cons.inj hleft
      rcases hserver with rfl | rfl <;> rcases hserver' with heq | heq <;> cases heq <;>
        exact hname

/-- All tasks are dutiful. -/
def Duties (e : Engine) : Prop := ∀ x ∈ e.tasks, Dutiful e.started x.2.left

theorem Dutiful.mono {started started' : List (String × String)}
    (hstarted : ∀ x ∈ started, x ∈ started') {left : List Job} (h : Dutiful started left) :
    Dutiful started' left := by
  cases h with
  | apart hall => exact .apart hall
  | courier hname hserver hfront hback => exact .courier (hstarted _ hname) hserver hfront hback

section Work

variable {s : Settings} {e e₁ : Engine} {job : Job} {next rest : List Job}

/-- What driving a run leaves to do. -/
theorem drive_next (ho : Orderly s e) {project run : String}
    (h : (Job.drive project run).run s e = some (next, e₁)) :
    (∀ j ∈ next, j.isApart = true) ∨
      ∃ front, next = front ++ [.drive project run] ∧ ∀ j ∈ front, j.relays project run = true := by
  cases run_cases h with
  | aside ha => cases ha
  | followed hf =>
    cases hf with
    | gone => exact Or.inl (List.forall_mem_nil _)
    | event hw ht =>
      have hnot := (ho.sound hw).told _ (ht ▸ List.mem_cons_self)
      exact Or.inr ⟨_, rfl, List.forall_mem_append.mpr
        ⟨saving_relays project run _, publishing_relays hnot⟩⟩
    | done => exact Or.inl (List.forall_mem_singleton.mpr rfl)
    | beat => exact Or.inr ⟨_, rfl, saving_relays project run _⟩

/-- What enlisting a run leaves to do before the run is launched relays its start. -/
theorem enrolling_relays (s : Settings) (project run : String) :
    ∀ j ∈ saving ++ (if s.journalLevel.isSome then [Job.keepJournal run] else []) ++
      publishing project run (.runStarted run), j.relays project run = true := by
  refine List.forall_mem_append.mpr ⟨List.forall_mem_append.mpr ⟨?_, ?_⟩, publishing_relays rfl⟩
  · exact saving_relays project run true
  · intro j hj
    split at hj
    · obtain rfl := List.mem_singleton.mp hj
      rfl
    · cases hj

/-- What a dutiful task has left to do after its next job. -/
theorem dutiful_next (ho : Orderly s e) (h : job.run s e = some (next, e₁))
    (hd : Dutiful e.started (job :: rest)) : Dutiful e₁.started (next ++ rest) := by
  have hstarted := started_mono h
  generalize hleft : job :: rest = left at hd
  cases hd with
  | apart hall =>
    subst hleft
    obtain ⟨hjob, hrest⟩ := List.forall_mem_cons.mp hall
    -- only by enlisting a run does such a task get to serve one
    by_cases henrol : ∃ project definition vars, job = .enrol project definition vars
    · obtain ⟨project, definition, vars, rfl⟩ := henrol
      have hname : (project, e.newRun s project) ∈ e₁.started :=
        started_enrol h ▸ List.mem_cons_self
      cases run_cases h with
      | aside ha => cases ha
      | enrolled =>
        rw [enrolling, List.append_assoc]
        refine .courier hname (Or.inl rfl) (enrolling_relays s project _) ?_
        exact List.forall_mem_cons.mpr ⟨rfl, List.forall_mem_cons.mpr ⟨rfl, hrest⟩⟩
    · have hnext := apart_next h hjob fun project definition vars heq =>
        henrol ⟨project, definition, vars, heq⟩
      exact .apart (List.forall_mem_append.mpr ⟨hnext, hrest⟩)
  | @courier project run front back server hname hserver hfront hback =>
    cases front with
    | cons j front =>
      obtain ⟨rfl, rfl⟩ := List.cons.inj hleft
      obtain ⟨hjob, hfront⟩ := List.forall_mem_cons.mp hfront
      change Dutiful e₁.started (next ++ (front ++ server :: back))
      rw [← List.append_assoc]
      refine .courier (hstarted _ hname) hserver ?_ hback
      exact List.forall_mem_append.mpr ⟨fun j hj => (relays_next h hjob j hj).1, hfront⟩
    | nil =>
      obtain ⟨rfl, rfl⟩ := List.cons.inj hleft
      rcases hserver with rfl | rfl
      · have hnone : next = [] := by
          cases run_cases h with
          | aside ha => cases ha
          | launched => rfl
          | strayed => rfl
        rw [hnone]
        exact .apart hback
      · rcases drive_next ho h with hall | ⟨front, rfl, hfront⟩
        · exact .apart (List.forall_mem_append.mpr ⟨hall, hback⟩)
        · rw [List.append_assoc]
          exact .courier (hstarted _ hname) (Or.inr rfl) hfront hback

/-- The tasks that a job of a dutiful task starts are dutiful. -/
theorem dutiful_spawned (h : job.run s e = some (next, e₁)) (hd : Dutiful e.started (job :: rest)) :
    ∀ row ∈ job.spawned e, Dutiful e₁.started row := by
  intro row hrow
  cases job
  case keepJournal run =>
    obtain rfl := List.mem_singleton.mp hrow
    exact .apart (List.forall_mem_singleton.mpr rfl)
  case launch project run =>
    have hname := hd.named (Or.inl rfl)
    rcases List.mem_cons.mp hrow with rfl | hrow
    · exact show Dutiful e₁.started ([] ++ [.drive project run]) from
        .courier (started_mono h _ hname) (Or.inr rfl) (List.forall_mem_nil _) (List.forall_mem_nil _)
    · obtain rfl := List.mem_singleton.mp hrow
      exact .apart (List.forall_mem_singleton.mpr rfl)
  all_goals cases hrow

end Work

/-- A call has nothing to do with what runs tell, and no end is announced right away. -/
theorem jobs_apart (c : Call) :
    ∀ j ∈ c.jobs, j.isApart = true ∧ ∀ run, j.closes run = false := by
  intro j hj
  cases c with
  | send run m => cases m <;> (obtain rfl := List.mem_singleton.mp hj; exact ⟨rfl, fun _ => rfl⟩)
  | pass =>
    simp only [Call.jobs, passing, List.mem_cons, List.not_mem_nil, or_false] at hj
    rcases hj with rfl | rfl | rfl <;> exact ⟨rfl, fun _ => rfl⟩
  | _ =>
    obtain rfl := List.mem_singleton.mp hj
    exact ⟨rfl, fun _ => rfl⟩

/-- Every deed leaves all tasks dutiful. -/
theorem duties_after {s : Settings} {e e' : Engine} {d : Deed} (hn : e.Numbered) (ho : Orderly s e)
    (hd : e.Duties) (h : e.after s d = some e') : e'.Duties := by
  intro x hx
  cases after_cases hn h with
  | @asked c =>
    rcases List.mem_cons.mp hx with rfl | hx
    · exact .apart fun j hj => (jobs_apart c j hj).1
    · exact hd x hx
  | @worked _ _ _ _ _ e₁ ht hrun =>
    have hduty := hd _ (task_mem ht)
    change Dutiful e₁.started x.2.left
    rcases mem_tasks_advance hrun hx with rfl | hx | hx
    · exact dutiful_next ho hrun hduty
    · exact (hd x hx).mono (started_mono hrun)
    · exact dutiful_spawned hrun hduty _ hx
  | still _ _ hstill =>
    rw [hstill.started]
    exact hd x (hstill.tasks x hx)

/-- All tasks are dutiful, whatever happens. -/
theorem Reached.duties {s : Settings} (hsandbox : s.around.IsSandboxed) (hs : NamesApart s)
    {l : List Moment} {e : Engine} (h : Reached s l e) : e.Duties := by
  refine (h.keeps (P := fun e => Orderly s e ∧ e.Duties) ?_ ?_).2
  · exact fun file source buffer busCapacity => ⟨orderly_fresh .., List.forall_mem_nil _⟩
  · exact fun _ _ _ hn ⟨ho, hd⟩ h =>
      ⟨orderly_after hsandbox hs hn ho h, duties_after hn ho hd h⟩

end Engine

end Workflow
