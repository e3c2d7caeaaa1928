import Workflow.Proofs.Engine.Pending

/-!
# One active run for each project

A start looks for an active run in one job and enlists a new one in another, and between
the two all other tasks go on: they stop runs, settle them, forget them. Still no project
ever has two active runs (`Reached.single`). The invariant, `Single`, rests on the
start lock:

* exactly one job that is left presupposes the lock if somebody holds it, and none if
  nobody does (`run_lock`);
* while a run waits to be enlisted its project has no active run, because no other job
  makes a run active (`Fate.isActive`).

A start that finds an active run replies with its record, and neither it nor a job left
behind changes anything but the lock (`Quietly`).
-/

namespace Workflow.Engine

open Engine.Job

/-! ## The start lock -/

/-- Whether a job presupposes that its task holds the start lock. -/
def Job.holdsStart : Job → Bool
  | findActive .. | enrol .. | endStart => true
  | _ => false

theorem Job.holdsStart_of_isAside {j : Job} (h : j.isAside = true) : j.holdsStart = false := by
  cases j <;> first | rfl | cases h

theorem Job.holdsStart_of_isChore {j : Job} (h : j.isChore = true) : j.holdsStart = false :=
  Job.holdsStart_of_isAside (Job.isAside_of_isChore h)

/-- **The start lock goes from job to job**: whoever takes it leaves a job that
presupposes it, and gives it back with the last such job. -/
theorem run_lock {s : Settings} {e e₁ : Engine} {job : Job} {next : List Job}
    (h : job.run s e = some (next, e₁)) (hheld : job.holdsStart = true → e.isStarting = true) :
    next.countP Job.holdsStart + e.isStarting.toNat =
      job.holdsStart.toNat + e₁.isStarting.toNat := by
  -- a job that leaves the lock alone, and no job behind that presupposes it
  have hmild : job.holdsStart = false → (∀ j, Leads s e job j → j.holdsStart = false) →
      e₁.isStarting = e.isStarting →
      next.countP Job.holdsStart + e.isStarting.toNat =
        job.holdsStart.toNat + e₁.isStarting.toNat := by
    intro hjob hleads heq
    have hnone : next.countP Job.holdsStart = 0 := countP_none.mpr fun j hj =>
      (mem_next h hj).elim Job.holdsStart_of_isChore (hleads j)
    rw [hjob, heq, hnone]
    rfl
  cases run_cases h with
  | aside ha hframe _ =>
    refine hmild (Job.holdsStart_of_isAside ha) (fun j hleads => ?_) hframe.isStarting
    cases hleads <;> first | rfl | cases ha
  | begun _ _ _ hfree =>
    rw [hfree]
    rfl
  | found => rfl
  | missed => rfl
  | enrolled project definition vars =>
    have hfront : (saving ++ (if s.journalLevel.isSome then [Job.keepJournal (e.newRun s project)]
        else []) ++ publishing project (e.newRun s project)
          (.runStarted (e.newRun s project))).countP Job.holdsStart = 0 :=
      countP_none.mpr fun j hj =>
        Job.holdsStart_of_isChore (Job.isChore_of_isRoutine (enrolling_isRoutine j hj))
    rw [enrolling, List.countP_append, hfront]
    rfl
  | startEnded =>
    rw [hheld rfl]
    rfl
  | stopped =>
    refine hmild rfl (fun j hleads => by cases hleads <;> rfl) ?_
    split
    · obtain ⟨walks, heq⟩ := (e.readClock s).2.cancel_eq _
      rw [heq]
      rfl
    · rfl
  | followed hf =>
    refine hmild rfl (fun j hleads => by cases hleads <;> rfl) ?_
    cases hf <;> rfl
  | settled hs =>
    refine hmild rfl (fun j hleads => by cases hleads <;> rfl) ?_
    cases hs <;> rfl
  | _ => exact hmild rfl (fun j hleads => by cases hleads <;> rfl) rfl

/-! ## The invariant -/

/-- **Single**: no project has two active runs, and none can get a second. -/
structure Single (e : Engine) : Prop where
  /-- records stand under their ids -/
  tidy : e.table.Tidy
  /-- no project has two active runs -/
  lone : e.table.Lone
  /-- one job presupposes the start lock, if somebody holds it -/
  lock : e.pending.countP Job.holdsStart = e.isStarting.toNat
  /-- a project for which a run waits to be enlisted has no active run -/
  free : ∀ {project definition vars}, Job.enrol project definition vars ∈ e.pending →
    ∀ {id h}, e.table.find? id = some h → h.record.projectId = project →
      h.record.status.isActive = false
  /-- no run that waits to be taken up is active -/
  rested : ∀ {records}, Job.restore records ∈ e.pending → ∀ r ∈ records,
    r.status.isActive = false

theorem Single.rested_job {e : Engine} (hs : e.Single) {job : Job} (hj : job ∈ e.pending)
    {records : List RunRecord} (heq : job = .restore records) :
    ∀ r ∈ records, r.status.isActive = false := by
  subst heq
  exact hs.rested hj

/-- Two jobs of a kind of which there is at most one are the same. -/
theorem eq_of_countP_le_one {q : Job → Bool} {l : List Job} (h : l.countP q ≤ 1) {a b : Job}
    (ha : a ∈ l) (hb : b ∈ l) (hqa : q a = true) (hqb : q b = true) : a = b := by
  rw [List.countP_eq_length_filter] at h
  have hma := List.mem_filter.mpr ⟨ha, hqa⟩
  have hmb := List.mem_filter.mpr ⟨hb, hqb⟩
  generalize l.filter q = f at h hma hmb
  match f with
  | [] => cases hma
  | [_] => exact (List.mem_singleton.mp hma).trans (List.mem_singleton.mp hmb).symm
  | _ :: _ :: _ => exact absurd h (by simp)

/-- Where an active record comes from: it was active before, or the run was enlisted
just now. -/
theorem Fate.isActive {s : Settings} {e : Engine} {job : Job} {run : String} {o : Option Handle}
    {h' : Handle} (hf : Fate s e job run o (some h'))
    (hrested : ∀ {records}, job = .restore records → ∀ r ∈ records, r.status.isActive = false)
    (ha : h'.record.status.isActive = true) :
    (∃ h, o = some h ∧ h.record.status.isActive = true ∧
        h.record.projectId = h'.record.projectId) ∨
      ∃ definition vars, job = .enrol h'.record.projectId definition vars ∧
        run = e.newRun s h'.record.projectId := by
  cases hf with
  | kept => exact Or.inl ⟨h', rfl, ha, rfl⟩
  | born hj hr => exact Or.inr ⟨_, _, hj, hr⟩
  | changed hc => exact Or.inl ⟨_, rfl, hc.isActive ha, hc.projectId.symm⟩
  | restored hj hr =>
    have hnot := hrested hj _ hr
    exact nomatch ha.symm.trans hnot

theorem load_rested {path : String} {file : Stored} {records : List RunRecord}
    (h : Registry.load path file = .ok records) : ∀ r ∈ records, r.status.isActive = false :=
  fun r hr => RunStatus.isActive_of_isTerminal (Registry.load_over h r hr)

theorem lone_run {s : Settings} {e e₁ : Engine} {job : Job} {next : List Job} (hs : e.Single)
    (hj : job ∈ e.pending) (h : job.run s e = some (next, e₁)) : e₁.table.Lone := by
  intro id id' h₁ h₂ hf₁ hf₂ ha₁ ha₂ hp
  have hfate₁ := run_fate h hs.tidy id
  have hfate₂ := run_fate h hs.tidy id'
  rw [hf₁] at hfate₁
  rw [hf₂] at hfate₂
  rcases hfate₁.isActive (hs.rested_job hj) ha₁ with ⟨old₁, ho₁, hold₁, hp₁⟩ | ⟨definition, vars, rfl, hr₁⟩
  · rcases hfate₂.isActive (hs.rested_job hj) ha₂ with ⟨old₂, ho₂, hold₂, hp₂⟩ | ⟨definition, vars, rfl, hr₂⟩
    · exact hs.lone id id' old₁ old₂ ho₁ ho₂ hold₁ hold₂ (hp₁.trans (hp.trans hp₂.symm))
    · -- a run was enlisted although its project had an active one
      have hfree := hs.free hj ho₁ (hp₁.trans hp)
      exact nomatch hold₁.symm.trans hfree
  · rcases hfate₂.isActive (hs.rested_job hj) ha₂ with ⟨old₂, ho₂, hold₂, hp₂⟩ | ⟨_, _, -, hr₂⟩
    · have hfree := hs.free hj ho₂ (hp₂.trans hp.symm)
      exact nomatch hold₂.symm.trans hfree
    · rw [hr₁, hr₂, hp]

theorem countP_spawned (e : Engine) (job : Job) :
    (job.spawned e).flatten.countP Job.holdsStart = 0 := by
  cases job <;> rfl

/-- The work of a task keeps the invariant. -/
theorem single_work {s : Settings} {e e₁ : Engine} (hn : e.Numbered) (hs : e.Single) {id : Nat}
    {job : Job} {rest next : List Job} {reply reply' : Option Reply}
    (ht : e.task? id = some ⟨job :: rest, reply⟩) (h : job.run s e = some (next, e₁)) :
    (e₁.setTask id ⟨next ++ rest, reply'⟩).Single := by
  have hj : job ∈ e.pending := mem_pending ht List.mem_cons_self
  have hlock : (e₁.setTask id ⟨next ++ rest, reply'⟩).pending.countP Job.holdsStart =
      e₁.isStarting.toNat := by
    have hheld : job.holdsStart = true → e.isStarting = true := by
      intro hq
      have hpos := List.countP_pos_iff.mpr ⟨job, hj, hq⟩
      rw [hs.lock] at hpos
      cases hb : e.isStarting with
      | true => rfl
      | false =>
        rw [hb] at hpos
        cases hpos
    have hbalance := run_lock h hheld
    have hcount := countP_pending_work Job.holdsStart hn ht h reply'
    rw [countP_spawned, hs.lock] at hcount
    omega
  have hone : ∀ {a b : Job}, a ∈ (e₁.setTask id ⟨next ++ rest, reply'⟩).pending →
      b ∈ (e₁.setTask id ⟨next ++ rest, reply'⟩).pending →
      a.holdsStart = true → b.holdsStart = true → a = b := by
    intro a b ha hb
    refine eq_of_countP_le_one ?_ ha hb
    rw [hlock]
    exact Bool.toNat_le e₁.isStarting
  have htidy := run_tidy h hs.tidy
  have hlone := lone_run hs hj h
  refine ⟨htidy, hlone, hlock, ?_, ?_⟩
  · intro project definition vars hmem run h' hf hp
    refine Bool.eq_false_iff.mpr fun ha => ?_
    have hfate := run_fate h hs.tidy run
    rw [show e₁.table.find? run = some h' from hf] at hfate
    rcases hfate.isActive (hs.rested_job hj) ha with ⟨old, ho, hold, hpold⟩ | ⟨definition', vars', rfl, -⟩
    · have hnot : old.record.status.isActive = false := by
        rcases mem_pending_advance hn ht h hmem with hpending | haside | hleads
        · exact hs.free hpending ho (hpold.trans hp)
        · cases haside
        · cases hleads with
          | enrol _ _ hnone => exact RunTable.active?_none hnone ho (hpold.trans hp)
      exact nomatch hold.symm.trans hnot
    · -- enlisting leaves the lock to be given back, which nobody else can be about to do
      have hend : Job.endStart ∈ (e₁.setTask id ⟨next ++ rest, reply'⟩).pending := by
        have hnext : Job.endStart ∈ next := by
          cases run_cases h with
          | aside ha => cases ha
          | enrolled => simp [enrolling]
        have hin := (pending_advance hn ht h reply').mem_iff.mpr
          (List.mem_append_right _ hnext)
        rcases List.mem_cons.mp hin with heq | hin
        · cases heq
        · exact hin
      cases hone hmem hend rfl rfl
  · intro records hmem
    rcases mem_pending_advance hn ht h hmem with hpending | haside | hleads
    · exact hs.rested hpending
    · cases haside
    · cases hleads with
      | restore hload => exact load_rested hload

theorem single_ask {e : Engine} (hs : e.Single) (c : Call) : (e.ask c.jobs).Single := by
  have hnew : ∀ {j : Job}, j ∈ (e.ask c.jobs).pending → j.holdsStart = true ∨
      (∃ records, j = .restore records) → j ∈ e.pending := by
    intro j hj hkind
    rcases List.mem_append.mp hj with hj | hj
    · rcases mem_jobs hj with haside | ⟨_, _, _, rfl⟩ | ⟨_, rfl⟩ | ⟨_, rfl⟩
      · rcases hkind with hheld | ⟨records, rfl⟩
        · exact nomatch hheld.symm.trans (Job.holdsStart_of_isAside haside)
        · cases haside
      all_goals rcases hkind with hheld | ⟨records, hr⟩ <;> contradiction
    · exact hj
  refine ⟨hs.tidy, hs.lone, ?_, ?_, ?_⟩
  · have hzero : c.jobs.countP Job.holdsStart = 0 := by
      refine List.countP_eq_zero.mpr fun j hj => ?_
      rcases mem_jobs hj with haside | ⟨_, _, _, rfl⟩ | ⟨_, rfl⟩ | ⟨_, rfl⟩
      · rw [Job.holdsStart_of_isAside haside]
        exact Bool.false_ne_true
      all_goals exact Bool.false_ne_true
    rw [pending_ask, List.countP_append, hzero, hs.lock, Nat.zero_add]
    rfl
  · intro project definition vars hmem
    exact hs.free (hnew hmem (Or.inl rfl))
  · intro records hmem
    exact hs.rested (hnew hmem (Or.inr ⟨records, rfl⟩))

/-- Every deed keeps the invariant. -/
theorem single_after {s : Settings} {e e' : Engine} {d : Deed} (hn : e.Numbered) (hs : e.Single)
    (h : e.after s d = some e') : e'.Single := by
  cases after_cases hn h with
  | asked => exact single_ask hs _
  | worked ht hrun => exact single_work hn hs ht hrun
  | still _ _ hstill =>
    constructor
    · rw [hstill.table]
      exact hs.tidy
    · rw [hstill.table]
      exact hs.lone
    · rw [hstill.pending, hstill.isStarting]
      exact hs.lock
    · rw [hstill.pending, hstill.table]
      exact hs.free
    · rw [hstill.pending]
      exact hs.rested

theorem single_fresh (file : Stored) (source : Option (Option (Fields String)))
    (buffer busCapacity : Nat) : (fresh file source buffer busCapacity).Single where
  tidy := ⟨List.Pairwise.nil, fun hf => by cases hf⟩
  lone := by
    intro id id' h h' hf
    cases hf
  lock := rfl
  free := fun hmem => by cases hmem
  rested := fun hmem => by cases hmem

/-- **No project ever has two active runs**, in whatever order tasks do their jobs. -/
theorem Reached.single {s : Settings} {l : List Moment} {e : Engine} (h : Reached s l e) :
    e.Single :=
  h.keeps single_fresh fun _ _ _ hn hs hd => single_after hn hs hd

/-! ## Starts that find an active run -/

/-- What a task leaves as it was: all of the engine but the start lock, and all other
tasks. -/
structure Untouched (id : Nat) (e e' : Engine) : Prop where
  /-- only tasks and the start lock may differ -/
  same : e' = { e with tasks := e'.tasks, isStarting := e'.isStarting }
  /-- and no other task does -/
  others : ∀ i, i ≠ id → e'.task? i = e.task? i

/-- A task comes to an end with so many further jobs, which are possible at any time and
change nothing, whatever others do in between. -/
def Quietly (s : Settings) (id : Nat) (last : Task) : Nat → Engine → Prop
  | 0, e => e.task? id = some last
  | n + 1, e => ∀ l e₁, Runs s e l e₁ → (∀ m ∈ l, m.deed ≠ .work id) →
    ∃ e₂, e₁.advance s id = some e₂ ∧ Untouched id e₁ e₂ ∧ Quietly s id last n e₂

/-- A job that changes the start lock at most changes nothing else of an engine. -/
theorem untouched_setTask (e : Engine) (isStarting : Bool) (id : Nat) (t : Task) :
    Untouched id e (({ e with isStarting := isStarting }).setTask id t) where
  same := rfl
  others := fun _ hne => task?_setTask_ne _ hne t

/-- Giving the start lock back and replying is done quietly. -/
theorem quietly_reply {s : Settings} {e : Engine} (hn : e.Numbered) {id : Nat} {rest : List Job}
    {reply : Option Reply} {r : Reply}
    (ht : e.task? id = some ⟨.endStart :: .answer r :: rest, reply⟩) :
    Quietly s id ⟨rest, some r⟩ 2 e := by
  intro l e₁ hruns hothers
  have hn₁ := hruns.numbered hn
  have ht₁ := hruns.task? hn hothers ht (List.cons_ne_nil _ _)
  refine ⟨_, advance_eq s ht₁, untouched_setTask e₁ false id _, ?_⟩
  -- the same again, from the engine in which the lock is free
  have hn₂ := setTask_numbered (e := { e₁ with isStarting := false }) ⟨hn₁.below, hn₁.distinct⟩ ht₁
    ⟨.answer r :: rest, reply⟩
  have ht₂ := task?_setTask_self (e := { e₁ with isStarting := false })
    ⟨hn₁.below, hn₁.distinct⟩ ht₁ (t := ⟨.answer r :: rest, reply⟩) (Or.inl (List.cons_ne_nil _ _))
  intro l' e₃ hruns' hothers'
  have hn₃ := hruns'.numbered hn₂
  have ht₃ := hruns'.task? hn₂ hothers' ht₂ (List.cons_ne_nil _ _)
  refine ⟨_, advance_eq s ht₃, untouched_setTask e₃ e₃.isStarting id _, ?_⟩
  exact task?_setTask_self hn₃ ht₃ (Or.inr rfl)

/-- A start that finds an active run replies with its record, quietly. -/
theorem quietly_found {s : Settings} {e : Engine} (hn : e.Numbered) {id : Nat} {project : String}
    {definition : Definition} {vars : Vars} {rest : List Job} {reply : Option Reply}
    {r : RunRecord} (ht : e.task? id = some ⟨.findActive project definition vars :: rest, reply⟩)
    (hr : e.table.active? project = some r) :
    ∃ e₁, e.advance s id = some e₁ ∧ Untouched id e e₁ ∧
      Quietly s id ⟨rest, some (.record r)⟩ 2 e₁ := by
  have hadvance : e.advance s id =
      some (e.setTask id ⟨.endStart :: .answer (.record r) :: rest, reply⟩) := by
    rw [advance_eq s ht]
    simp only [Job.run, hr]
    rfl
  refine ⟨_, hadvance, untouched_setTask e e.isStarting id _, ?_⟩
  exact quietly_reply (setTask_numbered hn ht _)
    (task?_setTask_self hn ht (Or.inl (List.cons_ne_nil _ _)))

/-- **One active run for each project.** Whatever tasks do and in whatever order, no
project has two records that are starting or running. And a start changes nothing but
the start lock as long as it looks; if it finds an active run of its project it goes on
to give the lock back and to reply with the record of that run, and changes nothing
either: no record, no file, no mailbox, no journal and no other task. -/
theorem Reached.one_active_run {s : Settings} {l : List Moment} {e : Engine} (h : Reached s l e) :
    (∀ project, (e.table.records.filter fun r =>
      r.projectId = project && r.status.isActive).length ≤ 1) ∧
    (∀ id project definition vars rest reply e₁,
      e.task? id = some ⟨.beginStart project definition vars :: rest, reply⟩ →
      e.advance s id = some e₁ →
      Untouched id e e₁ ∧
        e₁.task? id = some ⟨.findActive project definition vars :: rest, reply⟩) ∧
    ∀ id project definition vars rest reply r,
      e.task? id = some ⟨.findActive project definition vars :: rest, reply⟩ →
      e.table.active? project = some r →
      ∃ e₁, e.advance s id = some e₁ ∧ Untouched id e e₁ ∧
        Quietly s id ⟨rest, some (.record r)⟩ 2 e₁ := by
  refine ⟨?_, ?_, ?_⟩
  · intro project
    exact h.single.lone.length_active_le_one h.single.tidy project
  · intro id project definition vars rest reply e₁ ht hadvance
    rw [advance_eq s ht] at hadvance
    obtain ⟨⟨next, e₂⟩, hrun, rfl⟩ := Option.map_eq_some_iff.mp hadvance
    cases run_cases hrun with
    | aside ha => cases ha
    | begun =>
      have hn : ({ e with isStarting := true } : Engine).Numbered :=
        ⟨h.numbered.below, h.numbered.distinct⟩
      exact ⟨untouched_setTask e true id _,
        task?_setTask_self hn ht (Or.inl (List.cons_ne_nil _ _))⟩
  · intro id project definition vars rest reply r ht hr
    exact quietly_found h.numbered ht hr

/-- Two starts of a project: the first is through, and the second is about to look. -/
def twice : List Deed :=
  .ask trialStart :: List.replicate 14 (.work 0) ++ [.ask trialStart, .work 3]

/-- The second of two starts finds the run of the first. -/
theorem second_start_finds_first :
    ∃ l e r, Reached trial l e ∧
      e.task? 3 = some ⟨[.findActive "p" { nodes := [{ id := "a" }], edges := [] } {}], none⟩ ∧
      e.table.active? "p" = some r ∧ ∃ e₁, e.advance trial 3 = some e₁ ∧ Untouched 3 e e₁ ∧
        Quietly trial 3 ⟨[], some (.record r)⟩ 2 e₁ := by
  have hsome : ((fresh .absent none 8 8).replay trial twice).isSome = true := rfl
  have hr : Reached trial (Option.get _ hsome).1 (Option.get _ hsome).2 :=
    ⟨_, _, _, _, replay_runs (Option.some_get hsome).symm⟩
  have ht : (Option.get _ hsome).2.task? 3 =
      some ⟨[.findActive "p" { nodes := [{ id := "a" }], edges := [] } {}], none⟩ := rfl
  have ha : ((Option.get _ hsome).2.table.active? "p").isSome = true := rfl
  have hactive := (Option.some_get ha).symm
  exact ⟨_, _, _, hr, ht, hactive, hr.one_active_run.2.2 3 "p" _ {} [] none _ ht hactive⟩

end Workflow.Engine
