import Workflow.Proofs.Engine.Course

/-!
# What jobs do

Says once what a job can do to an engine, so that no later proof looks into
`Job.run`. The jobs fall into two kinds.

* A job *aside* leaves the runs alone: the table, the walks, the names given so far and
  the start lock stay (`Aside`), and what it leaves to do is an errand (`Errand`).
* Each of the others has its case in `Does`, with the jobs that come next and the
  engine after it.

`run_cases` is the inversion of `Job.run`. What follows from it for the jobs is that
`Leads` tells which job comes of which (`mem_next`) and `Publishes` which events a job
leaves to publish (`deliver_next`), and for the tasks that a job only starts some
(`run_tasks`).
-/

namespace Workflow.Engine

open Engine.Job

/-! ## Jobs aside -/

/-- Whether a job leaves the runs alone. -/
def Job.isAside : Job → Bool
  | beginStart .. | findActive .. | enrol .. | launch .. | endStart | stop _ | remove _
  | restore _ | cancelAll | post .. | walk _ | drive .. | settle .. => false
  | _ => true

/-- Whether a job is a chore: what other jobs leave to do, aside. -/
def Job.isChore : Job → Bool
  | keepJournal _ | subscribe .. | lockFile | snapshot | save _ | unlockFile | deliver ..
  | announce _ | signal _ | openJournal .. | writeJournal .. | unsubscribe .. | upsert _
  | dropMissing _ | forget _ | stopActive _ | noteStarted .. | answer _ => true
  | _ => false

theorem Job.isAside_of_isChore {j : Job} (h : j.isChore = true) : j.isAside = true := by
  cases j <;> first | rfl | cases h

/-- Whether a job is routine: a chore that comes of what happens to runs, such as saving their
records, publishing an event and answering. -/
def Job.isRoutine : Job → Bool
  | keepJournal _ | lockFile | snapshot | save _ | unlockFile | deliver .. | announce _ | signal _
  | answer _ => true
  | _ => false

theorem Job.isChore_of_isRoutine {j : Job} (h : j.isRoutine = true) : j.isChore = true := by
  cases j <;> first | rfl | cases h

/-- The rows of jobs for which a job starts tasks of their own. -/
def Job.spawned (e : Engine) : Job → List (List Job)
  | keepJournal run => [[.openJournal run e.broadcaster.nextId]]
  | launch project run => [[.drive project run], [.walk run]]
  | _ => []

/-- Starts a task for each of some rows of jobs. -/
def spawnAll (e : Engine) (rows : List (List Job)) : Engine := rows.foldl spawn e

/-- What a job aside leaves as it was, and the tasks it starts. -/
structure Aside (job : Job) (e e₁ : Engine) : Prop where
  /-- no run is changed -/
  table : e₁.table = e.table
  /-- no walk goes on -/
  walks : e₁.walks = e.walks
  /-- no name is given -/
  started : e₁.started = e.started
  /-- the start lock stays -/
  isStarting : e₁.isStarting = e.isStarting
  /-- tasks are started behind all others -/
  tasks : e₁.tasks = (e.spawnAll (job.spawned e)).tasks
  /-- and counted -/
  nextTask : e₁.nextTask = (e.spawnAll (job.spawned e)).nextTask

/-! ## Single jobs -/

/-- The name of the run that a project would get now. -/
def newRun (s : Settings) (e : Engine) (project : String) : String :=
  s.nameRun project (e.startedOf project + 1)

/-- The record that a project's new run would get now. -/
def newRecord (s : Settings) (e : Engine) (project : String) (definition : Definition)
    (vars : Vars) : RunRecord :=
  { RunRecord.starting (e.newRun s project) project definition vars (e.readClock s).1 with
    status := .running }

/-- The walk that a new run would get now. -/
def newWalk (e : Engine) (definition : Definition) (vars : Vars) : Walk :=
  let walk := Interpreter.start definition vars (some {})
  { run := if e.isShut then walk.cancel else walk }

/-- The jobs that enlisting a run leaves to do. -/
def enrolling (s : Settings) (e : Engine) (project : String) (definition : Definition)
    (vars : Vars) : List Job :=
  saving ++ (if s.journalLevel.isSome then [.keepJournal (e.newRun s project)] else []) ++
    publishing project (e.newRun s project) (.runStarted (e.newRun s project)) ++
    [.launch project (e.newRun s project), .endStart,
      .answer (.record (e.newRecord s project definition vars))]

/-- The engine with a new run. -/
def enrolled (s : Settings) (e : Engine) (project : String) (definition : Definition)
    (vars : Vars) : Engine :=
  let e' := { (e.readClock s).2 with
    started := (project, e.newRun s project) :: e.started
    walks := e.walks.put (e.newRun s project) (e.newWalk definition vars) }
  e'.setTable (e.table.enlist s.keepFinished (e.newRecord s project definition vars))

/-- What a walk came to. -/
def Walk.result (w : Walk) : WalkResult :=
  match w.run.report? with
  | some report => .report report
  | none => .broken

/-- A record that was stopped. -/
def stoppedAt (h : Handle) (clock : Instant) : Handle :=
  { h with record := ({ h.record with status := .stopped }).touch clock }

/-- A record that was settled after a walk. -/
def settledAt (h : Handle) (w : Walk) (clock : Instant) : Handle :=
  { h with
    record := (RunTable.settled (h.record.touch clock) w.result).1
    listens := false }

/-- The event that is due when a record is settled after a walk. -/
def dueAt (h : Handle) (w : Walk) (clock : Instant) : Option Event :=
  (RunTable.settled (h.record.touch clock) w.result).2

/-- That a job may leave another one to do that is no chore. -/
inductive Leads (s : Settings) (e : Engine) : Job → Job → Prop
  /-- with the start lock one looks for an active run -/
  | find (project : String) (definition : Definition) (vars : Vars) :
      Leads s e (.beginStart project definition vars) (.findActive project definition vars)
  /-- a run is enlisted where none was found -/
  | enrol {project : String} (definition : Definition) (vars : Vars) :
      e.table.active? project = none →
      Leads s e (.findActive project definition vars) (.enrol project definition vars)
  /-- the start lock is given back where one was found -/
  | release (project : String) (definition : Definition) (vars : Vars) :
      Leads s e (.findActive project definition vars) .endStart
  /-- a new run is launched -/
  | launch (project : String) (definition : Definition) (vars : Vars) :
      Leads s e (.enrol project definition vars) (.launch project (e.newRun s project))
  /-- the start lock is given back after that -/
  | endStart (project : String) (definition : Definition) (vars : Vars) :
      Leads s e (.enrol project definition vars) .endStart
  /-- a run that is launched gets a driver -/
  | drive (project run : String) : Leads s e (.launch project run) (.drive project run)
  /-- and goes its steps -/
  | walk (project run : String) : Leads s e (.launch project run) (.walk run)
  /-- the driver goes on -/
  | driveOn (project run : String) : Leads s e (.drive project run) (.drive project run)
  /-- and settles the run when nothing more will come -/
  | settle {project run : String} {w : Walk} : e.walks.find? run = some w →
      w.run.isOver = true → Leads s e (.drive project run) (.settle project run)
  /-- one step comes after the other -/
  | walkOn (run : String) : Leads s e (.walk run) (.walk run)
  /-- a run is to be stopped -/
  | stop {job : Job} (run : String) : job.isAside → Leads s e job (.stop run)
  /-- a message is to be put into an inbox -/
  | post {job : Job} (run : String) (m : Control) : job.isAside → Leads s e job (.post run m)
  /-- all walks are to be cancelled -/
  | cancelAll {job : Job} : job.isAside → Leads s e job .cancelAll
  /-- a run is to be started, as planned -/
  | start (project : String) (definition : Definition) (vars : Vars) :
      Leads s e .plan (.beginStart project definition vars)
  /-- what was read is to be taken up -/
  | restore {records : List RunRecord} : Registry.load s.registryPath e.file = .ok records →
      Leads s e .reload (.restore records)

/-- What a job aside may leave to do: a chore that publishes nothing, or what it leads
to. -/
def Errand (s : Settings) (e : Engine) (job next : Job) : Prop :=
  (next.isChore = true ∧ ∀ subject event, next ≠ .deliver subject event) ∨ Leads s e job next

/-- What following a run comes to. -/
inductive Followed (s : Settings) (e : Engine) (project run : String) : List Job → Engine → Prop
  /-- its driver comes too late -/
  | gone : e.walks.find? run = none → Followed s e project run [] e
  /-- an event is noted and published -/
  | event {w : Walk} {event : Event} {rest : List Event} :
      e.walks.find? run = some w → w.told = event :: rest →
      Followed s e project run
        ((if (e.table.observe run event (e.readClock s).1).1 then saving else []) ++
          publishing project run event ++ [.drive project run])
        (((e.readClock s).2.setWalk run { w with told := rest }).setTable
          (e.table.observe run event (e.readClock s).1).2)
  /-- nothing more will come -/
  | done {w : Walk} : e.walks.find? run = some w → w.told = [] → w.run.isOver = true →
      Followed s e project run [.settle project run] e
  /-- a sign of life is noted -/
  | beat {w : Walk} : e.walks.find? run = some w → w.told = [] → w.run.isOver = false →
      w.nextBeat ≤ e.now →
      Followed s e project run
        ((if (e.table.beat run (e.readClock s).1).1 then saving else []) ++ [.drive project run])
        (((e.readClock s).2.setWalk run
            { w with nextBeat := w.nextBeat + max s.heartbeat 1 }).setTable
          (e.table.beat run (e.readClock s).1).2)

/-- What settling a run comes to. -/
inductive Settled (s : Settings) (e : Engine) (project run : String) : List Job → Engine → Prop
  /-- it was settled before -/
  | gone : e.walks.find? run = none → Settled s e project run [] e
  /-- it was forgotten -/
  | unknown {w : Walk} : e.walks.find? run = some w → e.table.find? run = none →
      Settled s e project run [] { (e.readClock s).2 with walks := e.walks.erase run }
  /-- its end is noted, and announced if that is due -/
  | known {w : Walk} {h : Handle} : e.walks.find? run = some w → e.table.find? run = some h →
      Settled s e project run
        (saving ++ ((dueAt h w (e.readClock s).1).map (publishing project run)).getD [] ++
          (if h.isOwn then [.signal run] else []))
        (({ (e.readClock s).2 with walks := e.walks.erase run }).setTable
          (e.table.put run (settledAt h w (e.readClock s).1)))

/-- What a job can do: the jobs that come next, and the engine after it. -/
inductive Does (s : Settings) (e : Engine) : Job → List Job → Engine → Prop
  /-- it leaves the runs alone -/
  | aside {job : Job} {next : List Job} {e₁ : Engine} : job.isAside → Aside job e e₁ →
      (∀ j ∈ next, Errand s e job j) → Does s e job next e₁
  /-- the start lock was free -/
  | begun (project : String) (definition : Definition) (vars : Vars) : e.isStarting = false →
      Does s e (.beginStart project definition vars) [.findActive project definition vars]
        { e with isStarting := true }
  /-- the project has an active run -/
  | found (project : String) (definition : Definition) (vars : Vars) (r : RunRecord) :
      e.table.active? project = some r →
      Does s e (.findActive project definition vars) [.endStart, .answer (.record r)] e
  /-- the project has none -/
  | missed (project : String) (definition : Definition) (vars : Vars) :
      e.table.active? project = none →
      Does s e (.findActive project definition vars) [.enrol project definition vars] e
  /-- a run is enlisted -/
  | enrolled (project : String) (definition : Definition) (vars : Vars) :
      Does s e (.enrol project definition vars) (e.enrolling s project definition vars)
        (e.enrolled s project definition vars)
  /-- a run is set on its way, and gets a sign of life in time -/
  | launched (project run : String) (w : Walk) : e.walks.find? run = some w →
      Does s e (.launch project run) []
        (((e.setWalk run { w with nextBeat := e.now + max s.heartbeat 1 }).spawn
          [.drive project run]).spawn [.walk run])
  /-- a run that is gone is set on its way -/
  | strayed (project run : String) : e.walks.find? run = none →
      Does s e (.launch project run) [] ((e.spawn [.drive project run]).spawn [.walk run])
  /-- the start lock is given back -/
  | startEnded : Does s e .endStart [] { e with isStarting := false }
  /-- there was nothing to stop -/
  | notStopped (run : String) (reply : Reply) :
      (∀ h, e.table.find? run = some h → h.record.status.isActive = false) →
      Does s e (.stop run) (replying reply) (e.readClock s).2
  /-- a run is stopped -/
  | stopped {run : String} {h : Handle} : e.table.find? run = some h →
      h.record.status.isActive = true →
      Does s e (.stop run)
        (saving ++ publishing h.record.projectId run (.runStopped run) ++
          replying (.record (stoppedAt h (e.readClock s).1).record))
        ((if h.isOwn then (e.readClock s).2.cancel run else (e.readClock s).2).setTable
          (e.table.put run (stoppedAt h (e.readClock s).1)))
  /-- there was nothing to forget -/
  | notRemoved (run : String) (f : Failure) : Does s e (.remove run) (replying (.refused f)) e
  /-- a run is forgotten -/
  | removed {run : String} {h : Handle} : e.table.find? run = some h →
      h.record.status.isActive = false →
      Does s e (.remove run) (saving ++ replying (.record h.record))
        (e.setTable (e.table.erase run))
  /-- runs are taken up -/
  | restored (records : List RunRecord) :
      Does s e (.restore records) (saving ++ replying (.restored records.length))
        (e.setTable (e.table.restore records))
  /-- all walks are cancelled -/
  | allCancelled : Does s e .cancelAll []
      { e with
        isShut := true
        walks := e.walks.map fun (run, w) => (run, { w with run := w.run.cancel }) }
  /-- nobody takes a message -/
  | notPosted (run : String) (m : Control) :
      Does s e (.post run m) (replying (.refused (.runNotFound run))) e
  /-- a message is in the inbox -/
  | posted {run : String} {w : Walk} (m : Control) : e.walks.find? run = some w →
      w.run.isOver = false →
      Does s e (.post run m) (replying .done) (e.setWalk run { w with run := w.run.send m })
  /-- there is no step to go -/
  | unmoved {run : String} :
      (∀ w, e.walks.find? run = some w → w.run.step (s.around.forRun run) e.now = none) →
      Does s e (.walk run) [] e
  /-- a step was gone -/
  | walked {run : String} {w : Walk} {told : Option Event} {r : Interpreter} :
      e.walks.find? run = some w → w.run.step (s.around.forRun run) e.now = some (told, r) →
      Does s e (.walk run) [.walk run]
        (e.setWalk run { w with run := r, told := w.told ++ told.toList })
  /-- a run is followed -/
  | followed {project run : String} {next : List Job} {e₁ : Engine} :
      Followed s e project run next e₁ → Does s e (.drive project run) next e₁
  /-- a run is settled -/
  | settled {project run : String} {next : List Job} {e₁ : Engine} :
      Settled s e project run next e₁ → Does s e (.settle project run) next e₁

/-! ## The inversion -/

theorem follow_cases {s : Settings} {e e₁ : Engine} {project run : String} {next : List Job}
    (h : Job.follow s e project run = some (next, e₁)) : Followed s e project run next e₁ := by
  unfold Job.follow at h
  split at h
  · next hw =>
    cases h
    exact .gone hw
  · next w hw =>
    split at h
    · next event rest ht =>
      cases h
      exact .event hw ht
    · next ht =>
      split at h
      · next ho =>
        cases h
        exact .done hw ht ho
      · next ho =>
        split at h
        · next hb =>
          cases h
          exact .beat hw ht (Bool.eq_false_iff.mpr ho) hb
        · cases h

/-- Settling a run that is still on its way. -/
theorem settleRun_eq (s : Settings) {e : Engine} {run : String} {w : Walk}
    (hw : e.walks.find? run = some w) (project : String) :
    settleRun s e project run =
      match e.table.settle run w.result (e.readClock s).1 with
      | none => ([], { (e.readClock s).2 with walks := e.walks.erase run })
      | some (h, due, table) =>
        (saving ++ (due.map (publishing project run)).getD [] ++
            (if h.isOwn then [.signal run] else []),
          ({ (e.readClock s).2 with walks := e.walks.erase run }).setTable table) := by
  unfold settleRun
  rw [hw]
  rfl

theorem settleRun_cases (s : Settings) (e : Engine) (project run : String) :
    Settled s e project run (settleRun s e project run).1 (settleRun s e project run).2 := by
  cases hw : e.walks.find? run with
  | none =>
    have hgone : settleRun s e project run = ([], e) := by
      unfold settleRun
      rw [hw]
    rw [hgone]
    exact .gone hw
  | some w =>
    rw [settleRun_eq s hw]
    cases ht : e.table.find? run with
    | none =>
      have hnone : e.table.settle run w.result (e.readClock s).1 = none := by
        rw [RunTable.settle, ht]
        rfl
      rw [hnone]
      exact .unknown hw ht
    | some h =>
      have hsome : e.table.settle run w.result (e.readClock s).1 =
          some (settledAt h w (e.readClock s).1, dueAt h w (e.readClock s).1,
            e.table.put run (settledAt h w (e.readClock s).1)) := by
        rw [RunTable.settle, ht]
        rfl
      rw [hsome]
      exact .known hw ht

@[simp] theorem readClock_table (s : Settings) (e : Engine) : (e.readClock s).2.table = e.table :=
  rfl

theorem stop_cases {s : Settings} {e e₁ : Engine} {run : String} {next : List Job}
    (h : (Job.stop run).run s e = some (next, e₁)) : Does s e (.stop run) next e₁ := by
  simp only [Job.run] at h
  cases ht : e.table.find? run with
  | none =>
    rw [readClock_table, RunTable.stop, ht] at h
    cases h
    exact .notStopped run _ fun _ hh => nomatch hh.symm.trans ht
  | some found =>
    rw [readClock_table, RunTable.stop, ht] at h
    cases ha : found.record.status.isActive with
    | false =>
      simp only [ha, Bool.false_eq_true, if_false] at h
      cases h
      refine .notStopped run _ fun h' hh => ?_
      obtain rfl := Option.some.inj (ht.symm.trans hh)
      exact ha
    | true =>
      simp only [ha, if_true] at h
      cases h
      exact .stopped ht ha

theorem remove_cases {s : Settings} {e e₁ : Engine} {run : String} {next : List Job}
    (h : (Job.remove run).run s e = some (next, e₁)) : Does s e (.remove run) next e₁ := by
  simp only [Job.run] at h
  cases ht : e.table.find? run with
  | none =>
    rw [RunTable.remove, ht] at h
    cases h
    exact .notRemoved run _
  | some found =>
    rw [RunTable.remove, ht] at h
    cases ha : found.record.status.isActive with
    | false =>
      simp only [ha, Bool.false_eq_true, if_false] at h
      cases h
      exact .removed ht ha
    | true =>
      simp only [ha, if_true] at h
      cases h
      exact .notRemoved run _

theorem post_cases {s : Settings} {e e₁ : Engine} {run : String} {m : Control} {next : List Job}
    (h : postMessage s e run m = some (next, e₁)) : Does s e (.post run m) next e₁ := by
  unfold postMessage at h
  split at h
  · cases h
    exact .notPosted run m
  · next w hw =>
    split at h
    · cases h
      exact .notPosted run m
    · next ho =>
      split at h
      · cases h
        exact .posted m hw (Bool.eq_false_iff.mpr ho)
      · cases h

theorem goOn_cases {s : Settings} {e e₁ : Engine} {run : String} {next : List Job}
    (h : goOn s e run = some (next, e₁)) : Does s e (.walk run) next e₁ := by
  unfold goOn at h
  split at h
  · next hw =>
    cases h
    exact .unmoved fun _ hw' => nomatch hw.symm.trans hw'
  · next w hw =>
    split at h
    · next told r hs =>
      cases h
      exact .walked hw hs
    · next hs =>
      split at h
      · cases h
        refine .unmoved fun w' hw' => ?_
        obtain rfl := Option.some.inj (hw.symm.trans hw')
        exact hs
      · cases h

theorem enrolRun_eq (s : Settings) (e : Engine) (project : String) (definition : Definition)
    (vars : Vars) :
    enrolRun s e project definition vars =
      (e.enrolling s project definition vars, e.enrolled s project definition vars) := by
  unfold enrolRun enrolling
  cases s.journalLevel <;> rfl

/-- A job aside leaves the runs alone. -/
theorem aside_frame {s : Settings} {e e₁ : Engine} {job : Job} {next : List Job}
    (ha : job.isAside) (h : job.run s e = some (next, e₁)) : Aside job e e₁ := by
  -- once it is known which job it is and how it went, each field is seen to stay
  cases job
  all_goals first
    | cases ha; done
    | skip
  all_goals
    simp only [Job.run, writeDown] at h
    repeat' split at h
  all_goals
    cases h
  all_goals exact ⟨rfl, rfl, rfl, rfl, rfl, rfl⟩

/-- What a job aside leaves to do is an errand. -/
theorem aside_next {s : Settings} {e e₁ : Engine} {job : Job} {next : List Job}
    (ha : job.isAside) (h : job.run s e = some (next, e₁)) : ∀ j ∈ next, Errand s e job j := by
  intro j hj
  cases job
  all_goals first
    | cases ha; done
    | skip
  case plan =>
    cases h
    obtain ⟨decision, -, hj⟩ := List.mem_flatMap.mp hj
    cases decision with
    | start p revision =>
      rcases List.mem_cons.mp hj with rfl | hj
      · exact Or.inr (.start ..)
      · obtain rfl := List.mem_singleton.mp hj
        exact Or.inl ⟨rfl, nofun⟩
    | stop project =>
      obtain rfl := List.mem_singleton.mp hj
      exact Or.inl ⟨rfl, nofun⟩
  case reload =>
    simp only [Job.run] at h
    split at h
    · cases h
      obtain rfl := List.mem_singleton.mp hj
      exact Or.inl ⟨rfl, nofun⟩
    · next hload =>
      cases h
      obtain rfl := List.mem_singleton.mp hj
      exact Or.inr (.restore hload)
  case loadProjects =>
    simp only [Job.run] at h
    split at h
    · cases h
      cases hj
    · split at h
      · cases h
        cases hj
      · cases h
        rcases List.mem_append.mp hj with hj | hj
        · obtain ⟨p, -, rfl⟩ := List.mem_map.mp hj
          exact Or.inl ⟨rfl, nofun⟩
        · obtain rfl := List.mem_singleton.mp hj
          exact Or.inl ⟨rfl, nofun⟩
  case dropMissing ids =>
    cases h
    obtain ⟨project, -, rfl⟩ := List.mem_map.mp hj
    exact Or.inl ⟨rfl, nofun⟩
  case shutDown =>
    cases h
    rcases List.mem_append.mp hj with hj | hj
    · obtain ⟨run, -, rfl⟩ := List.mem_map.mp hj
      exact Or.inr (.stop run rfl)
    · rcases List.mem_cons.mp hj with rfl | hj
      · exact Or.inr (.cancelAll rfl)
      · obtain rfl := List.mem_singleton.mp hj
        exact Or.inl ⟨rfl, nofun⟩
  case forget project =>
    simp only [Job.run] at h
    split at h
    · cases h
      obtain rfl := List.mem_singleton.mp hj
      exact Or.inl ⟨rfl, nofun⟩
    · cases h
      rcases List.mem_cons.mp hj with rfl | hj
      · exact Or.inl ⟨rfl, nofun⟩
      · obtain rfl := List.mem_singleton.mp hj
        exact Or.inl ⟨rfl, nofun⟩
  -- all others leave at most one job to do
  all_goals
    simp only [Job.run, writeDown] at h
    repeat' split at h
  all_goals
    cases h
  all_goals first
    | exact absurd hj List.not_mem_nil
    | obtain rfl := List.mem_singleton.mp hj
      first
        | exact Or.inr (.post _ _ rfl)
        | exact Or.inr (.stop _ rfl)
        | exact Or.inl ⟨rfl, nofun⟩

/-- **Inversion**: what a job can do. -/
theorem run_cases {s : Settings} {e e₁ : Engine} {job : Job} {next : List Job}
    (h : job.run s e = some (next, e₁)) : Does s e job next e₁ := by
  by_cases ha : job.isAside
  · exact .aside ha (aside_frame ha h) (aside_next ha h)
  cases job
  all_goals first
    | exact absurd rfl ha
    | skip
  case beginStart project definition vars =>
    simp only [Job.run] at h
    split at h
    · cases h
    · next hfree =>
      cases h
      exact .begun project definition vars (Bool.eq_false_iff.mpr hfree)
  case findActive project definition vars =>
    simp only [Job.run] at h
    split at h
    · next r hr =>
      cases h
      exact .found project definition vars r hr
    · next hr =>
      cases h
      exact .missed project definition vars hr
  case enrol project definition vars =>
    simp only [Job.run, enrolRun_eq] at h
    cases h
    exact .enrolled project definition vars
  case launch project run =>
    simp only [Job.run] at h
    cases hw : e.walks.find? run with
    | none =>
      simp only [hw] at h
      cases h
      exact .strayed project run hw
    | some w =>
      simp only [hw] at h
      cases h
      exact .launched project run w hw
  case endStart =>
    cases h
    exact .startEnded
  case stop run => exact stop_cases h
  case remove run => exact remove_cases h
  case restore records =>
    cases h
    exact .restored records
  case cancelAll =>
    cases h
    exact .allCancelled
  case post run m => exact post_cases h
  case walk run => exact goOn_cases h
  case drive project run => exact .followed (follow_cases h)
  case settle project run =>
    have heq : settleRun s e project run = (next, e₁) := Option.some.inj h
    have hs := settleRun_cases s e project run
    rw [heq] at hs
    exact .settled hs

/-! ## The jobs that come next -/

theorem saving_isRoutine : ∀ j ∈ saving, j.isRoutine = true := by
  intro j hj
  rcases List.mem_cons.mp hj with rfl | hj
  · rfl
  · obtain rfl := List.mem_singleton.mp hj
    rfl

/-- An event is handed to the watchers of the run and of its project, and put on the bus. -/
theorem mem_publishing {project run : String} {event : Event} {j : Job}
    (hj : j ∈ publishing project run event) :
    ∃ subject, (subject = run ∨ subject = project) ∧
      (j = .deliver subject event ∨ j = .announce ⟨subject, event⟩) := by
  rcases List.mem_append.mp hj with hj | hj
  · split at hj
    · cases hj
    · refine ⟨project, Or.inr rfl, ?_⟩
      simpa using hj
  · refine ⟨run, Or.inl rfl, ?_⟩
    simpa using hj

theorem publishing_isRoutine {project run : String} {event : Event} :
    ∀ j ∈ publishing project run event, j.isRoutine = true := by
  intro j hj
  obtain ⟨_, -, rfl | rfl⟩ := mem_publishing hj <;> rfl

theorem replying_isRoutine {r : Reply} : ∀ j ∈ replying r, j.isRoutine = true := by
  intro j hj
  obtain rfl := List.mem_singleton.mp hj
  rfl

theorem follow_next {s : Settings} {e e₁ : Engine} {project run : String} {next : List Job}
    (hf : Followed s e project run next e₁) {j : Job} (hj : j ∈ next) :
    j.isRoutine = true ∨ Leads s e (.drive project run) j := by
  have hsaving : ∀ {b : Bool}, ∀ j ∈ (if b then saving else []), j.isRoutine = true := by
    intro b j hj
    split at hj
    · exact saving_isRoutine j hj
    · cases hj
  cases hf with
  | gone => cases hj
  | event =>
    rcases List.mem_append.mp hj with hj | hj
    · exact Or.inl (List.forall_mem_append.mpr ⟨hsaving, publishing_isRoutine⟩ j hj)
    · obtain rfl := List.mem_singleton.mp hj
      exact Or.inr (.driveOn project run)
  | done hw _ ho =>
    obtain rfl := List.mem_singleton.mp hj
    exact Or.inr (.settle hw ho)
  | beat =>
    rcases List.mem_append.mp hj with hj | hj
    · exact Or.inl (hsaving j hj)
    · obtain rfl := List.mem_singleton.mp hj
      exact Or.inr (.driveOn project run)

theorem settle_next {s : Settings} {e e₁ : Engine} {project run : String} {next : List Job}
    (hs : Settled s e project run next e₁) {j : Job} (hj : j ∈ next) : j.isRoutine = true := by
  cases hs with
  | gone => cases hj
  | unknown => cases hj
  | @known w h =>
    rcases List.mem_append.mp hj with hj | hj
    · rcases List.mem_append.mp hj with hj | hj
      · exact saving_isRoutine j hj
      · cases hdue : dueAt h w (e.readClock s).1 with
        | none =>
          rw [hdue] at hj
          cases hj
        | some event =>
          rw [hdue] at hj
          exact publishing_isRoutine j hj
    · split at hj
      · obtain rfl := List.mem_singleton.mp hj
        rfl
      · cases hj

/-- What enlisting a run leaves to do before the run is launched is routine. -/
theorem enrolling_isRoutine {s : Settings} {project run : String} {event : Event} :
    ∀ j ∈ saving ++ (if s.journalLevel.isSome then [Job.keepJournal run] else []) ++
      publishing project run event, j.isRoutine = true := by
  refine List.forall_mem_append.mpr ⟨List.forall_mem_append.mpr ⟨saving_isRoutine, ?_⟩,
    publishing_isRoutine⟩
  intro j hj
  split at hj
  · obtain rfl := List.mem_singleton.mp hj
    rfl
  · cases hj

theorem enrol_next {s : Settings} {e : Engine} {project : String} {definition : Definition}
    {vars : Vars} {j : Job} (hj : j ∈ e.enrolling s project definition vars) :
    j.isRoutine = true ∨ Leads s e (.enrol project definition vars) j := by
  unfold enrolling at hj
  rcases List.mem_append.mp hj with hj | hj
  · exact Or.inl (enrolling_isRoutine j hj)
  · simp only [List.mem_cons, List.not_mem_nil, or_false] at hj
    rcases hj with rfl | rfl | rfl
    · exact Or.inr (.launch project definition vars)
    · exact Or.inr (.endStart project definition vars)
    · exact Or.inl rfl

/-- **What comes of a job that changes runs** is routine, or what the job leads to. -/
theorem mem_next_routine {s : Settings} {e e₁ : Engine} {job : Job} {next : List Job}
    (h : job.run s e = some (next, e₁)) (ha : job.isAside = false) {j : Job} (hj : j ∈ next) :
    j.isRoutine = true ∨ Leads s e job j := by
  cases run_cases h with
  | aside hjob => exact nomatch ha.symm.trans hjob
  | begun project definition vars =>
    obtain rfl := List.mem_singleton.mp hj
    exact Or.inr (.find project definition vars)
  | found project definition vars =>
    rcases List.mem_cons.mp hj with rfl | hj
    · exact Or.inr (.release project definition vars)
    · obtain rfl := List.mem_singleton.mp hj
      exact Or.inl rfl
  | missed project definition vars hnone =>
    obtain rfl := List.mem_singleton.mp hj
    exact Or.inr (.enrol definition vars hnone)
  | enrolled => exact enrol_next hj
  | notStopped => exact Or.inl (replying_isRoutine j hj)
  | stopped =>
    refine Or.inl (List.forall_mem_append.mpr ⟨?_, replying_isRoutine⟩ j hj)
    exact List.forall_mem_append.mpr ⟨saving_isRoutine, publishing_isRoutine⟩
  | notRemoved => exact Or.inl (replying_isRoutine j hj)
  | removed => exact Or.inl (List.forall_mem_append.mpr ⟨saving_isRoutine, replying_isRoutine⟩ j hj)
  | restored =>
    exact Or.inl (List.forall_mem_append.mpr ⟨saving_isRoutine, replying_isRoutine⟩ j hj)
  | notPosted => exact Or.inl (replying_isRoutine j hj)
  | posted => exact Or.inl (replying_isRoutine j hj)
  | walked =>
    obtain rfl := List.mem_singleton.mp hj
    exact Or.inr (.walkOn _)
  | followed hf => exact follow_next hf hj
  | settled hs => exact Or.inl (settle_next hs hj)
  | _ => cases hj

/-- **The jobs that come next** are chores, or what the job leads to. -/
theorem mem_next {s : Settings} {e e₁ : Engine} {job : Job} {next : List Job}
    (h : job.run s e = some (next, e₁)) {j : Job} (hj : j ∈ next) :
    j.isChore = true ∨ Leads s e job j := by
  cases ha : job.isAside with
  | true => exact (aside_next ha h j hj).imp_left And.left
  | false => exact (mem_next_routine h ha hj).imp_left Job.isChore_of_isRoutine

theorem mem_spawned {s : Settings} {e : Engine} {job j : Job}
    (hj : j ∈ (job.spawned e).flatten) : j.isChore = true ∨ Leads s e job j := by
  cases job
  case keepJournal run =>
    obtain rfl := List.mem_singleton.mp hj
    exact Or.inl rfl
  case launch project run =>
    rcases List.mem_cons.mp hj with rfl | hj
    · exact Or.inr (.drive project run)
    · obtain rfl := List.mem_singleton.mp hj
      exact Or.inr (.walk project run)
  all_goals cases hj

/-! ## What is published -/

section Deliveries

variable {s : Settings} {e e₁ : Engine} {job : Job} {next : List Job}

/-- Which jobs publish what: enlisting and stopping a run, driving it when it has told
something, and settling it when its end is due. -/
inductive Publishes (s : Settings) (e : Engine) : Job → Event → Prop
  /-- a run was enlisted -/
  | started (project : String) (definition : Definition) (vars : Vars) :
      Publishes s e (.enrol project definition vars) (.runStarted (e.newRun s project))
  /-- a run was stopped -/
  | stopped (run : String) : Publishes s e (.stop run) (.runStopped run)
  /-- a run has told something -/
  | told {project run : String} {w : Walk} {event : Event} {rest : List Event} :
      e.walks.find? run = some w → w.told = event :: rest →
      Publishes s e (.drive project run) event
  /-- a run has come to its end -/
  | due {project run : String} {w : Walk} {h : Handle} {event : Event} :
      e.table.find? run = some h → dueAt h w (e.readClock s).1 = some event →
      Publishes s e (.settle project run) event

theorem deliver_saving {subject : String} {event : Event} {b : Bool} :
    Job.deliver subject event ∉ (if b then saving else []) := by
  cases b <;> simp [saving]

theorem deliver_publishing {project run subject : String} {event event' : Event}
    (hj : Job.deliver subject event' ∈ publishing project run event) : event' = event := by
  obtain ⟨_, -, heq | heq⟩ := mem_publishing hj
  · cases heq
    rfl
  · cases heq

/-- What a job leaves to publish. -/
theorem deliver_next (h : job.run s e = some (next, e₁)) {subject : String} {event : Event}
    (hj : Job.deliver subject event ∈ next) : Publishes s e job event := by
  cases run_cases h with
  | aside _ _ hnext =>
    rcases hnext _ hj with ⟨-, hnot⟩ | hleads
    · exact absurd rfl (hnot subject event)
    · cases hleads
  | enrolled project definition vars =>
    simp only [enrolling, List.mem_append, List.mem_cons, List.not_mem_nil, reduceCtorEq, or_false,
      false_or, saving] at hj
    rcases hj with hj | hj
    · split at hj
      · cases List.mem_singleton.mp hj
      · cases hj
    · obtain rfl := deliver_publishing hj
      exact .started project definition vars
  | @stopped run =>
    simp only [List.mem_append, replying, saving, List.mem_cons, List.not_mem_nil, reduceCtorEq,
      or_false, false_or] at hj
    obtain rfl := deliver_publishing hj
    exact .stopped run
  | followed hf =>
    cases hf with
    | gone => cases hj
    | event hw ht =>
      simp only [List.mem_append, deliver_saving, List.mem_singleton, reduceCtorEq, or_false,
        false_or] at hj
      obtain rfl := deliver_publishing hj
      exact .told hw ht
    | done => cases List.mem_singleton.mp hj
    | beat =>
      simp only [List.mem_append, deliver_saving, List.mem_singleton, reduceCtorEq, or_false] at hj
  | settled hs =>
    cases hs with
    | gone => cases hj
    | unknown => cases hj
    | @known w old hw hf =>
      simp only [List.mem_append, saving, List.mem_cons, List.not_mem_nil, reduceCtorEq, or_false,
        false_or] at hj
      rcases hj with hj | hj
      · cases hdue : dueAt old w (e.readClock s).1 with
        | none =>
          rw [hdue] at hj
          cases hj
        | some event' =>
          rw [hdue] at hj
          obtain rfl := deliver_publishing hj
          exact .due hf hdue
      · split at hj
        · cases List.mem_singleton.mp hj
        · cases hj
  | _ => simp [saving, replying] at hj

end Deliveries

/-! ## Tasks -/

theorem cancel_eq (e : Engine) (run : String) :
    ∃ walks, e.cancel run = { e with walks := walks } := by
  unfold cancel
  split
  · exact ⟨_, rfl⟩
  · exact ⟨e.walks, rfl⟩

/-- A job starts its tasks, and does nothing else to tasks. -/
theorem run_tasks {s : Settings} {e e₁ : Engine} {job : Job} {next : List Job}
    (h : job.run s e = some (next, e₁)) :
    e₁.tasks = (e.spawnAll (job.spawned e)).tasks ∧
      e₁.nextTask = (e.spawnAll (job.spawned e)).nextTask := by
  cases run_cases h with
  | aside _ ha _ => exact ⟨ha.tasks, ha.nextTask⟩
  | stopped =>
    split
    · obtain ⟨walks, heq⟩ := (e.readClock s).2.cancel_eq _
      rw [heq]
      exact ⟨rfl, rfl⟩
    · exact ⟨rfl, rfl⟩
  | followed hf => cases hf <;> exact ⟨rfl, rfl⟩
  | settled hs => cases hs <;> exact ⟨rfl, rfl⟩
  | _ => exact ⟨rfl, rfl⟩

end Workflow.Engine
