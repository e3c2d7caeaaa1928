import Workflow.Coordinator
import Workflow.Supervisor.Table
import Workflow.Watch.Journal

/-!
# The engine and its jobs

The engine holds all that supervisor, coordinator, watchers and journals share. Work on
it is done in jobs: a job looks at the engine once and changes it once, and between two
jobs of one task any other task may come in. A task is the list of the jobs that it
still has to do; a job may put further ones in front of them, and may start new tasks.

A job that has to wait (for a lock, for room in an inbox, for news of a run) cannot be
done yet; `Job.run` says so by giving nothing.

Two locks order the work of tasks. Whoever starts a run holds the start lock from
looking for an active run until the new one is announced. Whoever saves the table holds
the file lock from taking the snapshot until the file is written, so the file never
goes back in time.
-/

namespace Workflow

/-! ## Settings and state -/

namespace Engine

/-- What an engine is set up with. -/
structure Settings where
  /-- what interpreters rely on -/
  around : Surroundings
  /-- how many messages the inbox of a run holds; there is always room for one -/
  controlBuffer : Nat := 64
  /-- how many runs of a project that are over are kept when it starts a new one -/
  keepFinished : Nat := 10
  /-- the time between two signs of life, in milliseconds -/
  heartbeat : Nat := 5000
  /-- the time between two passes over the projects, in milliseconds -/
  pollInterval : Nat := 500
  /-- how much is written into journals, if there are any -/
  journalLevel : Option Nat := none
  /-- where the registry is, for messages -/
  registryPath : String := ""
  /-- the date and time at the start -/
  epoch : Instant
  /-- the id of the nth run of a project -/
  nameRun : String → Nat → String

/-- A run on its way, and what its driver has not seen of it. -/
structure Walk where
  /-- the run -/
  run : Interpreter
  /-- what was told and not seen yet, the oldest first -/
  told : List Event := []
  /-- when the next sign of life is due -/
  nextBeat : Nat := 0

/-- What comes back from a task. -/
inductive Reply where
  /-- a record -/
  | record (r : RunRecord)
  /-- nothing, for a reason -/
  | refused (f : Failure)
  /-- so many runs were read from disk -/
  | restored (count : Nat)
  /-- the number of a new watcher -/
  | watching (id : Nat)
  /-- a project that was forgotten, if it was known -/
  | removed (p : Option Project)
  /-- that it is done -/
  | done

/-- An atomic piece of work. -/
inductive Job where
  /-- takes the start lock -/
  | beginStart (project : String) (definition : Definition) (vars : Vars)
  /-- looks for an active run of the project -/
  | findActive (project : String) (definition : Definition) (vars : Vars)
  /-- enlists a new run -/
  | enrol (project : String) (definition : Definition) (vars : Vars)
  /-- lets a journal watch a run -/
  | keepJournal (run : String)
  /-- sets a run on its way -/
  | launch (project run : String)
  /-- gives the start lock back -/
  | endStart
  /-- stops a run -/
  | stop (run : String)
  /-- forgets a run -/
  | remove (run : String)
  /-- reads the registry -/
  | reload
  /-- takes up what was read -/
  | restore (records : List RunRecord)
  /-- looks for the inbox of a run -/
  | address (run : String) (message : Control)
  /-- puts a message into the inbox of a run -/
  | post (run : String) (message : Control)
  /-- finds out where a subject stands -/
  | greet (subject : String)
  /-- registers a watcher -/
  | subscribe (subject : String) (greeting : List Event)
  /-- looks for the runs to stop at the end -/
  | shutDown
  /-- cancels all runs, also those to come -/
  | cancelAll
  /-- takes the file lock -/
  | lockFile
  /-- takes a snapshot of the table -/
  | snapshot
  /-- writes a snapshot to the file -/
  | save (records : List RunRecord)
  /-- gives the file lock back -/
  | unlockFile
  /-- hands an event to the watchers of a subject -/
  | deliver (subject : String) (event : Event)
  /-- puts an envelope on the bus -/
  | announce (envelope : Envelope)
  /-- goes one step with a run -/
  | walk (run : String)
  /-- follows a run: notes and publishes what it tells -/
  | drive (project run : String)
  /-- settles a run that is done -/
  | settle (project run : String)
  /-- tells the journal of a run that nothing more will come -/
  | signal (run : String)
  /-- opens the journal of a run -/
  | openJournal (run : String) (watcher : Nat)
  /-- writes down what came in -/
  | writeJournal (run : String) (watcher : Nat)
  /-- takes a watcher off -/
  | unsubscribe (subject : String) (watcher : Nat)
  /-- reads the directory of projects -/
  | loadProjects
  /-- takes up a project -/
  | upsert (p : Project)
  /-- changes what is wanted of a project -/
  | setDesired (project : String) (desired : Desired)
  /-- looks for the projects that are not named -/
  | dropMissing (ids : List String)
  /-- forgets a project -/
  | forget (project : String)
  /-- looks for the active run of a project, to stop it -/
  | stopActive (project : String)
  /-- plans a pass over the projects -/
  | plan
  /-- notes from which revision a project was started -/
  | noteStarted (project : String) (revision : Nat)
  /-- gives a reply -/
  | answer (reply : Reply)

/-- A task: the jobs that are left, and the latest reply. -/
structure Task where
  /-- the jobs that are left -/
  left : List Job
  /-- the latest reply -/
  reply : Option Reply := none

end Engine

/-- All that the parts of the engine share. -/
structure Engine where
  /-- the time since the start, in milliseconds -/
  now : Nat := 0
  /-- how often somebody looked at the clock -/
  readings : Nat := 0
  /-- the runs that are known -/
  table : RunTable := []
  /-- the runs on their way -/
  walks : Fields Engine.Walk := []
  /-- the projects of the runs that were started, with the runs, the latest first -/
  started : List (String × String) := []
  /-- the runs of which nothing more will come -/
  finished : List String := []
  /-- whether everything was cancelled -/
  isShut : Bool := false
  /-- the file of the registry -/
  file : Stored := .absent
  /-- whether somebody holds the start lock -/
  isStarting : Bool := false
  /-- whether somebody holds the file lock -/
  isSaving : Bool := false
  /-- the watchers -/
  broadcaster : Broadcaster := {}
  /-- what the journals hold, the latest first -/
  journals : Fields (List Envelope) := []
  /-- the projects that are looked after -/
  projects : ProjectSet := []
  /-- where projects are read from, if anywhere: the files of a directory, if it is there -/
  source : Option (Option (Fields String)) := none
  /-- the tasks, in the order in which they are preferred -/
  tasks : List (Nat × Engine.Task) := []
  /-- the number of the next task -/
  nextTask : Nat := 0

namespace Engine

/-! ## Parts of the state -/

/-- Looks at the clock. It never shows the same twice. -/
def readClock (s : Settings) (e : Engine) : Instant × Engine :=
  (.ofEpochNanos (s.epoch.toEpochNanos + e.now * 1000000 + e.readings * 1000),
    { e with readings := e.readings + 1 })

/-- Starts a task behind all others. -/
def spawn (e : Engine) (jobs : List Job) : Engine :=
  { e with tasks := e.tasks ++ [(e.nextTask, { left := jobs })], nextTask := e.nextTask + 1 }

/-- Changes a run on its way. -/
def setWalk (e : Engine) (run : String) (w : Walk) : Engine :=
  { e with walks := e.walks.put run w }

/-- Sets the table. A run to which messages are no longer passed on finds its inbox
closed. -/
def setTable (e : Engine) (t : RunTable) : Engine :=
  { e with
    table := t
    walks := e.walks.map fun (run, w) =>
      if t.listens run then (run, w) else (run, { w with run := w.run.close }) }

/-- Cancels a run on its way. -/
def cancel (e : Engine) (run : String) : Engine :=
  match e.walks.find? run with
  | some w => e.setWalk run { w with run := w.run.cancel }
  | none => e

/-- How many runs of a project were started. -/
def startedOf (e : Engine) (project : String) : Nat :=
  e.started.countP fun (p, _) => p = project

/-! ## Rows of jobs -/

/-- Saves the table. -/
def saving : List Job := [.lockFile, .snapshot]

/-- Publishes an event of a run: on its project, unless that has the same id, and on
the run. -/
def publishing (project run : String) (event : Event) : List Job :=
  (if project = run then [] else [.deliver project event, .announce ⟨project, event⟩]) ++
    [.deliver run event, .announce ⟨run, event⟩]

/-- Replies. -/
def replying (r : Reply) : List Job := [.answer r]

namespace Job

/-! ## What jobs do -/

/-- Enlists a new run, and goes on to announce it and to set it on its way. -/
def enrolRun (s : Settings) (e : Engine) (project : String) (definition : Definition)
    (vars : Vars) : List Job × Engine :=
  let run := s.nameRun project (e.startedOf project + 1)
  let (clock, e) := e.readClock s
  let record := { RunRecord.starting run project definition vars clock with status := .running }
  let walk := (Interpreter.start definition vars (some {}))
  let e := { e with
    started := (project, run) :: e.started
    walks := e.walks.put run { run := if e.isShut then walk.cancel else walk } }
  let journal := match s.journalLevel with
    | some _ => [keepJournal run]
    | none => []
  (saving ++ journal ++ publishing project run (.runStarted run) ++
      [launch project run, endStart, answer (.record record)],
    e.setTable (e.table.enlist s.keepFinished record))

/-- Goes one step with a run, if it is not suspended. -/
def goOn (s : Settings) (e : Engine) (run : String) : Option (List Job × Engine) :=
  match e.walks.find? run with
  | none => some ([], e)
  | some w =>
    match w.run.step (s.around.forRun run) e.now with
    | some (told, r) => some ([walk run], e.setWalk run { w with run := r, told := w.told ++ told.toList })
    | none => if w.run.isOver then some ([], e) else none

/-- Follows a run: what it told comes first, then its end, then a sign of life that is
due. -/
def follow (s : Settings) (e : Engine) (project run : String) : Option (List Job × Engine) :=
  match e.walks.find? run with
  | none => some ([], e)
  | some w =>
    match w.told with
    | event :: rest =>
      let (clock, e) := e.readClock s
      let (worthSaving, table) := e.table.observe run event clock
      let e := (e.setWalk run { w with told := rest }).setTable table
      some ((if worthSaving then saving else []) ++ publishing project run event ++ [drive project run], e)
    | [] =>
      if w.run.isOver then some ([settle project run], e)
      else if w.nextBeat ≤ e.now then
        let (clock, e) := e.readClock s
        let (worthSaving, table) := e.table.beat run clock
        let e := (e.setWalk run { w with nextBeat := w.nextBeat + max s.heartbeat 1 }).setTable table
        some ((if worthSaving then saving else []) ++ [drive project run], e)
      else none

/-- Settles a run that is done. -/
def settleRun (s : Settings) (e : Engine) (project run : String) : List Job × Engine :=
  match e.walks.find? run with
  | none => ([], e)
  | some w =>
    let result := match w.run.report? with
      | some report => WalkResult.report report
      | none => .broken
    let (clock, e) := e.readClock s
    let e := { e with walks := e.walks.erase run }
    match e.table.settle run result clock with
    | none => ([], e)
    | some (handle, due, table) =>
      (saving ++ (due.map (publishing project run)).getD [] ++ (if handle.isOwn then [signal run] else []),
        e.setTable table)

/-- Puts a message into the inbox of a run, as soon as there is room. -/
def postMessage (s : Settings) (e : Engine) (run : String) (m : Control) :
    Option (List Job × Engine) :=
  match e.walks.find? run with
  | none => some (replying (.refused (.runNotFound run)), e)
  | some w =>
    if w.run.isOver then some (replying (.refused (.runNotFound run)), e)
    else if w.run.waitingMessages < max s.controlBuffer 1 then
      some (replying .done, e.setWalk run { w with run := w.run.send m })
    else none

/-- Writes down what came in for a journal, as soon as something did, or nothing more
will come. -/
def writeDown (s : Settings) (e : Engine) (run : String) (watcher : Nat) :
    Option (List Job × Engine) :=
  let isFinished := e.finished.contains run
  let isClosed := ((e.broadcaster.box? watcher).map (·.isOver)).getD true
  let (items, broadcaster) := e.broadcaster.drain watcher
  if items.isEmpty && !isFinished && !isClosed then none
  else
    let turn := Journal.turn (s.journalLevel.getD 0) isFinished Journal.rowLimit items
    let before := (e.journals.find? run).getD []
    let e := { e with
      broadcaster := broadcaster
      journals := e.journals.put run (turn.written.reverse ++ before) }
    some (if turn.ended || isClosed then [unsubscribe run watcher] else [writeJournal run watcher], e)

/-- What a decision of the coordinator comes to. -/
def ofDecision : Decision → List Job
  | .start p revision => [beginStart p.id p.definition p.vars, noteStarted p.id revision]
  | .stop project => [stopActive project]

/-- Does a job: gives the jobs that come next and the engine after it, or nothing if
the job has to wait. -/
def run (s : Settings) (e : Engine) : Job → Option (List Job × Engine)
  | beginStart project definition vars =>
    if e.isStarting then none
    else some ([findActive project definition vars], { e with isStarting := true })
  | findActive project definition vars =>
    match e.table.active? project with
    | some r => some ([endStart, answer (.record r)], e)
    | none => some ([enrol project definition vars], e)
  | enrol project definition vars => some (enrolRun s e project definition vars)
  | keepJournal run =>
    let (watcher, broadcaster) := e.broadcaster.subscribe run []
    some ([], ({ e with broadcaster := broadcaster }).spawn [openJournal run watcher])
  | launch project run =>
    let e := match e.walks.find? run with
      | some w => e.setWalk run { w with nextBeat := e.now + max s.heartbeat 1 }
      | none => e
    some ([], (e.spawn [drive project run]).spawn [walk run])
  | endStart => some ([], { e with isStarting := false })
  | stop run =>
    let (clock, e) := e.readClock s
    match e.table.stop run clock with
    | .error f => some (replying (.refused f), e)
    | .ok (.before r) => some (replying (.record r), e)
    | .ok (.now h table) =>
      let e := if h.isOwn then e.cancel run else e
      some (saving ++ publishing h.record.projectId run (.runStopped run) ++ replying (.record h.record),
        e.setTable table)
  | remove run =>
    match e.table.remove run with
    | .error f => some (replying (.refused f), e)
    | .ok (r, table) => some (saving ++ replying (.record r), e.setTable table)
  | reload =>
    match Registry.load s.registryPath e.file with
    | .error _ => some (replying (.restored 0), e)
    | .ok records => some ([restore records], e)
  | restore records =>
    some (saving ++ replying (.restored records.length), e.setTable (e.table.restore records))
  | address run m =>
    if e.table.welcomes run then some ([post run m], e)
    else some (replying (.refused (.runNotFound run)), e)
  | post run m => postMessage s e run m
  | greet subject => some ([subscribe subject (e.table.greeting subject)], e)
  | subscribe subject greeting =>
    let (watcher, broadcaster) := e.broadcaster.subscribe subject greeting
    some (replying (.watching watcher), { e with broadcaster := broadcaster })
  | shutDown => some (e.table.activeIds.map stop ++ [cancelAll, answer .done], e)
  | cancelAll =>
    some ([], { e with
      isShut := true
      walks := e.walks.map fun (run, w) => (run, { w with run := w.run.cancel }) })
  | lockFile => if e.isSaving then none else some ([], { e with isSaving := true })
  | snapshot => some ([save e.table.records], e)
  | save records =>
    let file := match e.file with
      | .directory => .directory
      | _ => .text (Registry.write records)
    some ([unlockFile], { e with file := file })
  | unlockFile => some ([], { e with isSaving := false })
  | deliver subject event =>
    some ([], { e with broadcaster := e.broadcaster.deliver subject event })
  | announce envelope => some ([], { e with broadcaster := e.broadcaster.announce envelope })
  | walk run => goOn s e run
  | drive project run => follow s e project run
  | settle project run => some (settleRun s e project run)
  | signal run => some ([], { e with finished := run :: e.finished })
  | openJournal run watcher =>
    some ([writeJournal run watcher],
      if e.journals.has run then e else { e with journals := e.journals.put run [] })
  | writeJournal run watcher => writeDown s e run watcher
  | unsubscribe subject watcher =>
    some ([], { e with broadcaster := (e.broadcaster.unsubscribe subject watcher).2 })
  | loadProjects =>
    match e.source with
    | none => some ([], e)
    | some files =>
      match Project.load files with
      | .error _ => some ([], e)
      | .ok ps => some (ps.map upsert ++ [dropMissing (ps.map (·.id))], e)
  | upsert p => some (replying .done, { e with projects := e.projects.upsert p })
  | setDesired project desired =>
    match e.projects.setDesired project desired with
    | .error f => some (replying (.refused f), e)
    | .ok ps => some (replying .done, { e with projects := ps })
  | dropMissing ids => some ((e.projects.missing ids).map forget, e)
  | forget project =>
    match e.projects.remove project with
    | none => some (replying (.removed none), e)
    | some (p, ps) =>
      some ([stopActive project, answer (.removed (some p))], { e with projects := ps })
  | stopActive project =>
    match e.table.active? project with
    | none => some ([], e)
    | some r => some ([stop r.runId], e)
  | plan =>
    let decisions := e.projects.plan fun id => (e.table.active? id).isSome
    some (decisions.flatMap ofDecision, e)
  | noteStarted project revision =>
    some ([], { e with projects := e.projects.noteStarted project revision })
  | answer _ => some ([], e)

end Job

end Engine

end Workflow
