import Workflow.CommandLine.Action
import Workflow.Engine.Schedule

/-!
# Sessions

An engine at work in its surroundings. The engine keeps its registry and its journals as
values; `keep` brings the disk up to date with them, so what a session writes is settled
by the engine alone, and a failing disk never stops a run.
-/

namespace Workflow.CommandLine

/-- What requests of scripts come to: without a network every one is refused. -/
def offline : Network := fun request => .error request.refusal.message

/-- An engine at work. -/
structure Session where
  /-- what the engine is set up with -/
  settings : Engine.Settings
  /-- the engine -/
  engine : Engine
  /-- where journals are kept, if they are -/
  journalDirectory : Option String
  /-- what the disk holds in place of the registry -/
  saved : Stored
  /-- how many lines of each journal the disk holds -/
  noted : Fields Nat := []

namespace Session

/-! ## Opening -/

/-- Reads the shared scripts of a configuration. -/
def readCatalog (env : Environment) (c : Config) : Action Catalog := do
  match c.sandbox.scriptsDir with
  | none => return {}
  | some directory =>
    let files ← Action.request (.list (env.expandHome directory))
    return Catalog.ofFiles (files.getD [])

/-- What interpreters rely on under a configuration. Each visit of a node has random numbers
of its own. -/
def readSurroundings (env : Environment) (c : Config) : Action Surroundings := do
  let catalog ← readCatalog env c
  let word ← Action.request .chance
  let random (occasion : Occasion) : Script.RandomState :=
    .ofSeed word (UInt64.ofNat occasion.visit)
  return .ofChances c.interpreter offline random c.sandbox.memoryLimit catalog

/-- Opens an engine under a configuration, with the runs that its registry holds. -/
def enter (env : Environment) (c : Config) : Action Session := do
  let around ← readSurroundings env c
  let path := c.registryFile env
  let file ← Action.request (.look path)
  let epoch ← Action.request .clock
  let name ← Action.request .fresh
  let settings : Engine.Settings :=
    { around, epoch
      controlBuffer := c.supervisor.controlBuffer
      keepFinished := c.supervisor.keepFinished
      heartbeat := c.heartbeatMillis
      pollInterval := c.pollMillis
      journalLevel := c.log.journalDir.map fun _ => c.log.journalLevel
      registryPath := path
      nameRun := fun project n => if n = 1 then name else s!"{name}-{project}-{n}" }
  let engine : Engine := { file, broadcaster := .ofBuffer c.watchers.buffer 256 }
  let (_, engine) := engine.restore settings
  return { settings, engine, saved := file, journalDirectory := c.journalDirectory? env }

/-! ## Keeping -/

/-- Makes changes one after another, up to the first that cannot be made. -/
def changeAll : List Disk.Change → Action Unit
  | [] => return ()
  | c :: cs => do
    match ← Action.request (.change c) with
    | .ok _ => changeAll cs
    | .error f => Action.complain f.message

/-- The changes that bring the journal of a run up to date. -/
def journalChanges (s : Session) (directory : String) (clock : Instant) (run : String)
    (lines : List Envelope) : List Disk.Change :=
  let path := Path.join directory s!"{run}.jsonl"
  let fresh := lines.reverse.drop ((s.noted.find? run).getD 0)
  .makeDirectory directory ::
    fresh.map fun e => .append path ((Journal.line clock.offsetText e).compact ++ "\n")

/-- Brings the journals on the disk up to date. -/
def keepJournals (s : Session) : Action Session := do
  match s.journalDirectory with
  | none => return s
  | some directory =>
    let due := s.engine.journals.filter fun (run, lines) => s.noted.find? run ≠ some lines.length
    if due.isEmpty then return s
    let clock ← Action.request .clock
    changeAll (due.flatMap fun (run, lines) => s.journalChanges directory clock run lines)
    return { s with noted := due.foldl (fun n (run, lines) => n.put run lines.length) s.noted }

/-- Brings the disk up to date. -/
def keep (s : Session) : Action Session := do
  let s ← s.keepJournals
  if s.engine.file = s.saved then return s
  match s.engine.file with
  | .text document => changeAll (Registry.replacing s.settings.registryPath document)
  | _ => pure ()
  return { s with saved := s.engine.file }

/-! ## Following -/

/-- How many turns a session may take. -/
def maxTurns : Nat := 2 ^ 62

/-- Prints what a watcher gets until its run is over. Work is done only when there is
nothing to print, and time passes only when there is no work. -/
def followFor (watcher : Nat) (write : Envelope → String) : Nat → Session → Action Session
  | 0, s => return s
  | turns + 1, s =>
    match s.engine.broadcaster.receive watcher with
    | (some e, broadcaster) => do
      let s ← ({ s with engine := { s.engine with broadcaster } } : Session).keep
      Action.say (write e)
      if e.event.isTerminal then return s
      followFor watcher write turns s
    | (none, _) =>
      match s.engine.advanceFirst s.settings with
      | some engine => followFor watcher write turns { s with engine }
      | none =>
        match s.engine.deadline? with
        | none => .hang
        | some t => do
          let s ← s.keep
          Action.request (.pause (t - s.engine.now))
          followFor watcher write turns
            { s with engine := { s.engine with now := max s.engine.now t } }

/-- Prints what a watcher gets until its run is over. -/
def follow (watcher : Nat) (write : Envelope → String) (s : Session) : Action Session :=
  followFor watcher write maxTurns s

/-- Stops what is left and brings the disk up to date. -/
def leave (s : Session) : Action Unit := do
  let _ ← ({ s with engine := (s.engine.shutDown s.settings).settle s.settings } : Session).keep
  return ()

end Session

end Workflow.CommandLine
