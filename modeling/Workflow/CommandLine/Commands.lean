import Workflow.CommandLine.Arguments
import Workflow.CommandLine.Output
import Workflow.CommandLine.Session

/-!
# Commands

What the program does for each command. A command that cannot be carried out ends the
program with code 1 and prints nothing but the reason, and that not as output; arguments
that do not fit end it with code 2 before anything is done.
-/

namespace Workflow.CommandLine

open Workflow.CommandLine.Action

/-! ## Reading -/

/-- The environment, as far as some names go. -/
def readEnvironment : List String → Action Environment
  | [] => return []
  | name :: names => do
    let env ← readEnvironment names
    match ← request (.valueOf name) with
    | some value => return env.put name value
    | none => return env

/-- Reads the configuration at a path; nothing there means the defaults. -/
def readConfig (path : String) : Action Config := do
  match ← request (.look path) with
  | .absent => orFail (Config.loadOrDefault [] none)
  | .text content =>
    let env ← readEnvironment (Environment.references content)
    orFail (Config.loadOrDefault env (some content))
  | _ => orFail (.error (.configNotFound path))

/-- Reads a definition. -/
def readDefinition (path : String) : Action Definition := do
  match ← request (.look path) with
  | .text content => orFail (Failure.ofText Definition.decode content)
  | _ => fail s!"the workflow {path} cannot be read"

/-- Reads variables: from a file if the text is the path of one, else from the text
itself. -/
def readVars : Option String → Action Vars
  | none => return {}
  | some text => do
    match ← request (.look text) with
    | .text content => orFail (Failure.ofText Vars.decode content)
    | .binary => fail s!"the variables in {text} cannot be read"
    | _ => orFail (Failure.ofText Vars.decode text)

/-! ## A preview -/

/-- A run that nobody else knows of. -/
structure Preview where
  /-- what the run relies on -/
  around : Surroundings
  /-- the run -/
  run : Interpreter
  /-- the milliseconds since its start -/
  now : Nat := 0
  /-- whether somebody may still type something -/
  isListening : Bool := true

namespace Preview

/-- The subject under which a preview is shown. -/
def subject : String := "preview"

/-- What is said beside an event to those who look after the program: how a wait is ended. -/
def remark? (p : Preview) : Event → Option String
  | .nodeWait node _ =>
    if p.isListening then some ("Waiting; type `" ++ Control.resumeLine node ++ "` to continue")
    else some "Waiting with stdin closed; Ctrl-C to abort"
  | _ => none

/-- Passes a typed line on to the run. -/
def take (p : Preview) (line : String) : Action Preview :=
  match Control.ofLine line with
  | .ok (some m) => return { p with run := p.run.send m }
  | .ok none => return p
  | .error f => do
    complain f.message
    return p

/-- Waits until something happens: a line is typed, or a pause of the run is over. -/
def wait (p : Preview) : Action Preview := do
  let awake := p.run.deadline?
  let left := awake.map fun t => t - p.now
  if p.isListening then
    match ← request (.hear left) with
    | .line text => p.take text
    | .silence => return { p with now := awake.getD p.now }
    | .ended => return { p with isListening := false }
  else
    match awake, left with
    | some t, some millis =>
      request (.pause millis)
      return { p with now := t }
    | _, _ => .hang

/-- Goes on with a run until it is over, and prints all that it tells. -/
def followFor : Nat → Preview → Action Unit
  | 0, _ => return ()
  | turns + 1, p =>
    match p.run.step p.around p.now with
    | some (event, run) => do
      if let some event := event then
        say (envelopeLine ⟨subject, event⟩)
        if let some remark := p.remark? event then complain remark
      followFor turns { p with run }
    | none => do
      if (p.run.report?).isSome then return ()
      if p.run.isOver then fail WalkResult.failure.message
      followFor turns (← p.wait)

end Preview

/-! ## Commands -/

/-- The project of a run, unless one is given. -/
def projectOf (workflow : String) : String := (Path.stem? workflow).getD "default"

/-- Runs a workflow and prints its events. A preview leaves nothing behind. -/
def runWorkflow (env : Environment) (c : Config) (workflow : String) (vars project : Option String)
    (isPreview : Bool) : Action Unit := do
  let definition ← readDefinition workflow
  let vars ← readVars vars
  if isPreview then
    let around ← Session.readSurroundings env c
    Preview.followFor Session.maxTurns { around, run := .start definition vars (some {}) }
  else
    let project := project.getD (projectOf workflow)
    let s ← Session.enter env c
    let (watcher, engine) := s.engine.watch s.settings project
    let (started, engine) := engine.start s.settings project definition vars
    let _ ← orFail started
    let s ← ({ s with engine } : Session).follow watcher envelopeLine
    s.leave

/-- Prints all runs, those that started later first. -/
def listRuns (env : Environment) (c : Config) : Action Unit := do
  let s ← (← Session.enter env c).keep
  for r in s.engine.table.newestFirst do
    say (recordRow r)

/-- Prints what is known about a run, or about the run of a project that counts. -/
def showStatus (env : Environment) (c : Config) (id : String) : Action Unit := do
  let s ← (← Session.enter env c).keep
  say (recordDocument (← orFail (s.engine.status id)))

/-- Forgets a run that is over. -/
def cleanUp (env : Environment) (c : Config) (run : String) : Action Unit := do
  let s ← Session.enter env c
  let (removed, engine) := s.engine.remove s.settings run
  let _ ← ({ s with engine } : Session).keep
  let r ← orFail removed
  say s!"Removed run {r.runId} ({r.status.name})"

/-- Carries out a command. -/
def carryOut (env : Environment) (c : Config) : Command → Action Unit
  | .run workflow vars project isPreview => runWorkflow env c workflow vars project isPreview
  | .runs => listRuns env c
  | .status id => showStatus env c id
  | .cleanup run => cleanUp env c run
  | .config => say c.toToml

/-! ## The program -/

/-- What is printed for those who ask for help. -/
def helpText : String :=
  "Usage: flowloom [--config FILE] COMMAND\n\n" ++
  "Commands:\n" ++
  "  run WORKFLOW [--vars VARS] [--project PROJECT] [--preview]\n" ++
  "  runs\n" ++
  "  status RUN_OR_PROJECT\n" ++
  "  cleanup RUN\n" ++
  "  config"

/-- What is printed for those who ask for the version. -/
def versionText : String := "flowloom 0.1.0"

/-- Ends the program before it has done anything. -/
def halt : Halt → Action Unit
  | .help => say helpText
  | .version => say versionText
  | .usage message => do
    complain s!"error: {message}"
    .quit 2

/-- The program. -/
def program (args : List String) : Action Unit := do
  match readArguments (← readEnvironment [configVariable]) args with
  | .error h => halt h
  | .ok invocation =>
    let c ← readConfig invocation.configPath
    let env ← readEnvironment [Environment.homeVariable]
    carryOut env c invocation.command

end Workflow.CommandLine
