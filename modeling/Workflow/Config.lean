import Workflow.Environment
import Workflow.Failure
import Workflow.Toml

/-!
# Configuration

Six groups of settings, every one with a default. A configuration is written as
TOML and shown as JSON, and both are read by one decoder: a group is described
once, by the list of its settings, and reading, showing and writing all follow
that list.

A group may also be given as an array of its settings in order. In JSON an item
too many is refused; TOML lets it pass.
-/

namespace Workflow

/-! ## Describing settings -/

/-- A named slot of a record that has a default for every field. -/
structure Slot (σ : Type) where
  /-- the name -/
  name : String
  /-- how a value changes the record -/
  read : Json.Decoder (σ → σ)

namespace Slot

variable {σ : Type}

/-- Takes up the members of an object in order; each slot is filled once. -/
def takeMembers (slots : List (Slot σ)) :
    Nat → List String → List (String × Json) → σ → Except Json.DecodeError σ
  | _, _, [], acc => .ok acc
  | i, seen, (k, v) :: rest, acc =>
    match slots.find? fun s => s.name = k with
    | none => takeMembers slots (i + 1) seen rest acc
    | some slot =>
      if seen.contains k then Json.refuse (.duplicate k) (.name i)
      else do
        let change ← Json.under i slot.read v
        takeMembers slots (i + 1) (k :: seen) rest (change acc)

/-- Takes up the items of an array slot by slot, and answers how many there were
slots for. -/
def takeItems : Nat → List (Slot σ) → List Json → σ → Except Json.DecodeError σ
  | _, [], _, acc => .ok acc
  | _, _, [], acc => .ok acc
  | i, slot :: slots, v :: rest, acc => do
    let change ← Json.under i slot.read v
    takeItems (i + 1) slots rest (change acc)

/-- The decoder of a record with defaults. -/
def decode (strict : Bool) (name : String) (slots : List (Slot σ)) (default : σ) :
    Json.Decoder σ :=
  Json.record name (fun members => takeMembers slots 0 [] members default)
    (fun items => do
      let r ← takeItems 0 slots items default
      if strict then Json.noMoreThan items slots.length
      return r)

end Slot

/-- A setting: a slot, and the value that is shown for it. -/
structure Setting (σ : Type) extends Slot σ where
  /-- the value, if there is one -/
  value : σ → Option Toml.Entry

namespace Setting

variable {σ : Type}

/-- A whole number up to `max`; messages call the range by its name. -/
def number (name : String) (max : Nat) (range : String) (get : σ → Nat) (set : Nat → σ → σ) :
    Setting σ where
  name := name
  read := fun v => (Json.bounded max range v).map set
  value := fun s => some (.number (get s))

/-- A number of 64 bits. -/
def count (name : String) : (σ → Nat) → (Nat → σ → σ) → Setting σ :=
  number name (2 ^ 64 - 1) "usize"

/-- A duration in 64 bits. -/
def duration (name : String) : (σ → Nat) → (Nat → σ → σ) → Setting σ :=
  number name (2 ^ 64 - 1) "u64"

/-- A text. -/
def text (name : String) (get : σ → String) (set : String → σ → σ) : Setting σ where
  name := name
  read := fun v => (Json.text v).map set
  value := fun s => some (.text (get s))

/-- A text that may be left out. -/
def textOrNone (name : String) (get : σ → Option String) (set : Option String → σ → σ) :
    Setting σ where
  name := name
  read := fun v => (Json.optional Json.text v).map set
  value := fun s => (get s).map .text

/-- The settings of a group with their values. -/
def values (settings : List (Setting σ)) (s : σ) : List (String × Option Toml.Entry) :=
  settings.map fun setting => (setting.name, setting.value s)

end Setting

/-! ## The groups -/

/-- How an interpreter goes about a run. -/
structure InterpreterConfig where
  /-- the pause after a node, in milliseconds -/
  stepDelay : Nat := 900
  /-- the pause on an edge, in milliseconds -/
  edgeDelay : Nat := 300
  /-- how many nodes a run may visit; zero for any number -/
  maxSteps : Nat := 10000

/-- The settings of an interpreter. -/
def InterpreterConfig.settings : List (Setting InterpreterConfig) := [
  .duration "step_delay_ms" (·.stepDelay) fun n c => { c with stepDelay := n },
  .duration "edge_delay_ms" (·.edgeDelay) fun n c => { c with edgeDelay := n },
  .count "max_steps" (·.maxSteps) fun n c => { c with maxSteps := n }]

/-- What scripts may use. -/
structure SandboxConfig where
  /-- how many bytes a script may hold -/
  memoryLimit : Nat := 33554432
  /-- how many seconds a network call may take -/
  httpTimeout : Nat := 30
  /-- where shared scripts are -/
  scriptsDir : Option String := none

/-- The settings of the sandbox. -/
def SandboxConfig.settings : List (Setting SandboxConfig) := [
  .count "memory_limit_bytes" (·.memoryLimit) fun n c => { c with memoryLimit := n },
  .duration "http_timeout_secs" (·.httpTimeout) fun n c => { c with httpTimeout := n },
  .textOrNone "scripts_dir" (·.scriptsDir) fun s c => { c with scriptsDir := s }]

/-- How runs are kept. -/
structure SupervisorConfig where
  /-- the file of the registry -/
  registryPath : String := "~/.flowloom/runs.json"
  /-- how many control messages a run holds back -/
  controlBuffer : Nat := 64
  /-- the time between two signs of life, in milliseconds -/
  heartbeatInterval : Nat := 5000
  /-- how many finished runs of a project are kept -/
  keepFinished : Nat := 10

/-- The settings of the supervisor. -/
def SupervisorConfig.settings : List (Setting SupervisorConfig) := [
  .text "registry_path" (·.registryPath) fun s c => { c with registryPath := s },
  .count "control_buffer" (·.controlBuffer) fun n c => { c with controlBuffer := n },
  .duration "heartbeat_interval_ms" (·.heartbeatInterval) fun n c =>
    { c with heartbeatInterval := n },
  .count "keep_finished_per_project" (·.keepFinished) fun n c => { c with keepFinished := n }]

/-- How projects are watched. -/
structure CoordinatorConfig where
  /-- the time between two looks, in milliseconds -/
  pollInterval : Nat := 500

/-- The settings of the coordinator. -/
def CoordinatorConfig.settings : List (Setting CoordinatorConfig) := [
  .duration "poll_interval_ms" (·.pollInterval) fun n c => { c with pollInterval := n }]

/-- What watchers get. -/
structure WatcherConfig where
  /-- how many events a watcher may leave unread -/
  buffer : Nat := 256

/-- The settings of watchers. -/
def WatcherConfig.settings : List (Setting WatcherConfig) := [
  .count "buffer" (·.buffer) fun n c => { c with buffer := n }]

/-- What is written down. -/
structure LogConfig where
  /-- what is logged -/
  filter : String := "flowloom=info,warn"
  /-- where journals are kept, if they are -/
  journalDir : Option String := none
  /-- how much a journal holds -/
  journalLevel : Nat := 2

/-- The settings of the log. -/
def LogConfig.settings : List (Setting LogConfig) := [
  .text "filter" (·.filter) fun s c => { c with filter := s },
  .textOrNone "journal_dir" (·.journalDir) fun s c => { c with journalDir := s },
  .number "journal_level" 255 "u8" (·.journalLevel) fun n c => { c with journalLevel := n }]

/-! ## The configuration -/

/-- A configuration. -/
structure Config where
  /-- how an interpreter goes about a run -/
  interpreter : InterpreterConfig := {}
  /-- what scripts may use -/
  sandbox : SandboxConfig := {}
  /-- how runs are kept -/
  supervisor : SupervisorConfig := {}
  /-- how projects are watched -/
  coordinator : CoordinatorConfig := {}
  /-- what watchers get -/
  watchers : WatcherConfig := {}
  /-- what is written down -/
  log : LogConfig := {}

namespace Config

/-- A group as a slot of the configuration. -/
def group {γ : Type} (strict : Bool) (name typeName : String) (settings : List (Setting γ))
    (default : γ) (set : γ → Config → Config) : Slot Config where
  name := name
  read := fun v => (Slot.decode strict typeName (settings.map (·.toSlot)) default v).map set

/-- The groups of a configuration. -/
def groups (strict : Bool) : List (Slot Config) := [
  group strict "interpreter" "struct InterpreterConfig" InterpreterConfig.settings {}
    fun g c => { c with interpreter := g },
  group strict "sandbox" "struct SandboxConfig" SandboxConfig.settings {}
    fun g c => { c with sandbox := g },
  group strict "supervisor" "struct SupervisorConfig" SupervisorConfig.settings {}
    fun g c => { c with supervisor := g },
  group strict "coordinator" "struct CoordinatorConfig" CoordinatorConfig.settings {}
    fun g c => { c with coordinator := g },
  group strict "watchers" "struct WatcherConfig" WatcherConfig.settings {}
    fun g c => { c with watchers := g },
  group strict "log" "struct LogConfig" LogConfig.settings {} fun g c => { c with log := g }]

/-- The decoder of configurations. -/
def decode (strict : Bool) : Json.Decoder Config :=
  Slot.decode strict "struct AppConfig" (groups strict) {}

/-- The values of a configuration, group by group. -/
def values (c : Config) : List (String × List (String × Option Toml.Entry)) := [
  ("interpreter", Setting.values InterpreterConfig.settings c.interpreter),
  ("sandbox", Setting.values SandboxConfig.settings c.sandbox),
  ("supervisor", Setting.values SupervisorConfig.settings c.supervisor),
  ("coordinator", Setting.values CoordinatorConfig.settings c.coordinator),
  ("watchers", Setting.values WatcherConfig.settings c.watchers),
  ("log", Setting.values LogConfig.settings c.log)]

/-- A value as it is shown in JSON. -/
def entryJson : Option Toml.Entry → Json
  | some (.number n) => Json.nat n
  | some (.text s) => .str s
  | none => .null

/-- The JSON form of a configuration; what is left out is null. -/
def toJson (c : Config) : Json :=
  .obj (c.values.map fun (name, vs) => (name, .obj (vs.map fun (k, v) => (k, entryJson v))))

/-- The TOML form of a configuration; what is left out is not written. -/
def toToml (c : Config) : String :=
  Toml.writeSections (c.values.map fun (name, vs) =>
    (name, vs.filterMap fun (k, v) => v.map fun e => (k, e)))

/-- Reads a configuration from the text of its file. -/
def ofText (env : Environment) (text : String) : Except Failure Config :=
  match Toml.parse? (env.expand text) with
  | none => .error (.config "malformed document")
  | some v =>
    match decode false v with
    | .ok c => .ok c
    | .error e => .error (.config e.message)

/-- Reads the configuration at a path, from the text that was found there. -/
def load (env : Environment) (path : String) : Option String → Except Failure Config
  | some text => ofText env text
  | none => .error (.configNotFound path)

/-- Reads the configuration at a path, or takes the defaults if there is none. -/
def loadOrDefault (env : Environment) : Option String → Except Failure Config
  | some text => ofText env text
  | none => .ok {}

/-- The file of the registry. -/
def registryFile (c : Config) (env : Environment) : String :=
  env.expandHome c.supervisor.registryPath

/-- The directory of journals. -/
def journalDirectory? (c : Config) (env : Environment) : Option String :=
  c.log.journalDir.map env.expandHome

/-- The time between two signs of life, in milliseconds; never zero. -/
def heartbeatMillis (c : Config) : Nat := max c.supervisor.heartbeatInterval 1

/-- The time between two looks at the projects, in milliseconds; never zero. -/
def pollMillis (c : Config) : Nat := max c.coordinator.pollInterval 1

end Config

end Workflow
