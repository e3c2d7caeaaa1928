import Workflow.Environment

/-!
# Arguments

What the program is asked to do: options of the whole program, the name of a command,
then the options and operands of that command in any order.

* An option is written `--name value` or `--name=value`; one with a letter also
  `-l value`, `-lvalue` or `-l=value`. A value that stands alone does not start with a
  hyphen, unless it is nothing but a hyphen.
* An option is given at most once.
* After `--` everything is an operand.
-/

namespace Workflow.CommandLine

/-! ## Options and operands -/

/-- Why there is nothing to do. -/
inductive Halt where
  /-- the arguments do not fit -/
  | usage (message : String)
  /-- somebody asks for help -/
  | help
  /-- somebody asks for the version -/
  | version
  deriving DecidableEq, Repr

/-- An option. -/
structure Switch where
  /-- the long name -/
  name : String
  /-- the letter -/
  letter : Option Char := none
  /-- whether it takes a value -/
  hasValue : Bool := true
  /-- what it brings about at once, whatever follows -/
  halts : Option Halt := none

/-- What was given: options by name, and operands in order. -/
structure Given where
  /-- the options, with the empty text for those without a value -/
  options : Fields String := []
  /-- the operands -/
  operands : List String := []

namespace Given

/-- Takes up an option. -/
def withOption (g : Given) (s : Switch) (value : String) : Except Halt Given :=
  if g.options.has s.name then .error (.usage s!"--{s.name} is given twice")
  else .ok { g with options := g.options.put s.name value }

/-- Whether a text may be the value of an option that stands before it. -/
def isValue (text : String) : Bool := text = "-" || !text.startsWith "-"

/-- Takes up an option with the value that is attached to it or stands behind it. -/
def takeOption (g : Given) (s : Switch) (attached : Option String) (rest : List String) :
    Except Halt (Given × List String) := do
  if let some halt := s.halts then throw halt
  match s.hasValue, attached, rest with
  | true, some value, rest => do return (← g.withOption s value, rest)
  | true, none, value :: rest =>
    if isValue value then do return (← g.withOption s value, rest)
    else .error (.usage s!"--{s.name} needs a value")
  | true, none, [] => .error (.usage s!"--{s.name} needs a value")
  | false, some _, _ => .error (.usage s!"--{s.name} takes no value")
  | false, none, rest => do return (← g.withOption s "", rest)

/-- Takes up a long option, written without its hyphens. -/
def takeLong (g : Given) (switches : List Switch) (text : List Char) (rest : List String) :
    Except Halt (Given × List String) :=
  let name := String.ofList (text.takeWhile (· ≠ '='))
  let attached := match text.dropWhile (· ≠ '=') with
    | _ :: value => some (String.ofList value)
    | [] => none
  match switches.find? fun s => s.name = name with
  | some s => g.takeOption s attached rest
  | none => .error (.usage s!"--{name} is unknown")

/-- Takes up an option by its letter. -/
def takeLetter (g : Given) (switches : List Switch) (letter : Char) (text : List Char)
    (rest : List String) : Except Halt (Given × List String) :=
  let attached := match text with
    | [] => none
    | '=' :: value => some (String.ofList value)
    | value => some (String.ofList value)
  match switches.find? fun s => s.letter = some letter with
  | some s => g.takeOption s attached rest
  | none => .error (.usage s!"-{letter} is unknown")

/-- Reads options and operands, for as many arguments as `fuel` says. With `stops`, the
first operand ends the reading, and what stands behind it is left. -/
def read (switches : List Switch) (stops : Bool) :
    Nat → List String → Given → Except Halt (Given × List String)
  | 0, rest, g => .ok (g, rest)
  | _, [], g => .ok (g, [])
  | fuel + 1, arg :: rest, g =>
    match arg.toList with
    | ['-', '-'] =>
      if stops then .error (.usage "a command is missing")
      else .ok ({ g with operands := g.operands ++ rest }, [])
    | '-' :: '-' :: text => do
      let (g, rest) ← g.takeLong switches text rest
      read switches stops fuel rest g
    | '-' :: letter :: text => do
      let (g, rest) ← g.takeLetter switches letter text rest
      read switches stops fuel rest g
    | _ =>
      let g := { g with operands := g.operands ++ [arg] }
      if stops then .ok (g, rest) else read switches stops fuel rest g

end Given

/-! ## Commands -/

/-- What to do. -/
inductive Command where
  /-- run a workflow, and show its events -/
  | run (workflow : String) (vars project : Option String) (isPreview : Bool)
  /-- list the runs -/
  | runs
  /-- show a run -/
  | status (id : String)
  /-- forget a run -/
  | cleanup (run : String)
  /-- show the configuration -/
  | config
  deriving DecidableEq, Repr

/-- A command and the configuration to do it with. -/
structure Invocation where
  /-- the path of the configuration -/
  configPath : String
  /-- what to do -/
  command : Command
  deriving DecidableEq, Repr

/-- The option that asks for help. -/
def helpSwitch : Switch :=
  { name := "help", letter := some 'h', hasValue := false, halts := some .help }

/-- The options of the whole program. -/
def mainSwitches : List Switch :=
  [{ name := "config", letter := some 'c' }, helpSwitch,
    { name := "version", letter := some 'V', hasValue := false, halts := some .version }]

/-- The options of a run. -/
def runSwitches : List Switch :=
  [{ name := "vars" }, { name := "project" }, { name := "preview", hasValue := false }, helpSwitch]

/-- Where the configuration is, unless an option or the environment says otherwise. -/
def defaultConfigPath : String := "flowloom.toml"

/-- The variable that says where the configuration is. -/
def configVariable : String := "FLOWLOOM_CONFIG"

/-- The one operand of a command. -/
def oneOperand (g : Given) (what : String) : Except Halt String :=
  match g.operands with
  | [operand] => .ok operand
  | [] => .error (.usage s!"{what} is missing")
  | _ => .error (.usage "too many operands")

/-- A path must not be empty. -/
def checkedPath (path what : String) : Except Halt String :=
  if path.isEmpty then .error (.usage s!"{what} is empty") else .ok path

/-- Reads the arguments of a command. -/
def readCommand (name : String) (args : List String) : Except Halt Command := do
  let read (switches : List Switch) : Except Halt Given := do
    return (← Given.read switches false (args.length + 1) args {}).1
  match name with
  | "run" =>
    let g ← read runSwitches
    let workflow ← checkedPath (← oneOperand g "a workflow") "the workflow"
    return .run workflow (g.options.find? "vars") (g.options.find? "project") (g.options.has "preview")
  | "runs" =>
    let g ← read [helpSwitch]
    if g.operands.isEmpty then return .runs else throw (.usage "too many operands")
  | "status" => return .status (← oneOperand (← read [helpSwitch]) "a run or project")
  | "cleanup" => return .cleanup (← oneOperand (← read [helpSwitch]) "a run")
  | "config" =>
    let g ← read [helpSwitch]
    if g.operands.isEmpty then return .config else throw (.usage "too many operands")
  | _ => throw (.usage s!"{name} is no command")

/-- The path of the configuration: as given, else as the environment says, else the
usual one. -/
def configPath (env : Environment) (g : Given) : Except Halt String :=
  match (g.options.find? "config").or (env.find? configVariable) with
  | some path => checkedPath path "the path of the configuration"
  | none => .ok defaultConfigPath

/-- Reads the arguments of the program. -/
def readArguments (env : Environment) (args : List String) : Except Halt Invocation := do
  let (g, rest) ← Given.read mainSwitches true (args.length + 1) args {}
  match g.operands with
  | [name] =>
    let command ← readCommand name rest
    return ⟨← configPath env g, command⟩
  | _ => throw (.usage "a command is missing")

end Workflow.CommandLine
