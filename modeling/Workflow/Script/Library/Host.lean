import Workflow.Script.Exchange
import Workflow.Script.Library.Arguments

/-!
# Functions of the host

The functions by which a script asks its host. They only turn arguments into a
request and the answer into results; what they refuse fails as the host does, with a
message that tells no position.
-/

namespace Workflow.Script.Library

/-! ## Arguments -/

/-- The name of the type of a value, as the host tells types apart. -/
def hostTypeName : Value → String
  | .int _ => "integer"
  | .failure _ => "error"
  | v => v.typeName

/-- Refuses an argument that cannot be converted. -/
def refuseArgument {α : Type} (n : Nat) (v : Value) (target : String) : Proc α :=
  Proc.fail (.host s!"bad argument #{n}: error converting Lua {hostTypeName v} to {target}")

/-- An argument as a text. -/
def hostText (args : Arguments) (n : Nat) : Proc String :=
  let v := args.nth n
  match v.toBytes? with
  | none => refuseArgument n v "String (expected string or number)"
  | some s =>
    match s.toText with
    | .ok t => pure t
    | .error e => refuseArgument n v ("String (" ++ e ++ ")")

/-- A value as JSON. -/
def hostJson (v : Value) : Proc Json := fun h =>
  match Exchange.toJson h v with
  | .ok j => .done j h
  | .error e => .fail (Exchange.misfit e) h

/-- JSON as the only result. -/
def oneJson (j : Json) : Proc Arguments := do return [← Proc.alter (Exchange.ofJson j)]

/-! ## Variables -/

/-- The variable that a reference names. -/
def varsGet (args : Arguments) : Proc Arguments := do
  match ← Proc.ask (.getVar (← hostText args 1)) with
  | some j => oneJson j
  | none => return [.nil]

/-- Sets a variable. -/
def varsSet (args : Arguments) : Proc Arguments := do
  let key ← hostText args 1
  let value ← hostJson (args.nth 2)
  let _ ← Proc.ask (.setVar key value)
  return []

/-- Removes a variable. -/
def varsDelete (args : Arguments) : Proc Arguments := do
  let _ ← Proc.ask (.deleteVar (← hostText args 1))
  return []

/-- All variables. -/
def varsAll (_ : Arguments) : Proc Arguments := do oneJson (← Proc.ask .allVars)

/-! ## The log and waiting -/

/-- A value as the log shows it; of a string, what is no text is replaced. -/
def logValue (v : Value) : Proc Json :=
  match v with
  | .str s => pure (.str s.toTextLossy)
  | v => hostJson v

/-- Logs the arguments. -/
def logAt (level : LogLevel) (args : Arguments) : Proc Arguments := do
  let _ ← Proc.ask (.log level (← args.mapM logValue))
  return []

/-- Has the run wait after the script, perhaps for a reason. -/
def hostWait (args : Arguments) : Proc Arguments := do
  let reason ← if args.isNilAt 1 then pure none else do pure (some (← hostText args 1))
  let _ ← Proc.ask (.wait reason)
  return []

/-! ## The network -/

/-- A response as a table. -/
def ofResponse (r : HttpResponse) (h : Heap) : Value × Heap :=
  let (headers, h) := h.newTable (r.headers.foldl
    (fun t (k, v) => t.set (.str k.toUTF8) (.text v)) {})
  let (json, h) := match r.bodyJson? with
    | some j => Exchange.ofJson j.canonical h
    | none => (.nil, h)
  let fields : List (String × Value) :=
    [("status", .nat r.status), ("headers", headers), ("json", json), ("body", .text r.body)]
  h.newTable (fields.foldl (fun t (k, v) => t.set (.str k.toUTF8) v) {})

/-- Sends a request. -/
def send (r : HttpRequest) : Proc Arguments := do
  match ← Proc.ask (.send r) with
  | .ok response => return [← Proc.alter (ofResponse response)]
  | .error e => Proc.fail (.host e)

/-- Sends a request that a table describes. -/
def httpRequest (args : Arguments) : Proc Arguments := do
  match args.nth 1 with
  | .table t =>
    match ← Proc.look fun h => Exchange.toRequest h t with
    | .ok r => send r
    | .error e => Proc.fail (Exchange.misfit e)
  | v => refuseArgument 1 v "table"

/-- Sends a plain request to an address. -/
def httpGet (args : Arguments) : Proc Arguments := do
  send { url := ← hostText args 1 }

end Workflow.Script.Library
