import Workflow.Json.Decode

/-!
# Failures

The causes for which an operation of the library is refused, and their wording.
A cause carries what its message needs; nothing else decides by the message.
-/

namespace Workflow

/-- Why an operation was refused. -/
inductive Failure where
  /-- no such run, or no interpreter behind it -/
  | runNotFound (id : String)
  /-- the run is not over -/
  | runActive (id : String)
  /-- no such project -/
  | projectNotFound (id : String)
  /-- a control message with an unknown name -/
  | unknownControl (name : String)
  /-- a control message with a payload that does not fit -/
  | invalidPayload (name reason : String)
  /-- a network call that did not succeed -/
  | network (reason : String)
  /-- a registry that cannot be read or written -/
  | registry (reason : String)
  /-- a configuration that cannot be read -/
  | config (reason : String)
  /-- a configuration file that is not there -/
  | configNotFound (path : String)
  /-- a part of the library that broke down -/
  | internal (reason : String)
  /-- a file that cannot be read -/
  | io (reason : String)
  /-- a value or text of the wrong form -/
  | json (reason : String)
  deriving DecidableEq, Repr

namespace Failure

/-- The wording of a failure. -/
def message : Failure → String
  | runNotFound id => "Run not found: " ++ id
  | runActive id => "Run is still active: " ++ id
  | projectNotFound id => "Project not found: " ++ id
  | unknownControl name => "Unknown control event: " ++ name
  | invalidPayload name reason => "Invalid payload for " ++ name ++ ": " ++ reason
  | network reason => "Network call failed: " ++ reason
  | registry reason => "Registry error: " ++ reason
  | config reason => "Config error: " ++ reason
  | configNotFound path => "Config file not found: " ++ path
  | internal reason => "Internal error: " ++ reason
  | io reason => "I/O error: " ++ reason
  | json reason => "JSON error: " ++ reason

/-- Decodes a value, or fails with the reason. -/
def ofValue {α : Type} (d : Json.Decoder α) (v : Json) : Except Failure α :=
  match d v with
  | .ok a => .ok a
  | .error e => .error (.json e.message)

/-- Decodes a text, or fails with the reason and its place. -/
def ofText {α : Type} (d : Json.Decoder α) (text : String) : Except Failure α :=
  match Json.decodeText d text.toList with
  | .ok a => .ok a
  | .error e => .error (.json (e.message text.toList))

end Failure

end Workflow
