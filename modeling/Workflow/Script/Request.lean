import Workflow.Event
import Workflow.Http

/-!
# Requests

What a script can ask of its host, and what the host answers. This is all that a
script can do beyond computing: it knows no host, and a host knows no script.
-/

namespace Workflow.Script

/-- What a script asks of its host. -/
inductive Request where
  /-- the variable that a reference names -/
  | getVar (reference : String)
  /-- to set a variable -/
  | setVar (key : String) (value : Json)
  /-- to remove a variable -/
  | deleteVar (key : String)
  /-- all variables -/
  | allVars
  /-- to log values -/
  | log (level : LogLevel) (values : List Json)
  /-- to wait after the script -/
  | wait (reason : Option String)
  /-- to send a request through the network -/
  | send (request : HttpRequest)

/-- What the host answers. -/
def Request.Answer : Request → Type
  | getVar _ => Option Json
  | allVars => Json
  | send _ => Except String HttpResponse
  | setVar .. | deleteVar _ | log .. | wait _ => Unit

end Workflow.Script
