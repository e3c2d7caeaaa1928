import Workflow.Event
import Workflow.Run.Record

/-!
# Output

The forms in which the program prints what it knows: a run as a row of a table, a run as
a document, an event as one line.
-/

namespace Workflow.CommandLine

/-- A text with blanks behind it, up to a width in characters. -/
def padded (width : Nat) (text : String) : String :=
  text ++ String.ofList (List.replicate (width - text.length) ' ')

/-- A run as a row of a table. -/
def recordRow (r : RunRecord) : String :=
  s!"{r.runId}  {padded 10 r.status.name} {padded 20 r.projectId} {r.startedAt.tableText}  " ++
    r.currentNode.getD "-"

/-- A run as a document. -/
def recordDocument (r : RunRecord) : String := r.toJson.indented

/-- An event as a line. -/
def envelopeLine (e : Envelope) : String := e.toJson.compact

end Workflow.CommandLine
