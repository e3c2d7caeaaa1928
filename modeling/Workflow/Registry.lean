import Workflow.Disk
import Workflow.Run.Record

/-!
# The registry of runs

The table of runs as it is kept on disk: one JSON document with all records, which
every save writes anew, as a draft first that then takes the place of the document. No
interpreter outlives the process that started it, so a run that was not over when the
table was written is read back as stopped.
-/

namespace Workflow

namespace Registry

/-- The document of a table of runs. -/
def toJson (records : List RunRecord) : Json :=
  .obj [("runs", .arr (records.map fun r => r.persisted.toJson))]

/-- The text of the document. -/
def write (records : List RunRecord) : String := (toJson records).indented

/-- The path of the draft that is written before a registry is replaced. -/
def draftPath (path : String) : String := Path.withExtension path "json.tmp"

/-- The changes that put a document in place of the one at a path. The old one is there
until the new one is complete. -/
def replacing (path document : String) : List Disk.Change :=
  ((Path.directory? path).map Disk.Change.makeDirectory).toList ++
    [.write (draftPath path) document, .rename (draftPath path) path]

/-- The changes of a save. -/
def saving (path : String) (records : List RunRecord) : List Disk.Change :=
  replacing path (write records)

/-- Takes up one member of the document. -/
def takeRuns (d : Option (List RunRecord)) (i : Nat) (name : String) (v : Json) :
    Except Json.DecodeError (Option (List RunRecord)) :=
  if name = "runs" then Json.fill d name i (Json.list RunRecord.decode) v else .ok d

/-- The decoder of the document. -/
def decode : Json.Decoder (List RunRecord) :=
  Json.record "struct RegistryFile"
    (fun members => do
      let runs ← Json.foldMembers takeRuns 0 members none
      return runs.getD [])
    (fun items => do
      let runs ← Json.itemOr items 0 [] (Json.list RunRecord.decode)
      Json.noMoreThan items 1
      return runs)

/-- A record as it is read back. -/
def recovered (r : RunRecord) : RunRecord := ({ r with status := r.status.recovered }).persisted

/-- Reads a text as a table of runs; the path is for messages. -/
def read (path text : String) : Except Failure (List RunRecord) :=
  if Text.isBlankText text then .ok []
  else
    match Json.decodeText decode text.toList with
    | .ok runs => .ok (runs.map recovered)
    | .error e => .error (.registry (path ++ ": " ++ e.message text.toList))

/-- Reads the table at a path from what is found there. -/
def load (path : String) : Stored → Except Failure (List RunRecord)
  | .absent => .ok []
  | .directory => .error (.registry "Is a directory (os error 21)")
  | .binary => .error (.registry "stream did not contain valid UTF-8")
  | .text content => read path content

end Registry

end Workflow
