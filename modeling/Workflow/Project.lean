import Workflow.Definition
import Workflow.Failure
import Workflow.Path
import Workflow.Vars

/-!
# Projects

A project is a definition that somebody wants to run, or not. Projects are kept
as files in a directory, one project a file; files that hold none are skipped,
and the projects are taken in order of their ids.
-/

namespace Workflow

/-- What is wanted of a project. -/
inductive Desired where
  /-- that it runs -/
  | running
  /-- that it does not run -/
  | stopped
  deriving DecidableEq, Repr

namespace Desired

/-- The name of a wish. -/
def name : Desired → String
  | running => "running"
  | stopped => "stopped"

/-- The decoder of wishes. -/
def decode : Json.Decoder Desired := Json.variant [("running", running), ("stopped", stopped)]

end Desired

/-- A project. -/
structure Project where
  /-- what it is called -/
  id : String
  /-- what is wanted of it -/
  desired : Desired := .stopped
  /-- what it runs -/
  definition : Definition := {}
  /-- the variables that its runs start with -/
  vars : Vars := {}

namespace Project

/-- The JSON form of a project. -/
def toJson (p : Project) : Json :=
  .obj [("id", .str p.id), ("desiredStatus", .str p.desired.name),
    ("definition", p.definition.toJson), ("vars", p.vars.toJson)]

/-- The fields of a project met so far. -/
structure Draft where
  /-- what it is called -/
  id : Option String := none
  /-- what is wanted of it -/
  desired : Option Desired := none
  /-- what it runs -/
  definition : Option Definition := none
  /-- the variables that its runs start with -/
  vars : Option Vars := none

/-- Takes up one member. -/
def Draft.take (d : Draft) (i : Nat) (name : String) (v : Json) : Except Json.DecodeError Draft :=
  match name with
  | "id" => do return { d with id := ← Json.fill d.id name i Json.text v }
  | "desiredStatus" => do return { d with desired := ← Json.fill d.desired name i Desired.decode v }
  | "definition" => do
    return { d with definition := ← Json.fill d.definition name i Definition.decode v }
  | "vars" => do return { d with vars := ← Json.fill d.vars name i Vars.decode v }
  | _ => .ok d

/-- The decoder of projects. -/
def decode : Json.Decoder Project :=
  Json.record "struct ProjectSpec"
    (fun members => do
      let d ← Json.foldMembers Draft.take 0 members {}
      let id ← Json.require d.id "id"
      return ⟨id, d.desired.getD .stopped, d.definition.getD {}, d.vars.getD {}⟩)
    (fun items => do
      let id ← Json.item items 0 "struct ProjectSpec with 4 elements" Json.text
      let desired ← Json.itemOr items 1 .stopped Desired.decode
      let definition ← Json.itemOr items 2 {} Definition.decode
      let vars ← Json.itemOr items 3 {} Vars.decode
      Json.noMoreThan items 4
      return ⟨id, desired, definition, vars⟩)

/-- Puts a project in its place by id, behind those with the same id. -/
def insert (p : Project) : List Project → List Project
  | [] => [p]
  | q :: rest => if p.id < q.id then p :: q :: rest else q :: insert p rest

/-- The projects in the files of a directory, by name and text, in order of their
ids. -/
def ofFiles (files : List (String × String)) : List Project :=
  let texts := files.filter fun (name, _) => Path.extension? name = some "json"
  let projects := texts.filterMap fun (_, text) => (Failure.ofText decode text).toOption
  projects.foldl (fun ps p => insert p ps) []

/-- Reads the projects of a directory, if it is there. -/
def load : Option (List (String × String)) → Except Failure (List Project)
  | some files => .ok (ofFiles files)
  | none => .error (.io "No such file or directory (os error 2)")

end Project

end Workflow
