import Workflow.Project

/-!
# The coordinator

Keeps live projects the way they are wanted. The set of projects says for each what is
wanted, how often its definition was changed, and from which of these revisions its
run was started. A pass over the set plans what to do; what it did is noted:

* a project that is wanted running and has no active run is started;
* an active run of an older revision is stopped, so the next pass starts the new one;
* an active run of a project that is wanted stopped is stopped.

A definition that is set again unchanged is no new revision, so a project that stays
as it is keeps its run.
-/

namespace Workflow

/-- A project that is looked after. -/
structure ProjectEntry where
  /-- the project -/
  project : Project
  /-- how often its definition was changed -/
  revision : Nat := 0
  /-- the revision that its run was started from -/
  started : Option Nat := none

/-- Projects under their ids. -/
abbrev ProjectSet := Fields ProjectEntry

/-- What a pass decides for a project. -/
inductive Decision where
  /-- start it at a revision -/
  | start (project : Project) (revision : Nat)
  /-- stop its active run -/
  | stop (project : String)

namespace ProjectEntry

/-- Takes up a new version of a project. -/
def revise (entry : ProjectEntry) (p : Project) : ProjectEntry :=
  { entry with
    project := p
    revision := if entry.project.definition.same p.definition then entry.revision
      else entry.revision + 1 }

/-- What to do about a project; `active` says whether it has an active run. -/
def decide (entry : ProjectEntry) (active : Bool) : Option Decision :=
  match entry.project.desired with
  | .running =>
    if !active then some (.start entry.project entry.revision)
    else if entry.started = some entry.revision then none
    else some (.stop entry.project.id)
  | .stopped => if active then some (.stop entry.project.id) else none

end ProjectEntry

namespace ProjectSet

/-- Adds a project, or takes up its new version. -/
def upsert (ps : ProjectSet) (p : Project) : ProjectSet :=
  match ps.find? p.id with
  | some entry => ps.put p.id (entry.revise p)
  | none => ps.put p.id { project := p }

/-- Changes what is wanted of a project. -/
def setDesired (ps : ProjectSet) (id : String) (desired : Desired) : Except Failure ProjectSet :=
  match ps.find? id with
  | some entry => .ok (ps.put id { entry with project := { entry.project with desired := desired } })
  | none => .error (.projectNotFound id)

/-- Forgets a project. -/
def remove (ps : ProjectSet) (id : String) : Option (Project × ProjectSet) :=
  (ps.find? id).map fun entry => (entry.project, ps.erase id)

/-- Notes the revision that the run of a project was started from. -/
def noteStarted (ps : ProjectSet) (id : String) (revision : Nat) : ProjectSet :=
  match ps.find? id with
  | some entry => ps.put id { entry with started := some revision }
  | none => ps

/-- The projects, in order of their ids. -/
def projects (ps : ProjectSet) : List Project := ps.map fun (_, entry) => entry.project

/-- The ids of the projects that a list does not name. -/
def missing (ps : ProjectSet) (ids : List String) : List String :=
  ps.names.filter fun id => !ids.contains id

/-- What to do, project by project; `active` says which projects have an active run. -/
def plan (ps : ProjectSet) (active : String → Bool) : List Decision :=
  ps.filterMap fun (id, entry) => entry.decide (active id)

end ProjectSet

end Workflow
