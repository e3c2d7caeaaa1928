import Workflow.Fields
import Workflow.Path
import Workflow.Vars.Key

/-!
# The catalog of shared scripts

Scripts under folded names, for nodes without a script of their own. A script is
found under the exact name; else under the longest name that contains the wanted
one or is contained in it, and among names of one length the last in order.
-/

namespace Workflow

/-- Scripts under folded names. -/
structure Catalog where
  /-- the scripts under their names -/
  scripts : Fields String := []

namespace Catalog

/-- Adds a script, in place of one with the same folded name. -/
def insert (catalog : Catalog) (name script : String) : Catalog :=
  ⟨catalog.scripts.put (Key.normalize name) script⟩

/-- The catalog of a list of names with their scripts. -/
def ofList (entries : List (String × String)) : Catalog :=
  entries.foldl (fun catalog (name, script) => catalog.insert name script) {}

/-- The catalog of the script files of a directory. -/
def ofFiles (files : List (String × String)) : Catalog :=
  ofList (files.filterMap fun (name, text) =>
    if Path.extension? name = some "lua" then (Path.stem? name).map fun stem => (stem, text)
    else none)

/-- How many scripts there are. -/
def size (catalog : Catalog) : Nat := catalog.scripts.length

/-- Whether a text has another one somewhere in it. -/
def isInfix (part : List Char) : List Char → Bool
  | [] => part.isEmpty
  | c :: cs => part.isPrefixOf (c :: cs) || isInfix part cs

/-- Whether one of two names contains the other. -/
def related (wanted name : String) : Bool :=
  isInfix wanted.toList name.toList || isInfix name.toList wanted.toList

/-- The longest of the names that are related to the wanted one; of two with one
length the later. Lengths are counted in bytes. -/
def bestMatch (wanted : String) (scripts : Fields String) : Option (String × String) :=
  scripts.foldl (fun best (name, script) =>
    if related wanted name then
      match best with
      | some (other, _) => if name.utf8ByteSize < other.utf8ByteSize then best else some (name, script)
      | none => some (name, script)
    else best) none

/-- The script for a name. -/
def lookup (catalog : Catalog) (name : String) : Option String :=
  let wanted := Key.normalize name
  if wanted.isEmpty then none
  else
    match catalog.scripts.find? wanted with
    | some script => some script
    | none => (bestMatch wanted catalog.scripts).map Prod.snd

end Catalog

end Workflow
