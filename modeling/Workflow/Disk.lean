import Workflow.Failure
import Workflow.Fields
import Workflow.Path

/-!
# The disk

What the library minds of a disk: which path names a file, with which text, and which
one names a directory. `look` and `list` are the two ways to see a disk, and a disk
changes only by a `Change`.

* Every change is all or nothing except writing a file, which may break off and leave
  any part of the text behind; whoever must not lose the old text writes a draft beside
  it and renames that.
* A change that cannot be made leaves the disk as it is.

Things are kept under the keys of their paths (`Disk.key`), so it does not matter how a
path is spelled.
-/

namespace Workflow

/-! ## What can be seen -/

/-- What is found where a file is looked for. -/
inductive Stored where
  /-- nothing -/
  | absent
  /-- a directory -/
  | directory
  /-- a file that holds no text -/
  | binary
  /-- a file that holds a text -/
  | text (content : String)
  deriving DecidableEq

namespace Stored

/-- The file with the given bytes. -/
def ofBytes (bytes : ByteArray) : Stored :=
  match String.fromUTF8? bytes with
  | some s => .text s
  | none => .binary

/-- The text of a file, if it has one. -/
def text? : Stored → Option String
  | .text content => some content
  | _ => none

end Stored

/-- Files and directories. -/
structure Disk where
  /-- where paths start that do not start at the root -/
  base : String := "/"
  /-- what there is under the keys of paths -/
  entries : Fields Stored := []

namespace Disk

/-- The way from the root to what a path names. -/
def way (d : Disk) (path : String) : List String := Path.way (Path.join d.base path)

/-- The key of a path. -/
def key (d : Disk) (path : String) : String := Path.ofWay (d.way path)

/-- What stands under a key; the root is always a directory. -/
def entry (d : Disk) (key : String) : Stored :=
  if key = "/" then .directory else (d.entries.find? key).getD .absent

/-- What a path names. The empty path names nothing, and a path that ends with a slash
names no file. -/
def look (d : Disk) (path : String) : Stored :=
  if path.isEmpty then .absent
  else
    match d.entry (d.key path) with
    | .directory => .directory
    | found => if path.endsWith "/" then .absent else found

/-- The name of what stands under a key, if that is right in a directory. -/
def nameIn? (directory key : String) : Option String :=
  let front := if directory.endsWith "/" then directory else directory ++ "/"
  if key.startsWith front then
    let name := (key.drop front.length).toString
    if name.contains '/' then none else some name
  else none

/-- The names and texts of the files in a directory, in order of their names. -/
def list (d : Disk) (path : String) : Option (List (String × String)) :=
  match d.look path with
  | .directory =>
    some (d.entries.filterMap fun (k, found) => do
      return (← nameIn? (d.key path) k, ← found.text?))
  | _ => none

/-! ## Changes -/

/-- A change of a disk. -/
inductive Change where
  /-- make a directory, and those above it -/
  | makeDirectory (path : String)
  /-- write a file, in place of one that is there -/
  | write (path text : String)
  /-- write behind the end of a file, which is made if it is not there -/
  | append (path text : String)
  /-- give a file another path, in place of what has that path -/
  | rename (old new : String)
  deriving DecidableEq

/-- Puts something under a key. -/
def put (d : Disk) (key : String) (s : Stored) : Disk := { d with entries := d.entries.put key s }

/-- Makes a directory, unless a file stands there. -/
def makeOne (d : Disk) (key : String) : Except Failure Disk :=
  match d.entry key with
  | .directory => .ok d
  | .absent => .ok (d.put key .directory)
  | _ => .error (.io "File exists (os error 17)")

/-- Makes directories one after another. -/
def makeAll (d : Disk) : List String → Except Failure Disk
  | [] => .ok d
  | key :: keys => do makeAll (← d.makeOne key) keys

/-- The keys of a directory and of those above it, from the root down. -/
def lineage (d : Disk) (path : String) : List String :=
  (List.range (d.way path).length).map fun n => Path.ofWay ((d.way path).take (n + 1))

/-- What a file could be written over at a path; `slashed` is why not at a path that ends
with a slash. -/
def writable (d : Disk) (path slashed : String) : Except Failure Stored :=
  if path.isEmpty then .error (.io "No such file or directory (os error 2)")
  else
    match d.entry (Path.ofWay (d.way path).dropLast), d.entry (d.key path) with
    | .directory, found =>
      if path.endsWith "/" then .error (.io slashed)
      else if found = .directory then .error (.io "Is a directory (os error 21)")
      else .ok found
    | .absent, _ => .error (.io "No such file or directory (os error 2)")
    | _, _ => .error (.io "Not a directory (os error 20)")

/-- Makes a change. -/
def apply (d : Disk) : Change → Except Failure Disk
  | .makeDirectory path => d.makeAll (d.lineage path)
  | .write path text => do
    let _ ← d.writable path "Is a directory (os error 21)"
    return d.put (d.key path) (.text text)
  | .append path text => do
    match ← d.writable path "Is a directory (os error 21)" with
    | .text before => return d.put (d.key path) (.text (before ++ text))
    | .binary => return d
    | _ => return d.put (d.key path) (.text text)
  | .rename old new => do
    let _ ← d.writable new "Not a directory (os error 20)"
    match d.look old with
    | .text content =>
      let moved := d.put (d.key new) (.text content)
      return if d.key old = d.key new then d
        else { moved with entries := moved.entries.erase (d.key old) }
    | .binary =>
      let moved := d.put (d.key new) .binary
      return if d.key old = d.key new then d
        else { moved with entries := moved.entries.erase (d.key old) }
    | _ => throw (.io "No such file or directory (os error 2)")

/-- Makes changes one after another, up to the first that cannot be made. -/
def applyAll (d : Disk) : List Change → Except Failure Disk
  | [] => .ok d
  | c :: cs => do applyAll (← d.apply c) cs

/-- The disk that holds the given files, with the directories they need and the one
where paths start. -/
def ofFiles (base : String) (files : List (String × String)) : Disk :=
  let start : Disk := { base }
  let steps (path : String) : List Change :=
    ((Path.directory? path).map Change.makeDirectory).toList
  let changes := Change.makeDirectory base ::
    files.flatMap fun (path, text) => steps path ++ [Change.write path text]
  changes.foldl (fun d c => (d.apply c).toOption.getD d) start

end Disk

end Workflow
