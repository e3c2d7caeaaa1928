/-!
# Paths

File names as text, with slashes between their parts. A part that is empty or a
single point says nothing and is passed over, so `a//b/` and `a/./b` name what
`a/b` names.

The last part of a path is its file name. A file name splits at its last point
into stem and extension, unless that point comes first: `.profile` has no
extension.
-/

namespace Workflow.Path

/-- The pieces between the slashes. -/
def pieces (path : String) : List String := (path.toList.splitOn '/').map String.ofList

/-- The parts that say something. -/
def parts (path : String) : List String := (pieces path).filter fun p => p ≠ "" && p ≠ "."

/-- The file name; a path that ends by going up has none. -/
def fileName? (path : String) : Option String :=
  match (parts path).getLast? with
  | some ".." => none
  | other => other

/-- The stem and the extension of a file name. -/
def splitName (name : String) : String × Option String :=
  let reversed := name.toList.reverse
  let tail := reversed.takeWhile (· ≠ '.')
  match reversed.dropWhile (· ≠ '.') with
  | _ :: c :: before => (String.ofList (c :: before).reverse, some (String.ofList tail.reverse))
  | _ => (name, none)

/-- The stem of the file name. -/
def stem? (path : String) : Option String := (fileName? path).map fun n => (splitName n).1

/-- The extension of the file name. -/
def extension? (path : String) : Option String := (fileName? path).bind fun n => (splitName n).2

/-- A path seen from a directory. A path that starts at the root is not seen from
anywhere, and from no directory a path is seen as it is. -/
def join (directory path : String) : String :=
  if path.startsWith "/" then path
  else if directory = "" || directory.endsWith "/" then directory ++ path
  else directory ++ "/" ++ path

/-- The path of the directory that a path with more than one part lies in. -/
def directory? (path : String) : Option String :=
  match (parts path).dropLast with
  | [] => none
  | ps => some ((if path.startsWith "/" then "/" else "") ++ String.intercalate "/" ps)

/-- A path whose file name has another extension, if it has a file name. -/
def withExtension (path extension : String) : String :=
  match fileName? path with
  | none => path
  | some name =>
    let name := (splitName name).1 ++ "." ++ extension
    match directory? path with
    | some directory => join directory name
    | none => (if path.startsWith "/" then "/" else "") ++ name

/-- The parts that are left when every part `..` has taken back the one before it. What
has been passed is kept with the latest part first. -/
def climb : List String → List String → List String
  | passed, [] => passed.reverse
  | passed, part :: rest =>
    if part = ".." then climb passed.tail rest else climb (part :: passed) rest

/-- The way from the root to what a path names, for a path that starts there; two paths
with equal ways name one thing. -/
def way (path : String) : List String := climb [] (parts path)

/-- A way from the root, as a text. -/
def ofWay (way : List String) : String := "/" ++ String.intercalate "/" way

end Workflow.Path
