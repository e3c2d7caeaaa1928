import Std.Time.DateTime.Timestamp
import Workflow.CommandLine.Commands

/-!
# The program, for real

Performs actions in the surroundings of a process. Every effect is answered by one
function here, and nothing is decided: what is asked for, in which order, and what is
made of the answers is all in the tree.
-/

namespace Workflow.CommandLine.Performing

/-! ## Input -/

/-- The lines that were typed and not heard yet. -/
structure Typed where
  /-- whether somebody reads what is typed -/
  isRead : Bool := false
  /-- the lines, the oldest first -/
  lines : List String := []
  /-- whether nothing more will be typed -/
  isOver : Bool := false

/-- A line without its end. -/
def withoutEnd (line : String) : String :=
  let line := if line.endsWith "\n" then (line.dropEnd 1).toString else line
  if line.endsWith "\r" then (line.dropEnd 1).toString else line

/-- Reads what is typed, line by line. -/
partial def readInput (typed : IO.Ref Typed) : IO Unit := do
  let line ← (← IO.getStdin).getLine
  if line.isEmpty then typed.modify fun t => { t with isOver := true }
  else
    typed.modify fun t => { t with lines := t.lines ++ [withoutEnd line] }
    readInput typed

/-- How often a line of input is looked for, in milliseconds. -/
def lookInterval : Nat := 10

/-- Waits for a line of input. -/
partial def hear (typed : IO.Ref Typed) (left : Option Nat) : IO Heard := do
  if ← typed.modifyGet fun t => (!t.isRead, { t with isRead := true }) then
    let _ ← IO.asTask (readInput typed) .dedicated
  let heard ← typed.modifyGet fun t =>
    match t.lines with
    | line :: lines => (some (.line line), { t with lines })
    | [] => (if t.isOver then some Heard.ended else none, t)
  match heard, left with
  | some h, _ => return h
  | none, some 0 => return .silence
  | none, left =>
    IO.sleep lookInterval.toUInt32
    hear typed (left.map (· - lookInterval))

/-! ## Files -/

/-- What a path names. What is there and is no file counts as a directory. -/
def look (path : String) : IO Stored := do
  try
    return .ofBytes (← IO.FS.readBinFile path)
  catch _ =>
    try
      let _ ← IO.FS.realPath path
      return .directory
    catch _ => return .absent

/-- The names and texts of the files in a directory. -/
def list (path : String) : IO (Option (List (String × String))) := do
  let directory : IO.FS.DirEntry := { root := path, fileName := "" }
  try
    let mut files := []
    for entry in ← directory.root.readDir do
      if let some content := (← look entry.path.toString).text? then
        files := (entry.fileName, content) :: files
    return some files
  catch _ => return none

/-- Makes a change. -/
def makeChange : Disk.Change → IO Unit
  | .makeDirectory path => IO.FS.createDirAll path
  | .write path content => IO.FS.writeFile path content
  | .append path content => do (← IO.FS.Handle.mk path .append).putStr content
  | .rename old new => IO.FS.rename old new

/-- Makes a change; if that fails, gives the reason. -/
def tryChange (c : Disk.Change) : IO (Except Failure Unit) := do
  try
    makeChange c
    return .ok ()
  catch e => return .error (.io e.toString)

/-! ## Names and times -/

/-- A byte as two digits. -/
def hexByte (b : UInt8) : List Char := [Nat.digitChar (b.toNat / 16), Nat.digitChar (b.toNat % 16)]

/-- A name made of random bytes, in five groups; the third and the fourth say that it
is one. -/
def nameOfBytes (bytes : List UInt8) : String :=
  let marked := bytes.mapIdx fun i b =>
    if i = 6 then b &&& 0x0f ||| 0x40 else if i = 8 then b &&& 0x3f ||| 0x80 else b
  let group (first size : Nat) : String :=
    String.ofList (((marked.drop first).take size).flatMap hexByte)
  String.intercalate "-" [group 0 4, group 4 2, group 6 2, group 8 2, group 10 6]

/-- A word made of bytes. -/
def wordOfBytes (bytes : List UInt8) : UInt64 :=
  bytes.foldl (fun w b => w <<< 8 ||| b.toUInt64) 0

/-- The date and time. -/
def readClock : IO Instant := do
  return .ofEpochNanos (← Std.Time.Timestamp.now).toNanosecondsSinceUnixEpoch.val

/-! ## Performing -/

/-- Prints a line at once. -/
def printLine (stream : IO.FS.Stream) (line : String) : IO Unit := do
  stream.putStrLn line
  stream.flush

/-- Answers an effect. -/
def answer (typed : IO.Ref Typed) : (e : Effect) → IO e.Answer
  | .valueOf name => IO.getEnv name
  | .look path => look path
  | .list path => list path
  | .change c => tryChange c
  | .say line => do printLine (← IO.getStdout) line
  | .complain line => do printLine (← IO.getStderr) line
  | .clock => readClock
  | .fresh => do return nameOfBytes (← IO.getRandomBytes 16).toList
  | .chance => do return wordOfBytes (← IO.getRandomBytes 8).toList
  | .pause millis => IO.sleep (min millis (2 ^ 32 - 1)).toUInt32
  | .hear limit => hear typed limit

/-- Waits for nothing. -/
partial def hang : IO UInt32 := do
  IO.sleep 1000
  hang

/-- Performs an action; gives the exit code. -/
def perform (typed : IO.Ref Typed) : Action Unit → IO UInt32
  | .done _ => return 0
  | .quit code => return code.toUInt32
  | .hang => hang
  | .ask e next => do perform typed (next (← answer typed e))

end Workflow.CommandLine.Performing

/-- Runs the program. -/
def main (args : List String) : IO UInt32 := do
  Workflow.CommandLine.Performing.perform (← IO.mkRef {}) (Workflow.CommandLine.program args)
