import Workflow.Watch.Broadcaster

/-!
# Journals

A journal watches one run and writes its events down, one line each. Its level
says how much: the life of the run, also its nodes and edges, also its log and
its variables.

A journal ends after the event that ends the run. That event may have been lost
to a full mailbox; so when the run's *finished* signal is set, the journal writes
what is left and ends as well. The signal is looked at only when nothing is left
to read. It also ends if its directory cannot be made, if its file cannot be
opened or written to, or if it was taken off its subject and has read all.
However it ends, it takes itself off its subject last.
-/

namespace Workflow

namespace Journal

/-- How a journal comes to its end. -/
inductive Exit where
  /-- its directory cannot be made -/
  | noDirectory
  /-- its file cannot be opened -/
  | noFile
  /-- its file cannot be written to -/
  | failedWrite
  /-- the event that ends the run was read -/
  | terminal
  /-- the run is finished, and all is read -/
  | finished
  /-- it was taken off its subject, and all is read -/
  | closed
  deriving DecidableEq, Repr

/-- How far a journal is. -/
inductive Phase where
  /-- it has yet to make its directory -/
  | starting
  /-- it has yet to open its file -/
  | opening
  /-- it reads what comes in, and waits for more -/
  | reading
  /-- it reads what is left -/
  | draining
  /-- it has yet to take itself off its subject -/
  | leaving (exit : Exit)
  /-- it has ended -/
  | ended (exit : Exit)
  deriving DecidableEq, Repr

/-- What the disk allows a journal. -/
structure Place where
  /-- whether its directory is there or can be made -/
  hasDirectory : Bool := true
  /-- whether its file can be opened -/
  hasFile : Bool := true

end Journal

/-- A journal. -/
structure Journal where
  /-- how much it writes down -/
  level : Nat
  /-- the subject that it watches -/
  subject : String
  /-- its watcher -/
  watcher : Nat
  /-- how many more lines its file takes, if there is a limit -/
  room : Option Nat := none
  /-- how far it is -/
  phase : Journal.Phase := .starting
  /-- the envelopes that were written down -/
  lines : List Envelope := []

namespace Journal

/-- The least level at which an event is written. What greets a watcher is no part
of a run's history, and is written only at the very top. -/
def levelOf : Event → Nat
  | .runStarted _ | .runCompleted _ | .runError .. | .runStopped _ | .workflowComplete => 1
  | .nodeStart _ | .nodeWait .. | .nodeError .. | .edgeStart _ => 2
  | .nodeLog .. | .varsUpdate _ => 3
  | .currentStatus .. | .executionState .. => 255

/-- Whether a journal of a level writes an envelope down. -/
def writes (level : Nat) (e : Envelope) : Bool := levelOf e.event ≤ level

/-- The line for an envelope. -/
def line (timestamp : String) (e : Envelope) : Json :=
  .obj [("timestamp", .str timestamp), ("subject", .str e.subject), ("event", .str e.event.name),
    ("payload", e.event.payload)]

/-! ## Reading -/

/-- Writes an envelope down, if it is to be, unless that fails. -/
def append (j : Journal) (e : Envelope) : Option Journal :=
  if writes j.level e then
    match j.room with
    | some 0 => none
    | room => some { j with lines := j.lines ++ [e], room := room.map (· - 1) }
  else some j

/-- Reads an envelope. The one that ends the run is the last, whether or not it is written
down. -/
def read (j : Journal) (e : Envelope) : Journal :=
  match j.append e with
  | none => { j with phase := .leaving .failedWrite }
  | some j => if e.event.isTerminal then { j with phase := .leaving .terminal } else j

/-- Reads one of the envelopes that are left when the run is finished. -/
def readLeft (j : Journal) (e : Envelope) : Journal :=
  (j.append e).getD { j with phase := .leaving .failedWrite }

/-- Does the next step, if there is one and the journal need not wait. -/
def step (place : Place) (finished : Bool) (j : Journal) (b : Broadcaster) :
    Option (Journal × Broadcaster) :=
  match j.phase with
  | .starting =>
    some ({ j with phase := if place.hasDirectory then .opening else .leaving .noDirectory }, b)
  | .opening => some ({ j with phase := if place.hasFile then .reading else .leaving .noFile }, b)
  | .reading =>
    match b.receive j.watcher with
    | (some e, b) => some (j.read e, b)
    | (none, _) =>
      if ((b.box? j.watcher).map (·.isOver)).getD true then
        some ({ j with phase := .leaving .closed }, b)
      else if finished then some ({ j with phase := .draining }, b)
      else none
  | .draining =>
    match b.receive j.watcher with
    | (some e, b) => some (j.readLeft e, b)
    | (none, _) => some ({ j with phase := .leaving .finished }, b)
  | .leaving exit => some ({ j with phase := .ended exit }, (b.unsubscribe j.subject j.watcher).2)
  | .ended _ => none

/-- Does steps until the journal has to wait or has ended, at most so many. -/
def run (place : Place) (finished : Bool) : Nat → Journal → Broadcaster → Journal × Broadcaster
  | 0, j, b => (j, b)
  | steps + 1, j, b =>
    match j.step place finished b with
    | some (j, b) => run place finished steps j b
    | none => (j, b)

/-! ## Turns -/

/-- How many lines the file of a journal takes: there is no limit. -/
def rowLimit : Option Nat := none

/-- What one turn of a journal came to. -/
structure Turn where
  /-- the envelopes that were written -/
  written : List Envelope
  /-- whether the journal has ended -/
  ended : Bool

/-- Reads envelopes as long as the journal does not end. -/
def readAll (j : Journal) : List Envelope → Journal
  | [] => j
  | e :: rest => if j.phase = .reading then (j.read e).readAll rest else j

/-- One turn over the envelopes in the mailbox of a journal whose file takes so many lines. -/
def turn (level : Nat) (finished : Bool) (room : Option Nat) (items : List Envelope) : Turn :=
  let j : Journal := readAll
    { level := level, subject := "", watcher := 0, room := room, phase := .reading } items
  ⟨j.lines, finished || j.phase ≠ .reading⟩

/-- Whether a file for the journal of a subject can be made: its name must not lie
in a directory that does not exist, and must not be too long. -/
def hasFile (subject : String) : Bool :=
  (subject.splitOn "/").dropLast.all (fun part => part = "" || part = "." || part = "..") &&
    (((subject.splitOn "/").getLast?).getD "").utf8ByteSize + 6 ≤ 255

end Journal

end Workflow
