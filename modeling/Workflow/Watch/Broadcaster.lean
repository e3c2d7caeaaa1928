import Workflow.Watch.Bus
import Workflow.Watch.Mailbox

/-!
# The broadcaster

Watchers register for a subject and get, each in a mailbox of its own, first a
greeting and then every event published on that subject while there is room.

* A watcher that falls behind loses events; nobody else notices.
* A watcher whose reader is gone is taken off at the next event.
* A watcher that is taken off keeps what is in its mailbox, and only then learns
  that nothing more will come.

Watchers are numbered from one and a number is never used again. The register
says who is registered where; the mailboxes are kept beside it, because reading
does not concern the register.
-/

namespace Workflow

/-- The register of watchers and their mailboxes. -/
structure Broadcaster where
  /-- how many events a watcher may leave unread -/
  buffer : Nat := 256
  /-- the number of the next watcher -/
  nextId : Nat := 1
  /-- the watchers of each subject that has any, in order of registration -/
  subjects : Fields (List Nat) := []
  /-- the mailboxes of all watchers -/
  boxes : List (Nat × Mailbox Envelope) := []
  /-- where everything is published -/
  bus : Bus := .ofCapacity 256

namespace Broadcaster

/-- A broadcaster with the given room for each watcher; there is always some. -/
def ofBuffer (buffer busCapacity : Nat) : Broadcaster :=
  { buffer := max buffer 1, bus := .ofCapacity busCapacity }

/-- The watchers of a subject. -/
def watchers (b : Broadcaster) (subject : String) : List Nat :=
  (b.subjects.find? subject).getD []

/-- The mailbox of a watcher. -/
def box? (b : Broadcaster) (id : Nat) : Option (Mailbox Envelope) :=
  (b.boxes.find? fun (i, _) => i = id).map Prod.snd

/-- Changes the mailbox of a watcher. -/
def updateBox (b : Broadcaster) (id : Nat) (f : Mailbox Envelope → Mailbox Envelope) :
    Broadcaster :=
  { b with boxes := b.boxes.map fun (i, m) => if i = id then (i, f m) else (i, m) }

/-- Sets the watchers of a subject; a subject without watchers is forgotten. -/
def setWatchers (b : Broadcaster) (subject : String) (ids : List Nat) : Broadcaster :=
  { b with subjects := if ids.isEmpty then b.subjects.erase subject else b.subjects.put subject ids }

/-- Registers a watcher. Its mailbox has room for the greeting, whatever the
buffer. -/
def subscribe (b : Broadcaster) (subject : String) (greeting : List Event) : Nat × Broadcaster :=
  let box : Mailbox Envelope :=
    { capacity := max b.buffer greeting.length, items := greeting.map (⟨subject, ·⟩) }
  let b' : Broadcaster := { b with nextId := b.nextId + 1, boxes := b.boxes ++ [(b.nextId, box)] }
  (b.nextId, b'.setWatchers subject (b.watchers subject ++ [b.nextId]))

/-- Takes a watcher off a subject. -/
def unsubscribe (b : Broadcaster) (subject : String) (id : Nat) : Bool × Broadcaster :=
  let ids := b.watchers subject
  if ids.contains id then
    (true, (b.setWatchers subject (ids.filter (· ≠ id))).updateBox id fun m =>
      { m with closed := true })
  else (false, b)

/-- Whether the reader of a watcher is gone. -/
def isGone (b : Broadcaster) (id : Nat) : Bool := ((b.box? id).map (·.dropped)).getD true

/-- Hands an event to the watchers of a subject. -/
def deliver (b : Broadcaster) (subject : String) (event : Event) : Broadcaster :=
  let ids := b.watchers subject
  let (gone, present) := ids.partition b.isGone
  let delivered := present.foldl (fun b id => b.updateBox id (·.send ⟨subject, event⟩)) b
  let closed := gone.foldl (fun b id => b.updateBox id fun m => { m with closed := true }) delivered
  if gone.isEmpty then closed else closed.setWatchers subject present

/-- Puts an envelope on the bus. -/
def announce (b : Broadcaster) (e : Envelope) : Broadcaster := { b with bus := b.bus.publish e }

/-- Publishes an event on a subject: first to its watchers, then on the bus. -/
def publish (b : Broadcaster) (subject : String) (event : Event) : Broadcaster :=
  (b.deliver subject event).announce ⟨subject, event⟩

/-- Reads the next envelope of a watcher. -/
def receive (b : Broadcaster) (id : Nat) : Option Envelope × Broadcaster :=
  ((b.box? id).bind (·.next?), b.updateBox id (·.receive))

/-- Reads all envelopes of a watcher. -/
def drain (b : Broadcaster) (id : Nat) : List Envelope × Broadcaster :=
  (((b.box? id).map (·.items)).getD [], b.updateBox id fun m => { m with items := [] })

/-- Drops the reading end of a watcher. -/
def drop (b : Broadcaster) (id : Nat) : Broadcaster :=
  b.updateBox id fun m => { m with items := [], dropped := true }

end Broadcaster

end Workflow
