/-!
# Mailboxes

A bounded queue between a writing and a reading end, either of which may go away.
Nothing ever waits: what does not fit is refused, and the writer is told why.

The view of a mailbox is `items`, the oldest first.
-/

namespace Workflow

/-- A bounded queue with two ends. -/
structure Mailbox (α : Type) where
  /-- how many items it holds at most -/
  capacity : Nat
  /-- the items that were not read yet, the oldest first -/
  items : List α := []
  /-- the writing end is gone -/
  closed : Bool := false
  /-- the reading end is gone -/
  dropped : Bool := false

/-- What became of an item that was sent. -/
inductive Delivery where
  /-- it is in the queue -/
  | queued
  /-- the queue was full -/
  | full
  /-- nobody can read it -/
  | gone
  deriving DecidableEq, Repr

namespace Mailbox

variable {α : Type}

/-- What becomes of an item that is sent now. -/
def outcome (m : Mailbox α) : Delivery :=
  if m.dropped then .gone else if m.items.length < m.capacity then .queued else .full

/-- The mailbox after an item was sent. -/
def send (m : Mailbox α) (a : α) : Mailbox α :=
  match m.outcome with
  | .queued => { m with items := m.items ++ [a] }
  | _ => m

/-- The item that is read next. -/
def next? (m : Mailbox α) : Option α := m.items.head?

/-- The mailbox after the next item was read. -/
def receive (m : Mailbox α) : Mailbox α := { m with items := m.items.tail }

/-- Whether a reader has nothing to wait for: all is read and nobody writes. -/
def isOver (m : Mailbox α) : Bool := m.items.isEmpty && m.closed

/-! ## What the operations do to the view -/

theorem items_send (m : Mailbox α) (a : α) :
    (m.send a).items = if m.outcome = .queued then m.items ++ [a] else m.items := by
  unfold send
  cases m.outcome <;> simp

@[simp] theorem items_receive (m : Mailbox α) : m.receive.items = m.items.tail := rfl

@[simp] theorem capacity_send (m : Mailbox α) (a : α) : (m.send a).capacity = m.capacity := by
  unfold send
  cases m.outcome <;> rfl

end Mailbox

end Workflow
