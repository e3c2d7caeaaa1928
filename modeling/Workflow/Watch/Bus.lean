import Workflow.Event

/-!
# The bus

All envelopes of all subjects, for readers that want everything. The bus keeps
only the latest envelopes. A reader that falls behind learns how many it missed
and goes on with the oldest one that is left.
-/

namespace Workflow

/-- The latest envelopes. -/
structure Bus where
  /-- how many envelopes are kept -/
  capacity : Nat
  /-- the envelopes that are kept, the oldest first -/
  held : List Envelope := []
  /-- how many envelopes there have been -/
  count : Nat := 0

/-- What a reader of the bus gets. -/
inductive BusEntry where
  /-- the next envelope -/
  | envelope (e : Envelope)
  /-- some envelopes are gone -/
  | lagged (missed : Nat)

namespace Bus

/-- A bus that keeps at least so many envelopes: the number is rounded up to a
power of two. -/
def ofCapacity (n : Nat) : Bus := { capacity := n.nextPowerOfTwo }

/-- The bus after one more envelope. -/
def publish (bus : Bus) (e : Envelope) : Bus :=
  let held := bus.held ++ [e]
  { bus with held := held.drop (held.length - bus.capacity), count := bus.count + 1 }

/-- All that a reader at a position gets. A reader that joins stands at `count`, and one that has got
all stands there again. -/
def readAll (bus : Bus) (position : Nat) : List BusEntry :=
  let oldest := bus.count - bus.held.length
  if position < oldest then .lagged (oldest - position) :: bus.held.map .envelope
  else (bus.held.drop (position - oldest)).map .envelope

end Bus

end Workflow
