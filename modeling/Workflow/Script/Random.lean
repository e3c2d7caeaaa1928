/-!
# Random numbers

A generator of four words. Two words that it starts from decide everything that it
will ever give.
-/

namespace Workflow.Script

/-- The state of a generator. -/
structure RandomState where
  /-- the first word -/
  s0 : UInt64 := 1
  /-- the second word -/
  s1 : UInt64 := 0xFF
  /-- the third word -/
  s2 : UInt64 := 0
  /-- the fourth word -/
  s3 : UInt64 := 0
  deriving Inhabited

namespace RandomState

/-- A word turned to the left. -/
def turn (w n : UInt64) : UInt64 := (w <<< n) ||| (w >>> (64 - n))

/-- The next word, and the state after it. -/
def next (s : RandomState) : UInt64 × RandomState :=
  let s2 := s.s2 ^^^ s.s0
  let s3 := s.s3 ^^^ s.s1
  (turn (s.s1 * 5) 7 * 9, ⟨s.s0 ^^^ s3, s.s1 ^^^ s2, s2 ^^^ (s.s1 <<< 17), turn s3 45⟩)

/-- A generator that starts from two words. What it gives first still looks like
them and is skipped. -/
def ofSeed (a b : UInt64) : RandomState :=
  (List.range 16).foldl (fun s _ => s.next.2) ⟨a, 0xFF, b, 0⟩

end RandomState

end Workflow.Script
