import Workflow.Interpreter

/-!
# Rehearsals

A run with a schedule of what is done to it from outside, in a time that passes only
when the run is suspended. A cue names its moment: before the run, at an event, or at
a time. What is due at one time is done together, before the run goes on.

A rehearsal ends when the run is over, or when it is suspended and no cue is left
that could release it.
-/

namespace Workflow

/-- When a cue is due. -/
inductive Moment where
  /-- before the run -/
  | start
  /-- when the event of a name is told for the nth time -/
  | event (name : String) (nth : Nat)
  /-- at a time, in milliseconds -/
  | time (ms : Nat)
  deriving DecidableEq, Repr

/-- What is done from outside: first the run is cancelled, then messages are sent,
then the inbox is closed. -/
structure Cue where
  /-- when it is due -/
  moment : Moment
  /-- whether the run is cancelled -/
  cancels : Bool := false
  /-- the messages that are sent, by name and payload -/
  sends : List (String × Json) := []
  /-- whether the inbox is closed -/
  closes : Bool := false

/-- What is noted in a rehearsal. -/
inductive Note where
  /-- an event, and the time it was told -/
  | told (time : Nat) (event : Event)
  /-- a message that could not be sent -/
  | unsent (name : String)

/-- A run in rehearsal. -/
structure Rehearsal where
  /-- the run -/
  run : Interpreter
  /-- the time since the start, in milliseconds -/
  now : Nat := 0
  /-- what was noted, the latest first -/
  notes : List Note := []
  /-- how often the event of a name was told -/
  heard : Fields Nat := []

namespace Rehearsal

/-- Sends a message, or notes that this is impossible. -/
def send (r : Rehearsal) (message : String × Json) : Rehearsal :=
  match Control.ofParts message.1 message.2 with
  | .ok m =>
    if r.run.isReachable then { r with run := r.run.send m }
    else { r with notes := .unsent message.1 :: r.notes }
  | .error _ => { r with notes := .unsent message.1 :: r.notes }

/-- Carries out a cue. -/
def perform (r : Rehearsal) (cue : Cue) : Rehearsal :=
  let r := if cue.cancels then { r with run := r.run.cancel } else r
  let r := cue.sends.foldl send r
  if cue.closes then { r with run := r.run.close } else r

/-- Carries out all cues of a moment, in order. -/
def performAll (cues : List Cue) (r : Rehearsal) (moment : Moment) : Rehearsal :=
  (cues.filter (·.moment = moment)).foldl perform r

/-- Notes an event and carries out what is due at it. -/
def hear (cues : List Cue) (r : Rehearsal) (event : Event) : Rehearsal :=
  let nth := (r.heard.find? event.name).getD 0 + 1
  performAll cues
    { r with notes := .told r.now event :: r.notes, heard := r.heard.put event.name nth }
    (.event event.name nth)

/-- The times at which cues are due. -/
def times (cues : List Cue) : List Nat :=
  cues.filterMap fun cue => match cue.moment with
    | .time t => some t
    | _ => none

/-- The earliest time from some point on. -/
def earliest (from_ : Nat) (times : List Nat) : Option Nat :=
  (times.filter (from_ ≤ ·)).min?

/-- Goes on for so many steps. Cues before the time `due` were carried out. -/
def play (around : Surroundings) (cues : List Cue) : Nat → Nat → Rehearsal → Rehearsal
  | 0, _, r => r
  | steps + 1, due, r =>
    match r.run.step around r.now with
    | some (told, run) =>
      let r := { r with run := run }
      play around cues steps due ((told.map (hear cues r)).getD r)
    | none =>
      if r.run.isOver then r
      else
        match earliest due (times cues), r.run.deadline? with
        | none, none => r
        | none, some t => play around cues steps due { r with now := t }
        | some c, none => play around cues steps (c + 1) (performAll cues { r with now := c } (.time c))
        | some c, some t =>
          if c ≤ t then play around cues steps (c + 1) (performAll cues { r with now := c } (.time c))
          else play around cues steps due { r with now := t }

/-- How many steps a rehearsal may take. -/
def maxSteps : Nat := 2 ^ 62

/-- Rehearses a run. -/
def rehearse (around : Surroundings) (cues : List Cue) (run : Interpreter) : Rehearsal :=
  play around cues maxSteps 0 (performAll cues { run := run } .start)

end Rehearsal

end Workflow
