import Mathlib.Data.List.Chain
import Workflow.Interpreter

/-!
# What scripts tell

A script acts through the requests that its host serves, and through nothing else
(`Sandbox.executeAmid_keeps`). The host tells each change of the variables at once, so what a script
tells is an account of all that it does to them (`Sandbox.Told`): it is put together of log entries
of its node and of snapshots, each of which differs from the one before by one change.

This holds whatever the program is, however the network behaves, whichever random numbers come and
however the script ends: a fault comes between two requests, and what catches it is part of the
program.
-/

namespace Workflow

/-! ## Snapshots -/

/-- The variables that the last item of a row brings which brings any, else those at the
beginning. -/
def Vars.latest {α : Type} (brings? : α → Option Vars) (vars : Vars) (items : List α) : Vars :=
  ((items.filterMap brings?).getLast?).getD vars

section Latest

variable {α : Type} (brings? : α → Option Vars) (vars : Vars)

@[simp] theorem Vars.latest_nil : Vars.latest brings? vars [] = vars := rfl

theorem Vars.latest_append (items more : List α) :
    Vars.latest brings? vars (items ++ more) =
      Vars.latest brings? (Vars.latest brings? vars items) more := by
  unfold Vars.latest
  rw [List.filterMap_append, List.getLast?_append]
  cases (more.filterMap brings?).getLast? <;> rfl

/-- An item that brings variables settles them, and any other leaves them. -/
theorem Vars.latest_singleton (item : α) :
    Vars.latest brings? vars [item] = (brings? item).getD vars := by
  unfold Vars.latest
  cases h : brings? item <;> simp [h]

end Latest

/-- The variables that an event shows. -/
def Event.snapshot? : Event → Option Vars
  | varsUpdate vars => some vars
  | _ => none

/-- The variables after some events, as a watcher knows them: those shown last. -/
def Vars.replay (vars : Vars) (events : List Event) : Vars := vars.latest Event.snapshot? events

theorem Vars.replay_append (vars : Vars) (events more : List Event) :
    vars.replay (events ++ more) = (vars.replay events).replay more :=
  Vars.latest_append ..

/-! ## Accounts -/

/-- One change that a script can make to the variables. -/
inductive Vars.Changed (vars : Vars) : Vars → Prop where
  /-- a variable was set -/
  | set (key : String) (value : Json) : vars.Changed (vars.set key value)
  /-- a variable was removed -/
  | remove (key : String) : vars.Changed (vars.remove key)
  /-- the run was asked to wait -/
  | wait (reason : Option String) : vars.Changed (vars.setWaiting reason)

namespace Sandbox

/-- What the script of a node has told while it brought the variables from where they were to where
they are. -/
inductive Told (node : String) (start : Vars) : List Event → Vars → Prop where
  /-- nothing yet -/
  | nothing : Told node start [] start
  /-- a log entry, which leaves the variables alone -/
  | log {events : List Event} {vars : Vars} (h : Told node start events vars) (level : LogLevel)
      (values : List Json) : Told node start (events ++ [.nodeLog node level values]) vars
  /-- a change of the variables -/
  | change {events : List Event} {vars vars' : Vars} (h : Told node start events vars)
      (hvars : vars.Changed vars') : Told node start (events ++ [.varsUpdate vars']) vars'

namespace Told

variable {node : String} {start vars : Vars} {events : List Event}

/-- An account shows where the variables are. -/
theorem replay_eq (h : Told node start events vars) : start.replay events = vars := by
  induction h with
  | nothing => rfl
  | log h level values ih => rw [Vars.replay_append, ih]; rfl
  | change h hvars ih => rw [Vars.replay_append]; rfl

/-- The snapshots of an account differ by one change each. -/
theorem isChain (h : Told node start events vars) :
    List.IsChain Vars.Changed (start :: events.filterMap Event.snapshot?) := by
  induction h with
  | nothing => exact List.isChain_singleton _
  | log h level values ih =>
    rw [List.filterMap_append]
    exact (List.append_nil (List.filterMap Event.snapshot? _)).symm ▸ ih
  | @change events vars vars' h hvars ih =>
    have hlast : (start :: events.filterMap Event.snapshot?).getLast? = some vars := by
      rw [List.getLast?_cons]
      exact congrArg some h.replay_eq
    rw [List.filterMap_append, ← List.cons_append]
    refine ih.append (List.isChain_singleton vars') fun last hmem first hfirst => ?_
    rw [hlast] at hmem
    cases hmem
    cases hfirst
    exact hvars

/-- All else in an account are log entries of the node. -/
theorem log_or_snapshot (h : Told node start events vars) : ∀ event ∈ events,
    (∃ level values, event = .nodeLog node level values) ∨ ∃ vars, event = .varsUpdate vars := by
  induction h with
  | nothing => exact List.forall_mem_nil _
  | log h level values ih =>
    exact List.forall_mem_append.mpr ⟨ih, List.forall_mem_singleton.mpr (Or.inl ⟨_, _, rfl⟩)⟩
  | change h hvars ih =>
    exact List.forall_mem_append.mpr ⟨ih, List.forall_mem_singleton.mpr (Or.inr ⟨_, rfl⟩)⟩

end Told

/-- What was told so far is an account of where the variables are. -/
def IsTold (node : String) (start : Vars) (s : State) : Prop :=
  Told node start s.told.reverse s.vars

/-- Serving a request carries the account on. -/
theorem isTold_serve {traffic : Traffic} {node : String} {start : Vars} (s : State)
    (r : Script.Request) (h : IsTold node start s) :
    IsTold node start (serve traffic node s r).2 := by
  have hwrite : ∀ f : Vars → Vars, s.vars.Changed (f s.vars) → IsTold node start (s.write f) := by
    intro f hf
    rw [IsTold, State.write, List.reverse_cons]
    exact Told.change h hf
  cases r with
  | getVar => exact h
  | allVars => exact h
  | send => exact h
  | setVar key value => exact hwrite _ (.set key value)
  | deleteVar key => exact hwrite _ (.remove key)
  | wait reason => exact hwrite _ (.wait reason)
  | log level values =>
    rw [IsTold, serve, List.reverse_cons]
    exact Told.log h level values

section Keeps

variable {traffic : Traffic} {node : String} {P : State → Prop}

/-- What serving any request keeps, driving a machine keeps. -/
theorem drive_keeps (hserve : ∀ s r, P s → P (serve traffic node s r).2) (steps : Nat)
    (m : Script.Machine) {s : State} (h : P s) : P (drive traffic node steps m s).2.2 := by
  induction steps generalizing m s with
  | zero => exact h
  | succ steps ih =>
    unfold drive
    split
    · exact ih _ h
    -- the machine asks for something, and goes on with the answer
    · next r k _ => exact ih _ (hserve s r h)
    · exact h
    · exact h

/-- A program may have a say in the text of a fault, and keeps the same. -/
theorem faultText_keeps (hserve : ∀ s r, P s → P (serve traffic node s r).2) (attempts : Nat)
    (v : Script.Value) (h : Script.Heap) {s : State} (hs : P s) :
    P (faultText traffic node attempts v h s).2 := by
  induction attempts generalizing v h s with
  | zero => exact hs
  | succ attempts ih =>
    unfold faultText
    split
    · exact hs
    · dsimp only
      have hdrive := drive_keeps hserve maxSteps
        { mode := .call (.builtin .tostring) [v], heap := h } hs
      split
      · next heq =>
        rw [heq] at hdrive
        exact hdrive
      · next heq =>
        rw [heq] at hdrive
        exact ih _ _ hdrive
      · next heq =>
        rw [heq] at hdrive
        exact hdrive

/-- **Scripts act by requests**: a script leaves a state behind that has all that serving
requests keeps. -/
theorem executeAmid_keeps (hserve : ∀ s r, P s → P (serve traffic node s r).2)
    (random : Script.RandomState) (memoryLimit : Nat) (script : String) {vars : Vars}
    (h : P { vars := vars }) :
    ∃ s error, P s ∧ executeAmid traffic random memoryLimit node script vars = s.outcome error := by
  unfold executeAmid
  dsimp only
  split
  · exact ⟨_, _, h, rfl⟩
  · split
    · exact ⟨_, _, h, rfl⟩
    · next main heap _ =>
      have hdrive := drive_keeps hserve maxSteps { mode := .call main [], heap := heap } h
      split
      · next heq =>
        rw [heq] at hdrive
        exact ⟨_, _, hdrive, rfl⟩
      · next heq =>
        rw [heq] at hdrive
        exact ⟨_, _, hdrive, rfl⟩
      · next r h' s' heq =>
        rw [heq] at hdrive
        split
        · exact ⟨_, _, hdrive, rfl⟩
        · exact ⟨_, _, faultText_keeps hserve 190 r.value h' hdrive, rfl⟩

end Keeps

/-- **Scripts give an account** of all that they do to the variables. -/
theorem told_executeAmid (traffic : Traffic) (random : Script.RandomState) (memoryLimit : Nat)
    (node script : String) (vars : Vars) :
    Told node vars (executeAmid traffic random memoryLimit node script vars).told
      (executeAmid traffic random memoryLimit node script vars).vars := by
  have hstart : IsTold node vars { vars } := .nothing
  obtain ⟨s, error, hs, heq⟩ := executeAmid_keeps isTold_serve random memoryLimit script hstart
  rw [heq]
  exact hs

/-- **Every write is told, and nothing else moves the variables**: what a script leaves behind is
what it told last, each snapshot is the one before with one change, and all else that it tells are
log entries of its node. -/
theorem executeAmid_tells_writes (traffic : Traffic) (random : Script.RandomState)
    (memoryLimit : Nat) (node script : String) (vars : Vars) :
    let outcome := executeAmid traffic random memoryLimit node script vars
    outcome.vars = ((outcome.told.filterMap Event.snapshot?).getLast?).getD vars ∧
      List.IsChain Vars.Changed (vars :: outcome.told.filterMap Event.snapshot?) ∧
      ∀ event ∈ outcome.told, (∃ vars, event = .varsUpdate vars) ∨
        ∃ level values, event = .nodeLog node level values := by
  have h := told_executeAmid traffic random memoryLimit node script vars
  exact ⟨h.replay_eq.symm, h.isChain, fun event hmem => (h.log_or_snapshot event hmem).symm⟩

end Sandbox

/-- Whether an event is told about the script of a node. -/
def Event.isOfScript (node : String) : Event → Bool
  | nodeLog n .. => n = node
  | nodeError n _ => n = node
  | varsUpdate _ => true
  | _ => false

/-! ## Surroundings -/

/-- Surroundings in which scripts run in the sandbox, with any room, and on each occasion with any
network and any random numbers. -/
def Surroundings.IsSandboxed (around : Surroundings) : Prop :=
  ∃ (traffic : Occasion → Traffic) (random : Occasion → Script.RandomState) (memoryLimit : Nat),
    around.execute = fun occasion =>
      Sandbox.executeAmid (traffic occasion) (random occasion) memoryLimit

namespace Surroundings.IsSandboxed

variable {around : Surroundings}

/-- **What scripts tell** is an account of all that they do to the variables. -/
theorem account (h : around.IsSandboxed) (occasion : Occasion) (node script : String)
    (vars : Vars) :
    Sandbox.Told node vars (around.execute occasion node script vars).told
      (around.execute occasion node script vars).vars := by
  obtain ⟨traffic, random, memoryLimit, heq⟩ := h
  rw [heq]
  exact Sandbox.told_executeAmid ..

theorem told (h : around.IsSandboxed) (occasion : Occasion) (node script : String) (vars : Vars) :
    ∀ event ∈ (around.execute occasion node script vars).told,
      event.isOfScript node = true := by
  intro event hmem
  rcases (h.account occasion node script vars).log_or_snapshot event hmem with
    ⟨level, values, rfl⟩ | ⟨vars, rfl⟩
  · exact decide_eq_true rfl
  · rfl

theorem vars (h : around.IsSandboxed) (occasion : Occasion) (node script : String) (vars : Vars) :
    vars.replay (around.execute occasion node script vars).told =
      (around.execute occasion node script vars).vars :=
  (h.account occasion node script vars).replay_eq

/-- One run among several is as well off as all of them. -/
theorem forRun (h : around.IsSandboxed) (run : String) : (around.forRun run).IsSandboxed := by
  obtain ⟨traffic, random, memoryLimit, heq⟩ := h
  refine ⟨fun occasion => traffic { occasion with run }, fun occasion => random { occasion with run },
    memoryLimit, ?_⟩
  rw [Surroundings.forRun, heq]

end Surroundings.IsSandboxed

end Workflow
