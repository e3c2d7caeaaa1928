import Workflow.Proofs.Interpreter.Tour

/-!
# Stopping a run

A run is stopped by whoever tells it to, at any moment, or by a message that it takes up.
From then on it only winds up (`Halted`): it tells what is left to tell, enters the node
whose boundary it has reached already, if it has, runs no script, follows no edge and
waits for nobody, and ends with the last event of every run.

How far it still has to go is measured by `remaining`: each of its steps brings it nearer
to the end, and only a message that comes in late can hold it up, by one step each.
-/

namespace Workflow

namespace Interpreter

/-! ## Stopping -/

/-- Whether a stride stops the run: it is told to stop, or takes up a message that says
so. -/
def Stride.Stops (st : Stride) : Prop :=
  st.turn = .cancel ∨
    ∃ now r₁, st.turn = .step now ∧ st.before.take? = some (.stop, r₁) ∧
      st.after.inbox = r₁.inbox

/-- Whether a stride starts a script: it leads from before the script of a node to
behind it. -/
def Stride.StartsScript (st : Stride) : Prop :=
  ∃ node rest vars, st.before.phase = .entered node ∧ st.after.phase = .telling node rest vars

/-- Whether a turn sends a message. -/
def Turn.isSend : Turn → Bool
  | send _ => true
  | _ => false

/-- How many steps a run that was stopped has left, if nothing more is sent to it. -/
def remaining (r : Interpreter) : Nat :=
  match r.phase with
  | .reaching _ => r.waitingMessages + 3
  | .telling _ rest _ => rest.length + 3
  | .entered _ | .waiting _ | .lingering .. | .crossing .. => 2
  | .leaving _ => 1
  | .ended _ | .broken => 0

/-- No message makes up for a stop. -/
theorem apply_cancelled {r r' : Interpreter} {m : Control} {told : Option Event}
    (h : r.apply m = (told, r')) (hc : r.cancelled = true) : r'.cancelled = true := by
  cases m <;> cases h <;> first | exact hc | rfl

/-- A stride that stops a run leaves it stopped, and where it was. -/
theorem Stride.Stops.spec {around : Surroundings} {st : Stride} (h : st.Stops)
    (ht : st.before.take around st.turn = some (st.told, st.after)) :
    st.after.cancelled = true ∧ st.after.phase = st.before.phase := by
  obtain ⟨before, turn, told, after⟩ := st
  dsimp only [Stride.Stops] at h ht ⊢
  rcases h with hturn | ⟨now, r₁, hturn, hm, hinbox⟩
  · obtain rfl : turn = .cancel := hturn
    cases ht
    exact ⟨rfl, rfl⟩
  · obtain rfl : turn = .step now := hturn
    obtain ⟨rest, isOpen, hbox, rfl⟩ := take?_cases hm
    -- a step that takes up no message leaves the inbox alone
    have hkept : after.inbox ≠ before.inbox := by
      intro heq
      have hlen := congrArg (fun b : Option Inbox => (b.map (·.queue.length)).getD 0)
        (heq.symm.trans hinbox)
      rw [hbox] at hlen
      exact absurd hlen (by simp)
    cases step_cases ht with
    | heard _ _ ht' ha =>
      obtain ⟨rfl, rfl⟩ := Prod.mk.inj (Option.some.inj (hm.symm.trans ht'))
      cases ha
      exact ⟨rfl, rfl⟩
    | resumed _ _ ht' => cases hm.symm.trans ht'
    | _ => exact absurd rfl hkept

/-! ## Winding up -/

/-- **Halted**: what holds of a run that was stopped, after any further strides. -/
structure Halted (r₀ : Interpreter) (l : List Stride) (r : Interpreter) : Prop where
  /-- it stays stopped -/
  cancelled : r.cancelled = true
  /-- it does not break down -/
  unbroken : r.phase ≠ .broken
  /-- what is left to tell is of scripts -/
  sound : r.Sound
  /-- no script was started and no edge followed -/
  quiet : ∀ st ∈ l, ¬ st.StartsScript ∧ ∀ edge, st.told ≠ some (.edgeStart edge)
  /-- the node that was reached may be visited, and no other -/
  visits : (visited l = [] ∧ ∀ id, r.phase = .reaching id → r₀.phase = .reaching id) ∨
    ∃ id, visited l = [id] ∧ r₀.phase = .reaching id ∧ ∀ id', r.phase ≠ .reaching id'
  /-- each step has brought it nearer to its end -/
  bound : l.countP (·.turn.isStep) + r.remaining ≤
    r₀.remaining + l.countP (·.turn.isSend)

section Steps

variable {around : Surroundings} {r₀ r r' : Interpreter} {l : List Stride} {turn : Turn}
  {told : Option Event}

/-- A stride that visits no node. -/
theorem Halted.snoc (h : Halted r₀ l r) (hcancelled : r'.cancelled = true)
    (hunbroken : r'.phase ≠ .broken) (hsound : r'.Sound)
    (hscript : ∀ node rest vars, r.phase = .entered node → r'.phase ≠ .telling node rest vars)
    (hedge : ∀ edge, told ≠ some (.edgeStart edge)) (hvisit : ∀ node, told ≠ some (.nodeStart node))
    (hreach : ∀ id, r'.phase = .reaching id → r.phase = .reaching id)
    (hbound : turn.isStep.toNat + r'.remaining ≤ r.remaining + turn.isSend.toNat) :
    Halted r₀ (l ++ [⟨r, turn, told, r'⟩]) r' := by
  have hvisited : visited (l ++ [⟨r, turn, told, r'⟩]) = visited l := by
    rw [visited_snoc]
    cases told with
    | none => exact List.append_nil _
    | some event =>
      cases event with
      | nodeStart node => exact absurd rfl (hvisit node)
      | _ => exact List.append_nil _
  refine ⟨hcancelled, hunbroken, hsound, ?_, ?_, ?_⟩
  · intro st hst
    rcases List.mem_append.mp hst with hst | hst
    · exact h.quiet st hst
    · obtain rfl := List.mem_singleton.mp hst
      refine ⟨?_, hedge⟩
      rintro ⟨node, rest, vars, hp, hp'⟩
      exact hscript node rest vars hp hp'
  · rw [hvisited]
    rcases h.visits with ⟨hnone, hr⟩ | ⟨id, hone, hr₀, hr⟩
    · exact Or.inl ⟨hnone, fun id hp => hr id (hreach id hp)⟩
    · exact Or.inr ⟨id, hone, hr₀, fun id' hp => hr id' (hreach id' hp)⟩
  · have hb := h.bound
    rw [countP_snoc Turn.isStep, countP_snoc Turn.isSend]
    dsimp only
    omega

/-- The visit of the node that was reached. -/
theorem Halted.visit (h : Halted r₀ l r) {id : String} {node : Node}
    (hp : r.phase = .reaching id) (hnode : r.definition.node? id = some node)
    (hp' : r'.phase = .entered node) (hcancelled : r'.cancelled = r.cancelled)
    (hturn : turn.isStep = true) :
    Halted r₀ (l ++ [⟨r, turn, some (.nodeStart node.id), r'⟩]) r' := by
  obtain rfl := Definition.node?_id hnode
  have hvisited := visited_snoc l ⟨r, turn, some (.nodeStart node.id), r'⟩
  refine ⟨hcancelled.trans h.cancelled, ?_, ?_, ?_, ?_, ?_⟩
  · rw [hp']
    exact nofun
  · intro node' rest vars ht
    rw [hp'] at ht
    cases ht
  · intro st hst
    rcases List.mem_append.mp hst with hst | hst
    · exact h.quiet st hst
    · obtain rfl := List.mem_singleton.mp hst
      refine ⟨?_, nofun⟩
      rintro ⟨node', rest, vars, hbefore, -⟩
      exact nomatch hp.symm.trans hbefore
  · rcases h.visits with ⟨hnone, hr⟩ | ⟨id, -, -, hr⟩
    · refine Or.inr ⟨node.id, ?_, hr node.id hp, ?_⟩
      · rw [hvisited, hnone]
        rfl
      · rw [hp']
        exact nofun
    · exact absurd hp (hr node.id)
  · have hb := h.bound
    have hbefore : 3 ≤ r.remaining := by
      rw [remaining, hp]
      exact Nat.le_add_left 3 _
    have hafter : r'.remaining = 2 := by rw [remaining, hp']
    rw [countP_snoc Turn.isStep, countP_snoc Turn.isSend, hturn, hafter]
    rw [Bool.toNat_true]
    omega

/-- A step of a run that was stopped. -/
theorem Halted.step (hs : around.IsSandboxed) (h : Halted r₀ l r) {now : Nat}
    (hstep : Steps around now r told r') :
    Halted r₀ (l ++ [⟨r, .step now, told, r'⟩]) r' := by
  have hsound := h.sound.step hs hstep
  have hc := h.cancelled
  cases hstep with
  | aborted hheeds =>
    refine h.snoc hc nofun hsound nofun nofun nofun nofun ?_
    have hbefore : r.remaining = 2 := by
      unfold remaining
      split <;> first | rfl | (next hp => rw [hp] at hheeds; cases hheeds)
    rw [hbefore]
    exact Nat.le_refl 2
  | heard hears hnot ht ha =>
    obtain ⟨rest, isOpen, hbox, rfl⟩ := take?_cases ht
    obtain ⟨hp, -, -, hinbox, htold⟩ := apply_keeps ha
    -- only at the boundary of a node does a run that was stopped take up messages
    have hreaching : ∃ id, r.phase = .reaching id := by
      cases hp : r.phase with
      | reaching id => exact ⟨id, rfl⟩
      | waiting => exact nomatch hc.symm.trans (hnot (by rw [hp]; rfl))
      | lingering => exact nomatch hc.symm.trans (hnot (by rw [hp]; rfl))
      | crossing => exact nomatch hc.symm.trans (hnot (by rw [hp]; rfl))
      | _ =>
        rw [hp] at hears
        cases hears
    obtain ⟨id, hid⟩ := hreaching
    have hp' : r'.phase = .reaching id := hp.trans hid
    refine h.snoc ?_ ?_ hsound ?_ ?_ ?_ (fun _ heq => hp.symm.trans heq) ?_
    · exact apply_cancelled ha hc
    · rw [hp']
      exact nofun
    · intro node rest vars _
      rw [hp']
      exact nofun
    · rcases htold with rfl | ⟨vars, rfl⟩ <;> exact nofun
    · rcases htold with rfl | ⟨vars, rfl⟩ <;> exact nofun
    · have hbefore : r.remaining = rest.length + 1 + 3 := by
        rw [remaining, hid]
        dsimp only
        rw [waitingMessages, hbox]
        rfl
      have hafter : r'.remaining = rest.length + 3 := by
        rw [remaining, hp']
        dsimp only
        rw [waitingMessages, hinbox]
        rfl
      rw [hbefore, hafter]
      change 1 + _ ≤ _
      omega
  | resumed _ hnot => exact nomatch hc.symm.trans hnot
  | deserted _ hnot => exact nomatch hc.symm.trans hnot
  | halted hp =>
    refine h.snoc hc nofun hsound nofun nofun nofun nofun ?_
    rw [remaining, remaining, hp]
    change 1 + 1 ≤ r.waitingMessages + 3 + 0
    omega
  | entered hp _ hnode => exact h.visit hp hnode rfl rfl rfl
  | ran _ hnot => exact nomatch hc.symm.trans hnot
  | passed _ hnot => exact nomatch hc.symm.trans hnot
  | broke _ hnot => exact nomatch hc.symm.trans hnot
  | @told node event rest vars hp =>
    have hscript := h.sound _ _ _ hp event List.mem_cons_self
    refine h.snoc hc nofun hsound ?_ ?_ ?_ nofun ?_
    · intro node' rest' vars' hp'
      exact nomatch hp.symm.trans hp'
    · rintro edge heq
      obtain rfl := Option.some.inj heq
      cases hscript
    · rintro node' heq
      obtain rfl := Option.some.inj heq
      cases hscript
    · rw [remaining, remaining, hp]
      change 1 + (rest.length + 3) ≤ rest.length + 1 + 3
      omega
  | waits hp =>
    refine h.snoc hc nofun hsound ?_ nofun nofun nofun ?_
    · intro node' rest' vars' hp'
      exact nomatch hp.symm.trans hp'
    · rw [remaining, remaining, hp]
      exact Nat.le_refl 3
  | lingers hp =>
    refine h.snoc hc nofun hsound nofun nofun nofun nofun ?_
    rw [remaining, remaining, hp]
    exact Nat.le_refl 3
  | departed _ hnot => exact nomatch hc.symm.trans hnot
  | finished _ hnot => exact nomatch hc.symm.trans hnot
  | arrived _ hnot => exact nomatch hc.symm.trans hnot
  | ended hp =>
    refine h.snoc hc nofun hsound nofun nofun nofun nofun ?_
    rw [remaining, remaining, hp]
    exact Nat.le_refl 1

/-- Any stride of a run that was stopped. -/
theorem Halted.take (hs : around.IsSandboxed) (h : Halted r₀ l r)
    (ht : r.take around turn = some (told, r')) :
    Halted r₀ (l ++ [⟨r, turn, told, r'⟩]) r' := by
  cases turn with
  | step now => exact h.step hs (step_cases ht)
  | cancel =>
    cases ht
    refine h.snoc rfl h.unbroken h.sound ?_ nofun nofun (fun _ hp => hp) (Nat.le_of_eq ?_)
    · intro node rest vars hp hp'
      exact nomatch hp.symm.trans hp'
    · exact Nat.zero_add _
  | send m =>
    cases ht
    refine h.snoc h.cancelled h.unbroken h.sound ?_ nofun nofun (fun _ hp => hp) ?_
    · intro node rest vars hp hp'
      exact nomatch hp.symm.trans hp'
    · have hlonger : (r.send m).waitingMessages ≤ r.waitingMessages + 1 := by
        unfold waitingMessages send
        cases r.inbox with
        | none => exact Nat.zero_le _
        | some box => exact Nat.le_of_eq (List.length_append)
      have hphase : (r.send m).phase = r.phase := rfl
      change 0 + (r.send m).remaining ≤ r.remaining + 1
      unfold remaining
      rw [hphase]
      cases r.phase <;> dsimp only <;> omega
  | close =>
    cases ht
    refine h.snoc h.cancelled h.unbroken h.sound ?_ nofun nofun (fun _ hp => hp) ?_
    · intro node rest vars hp hp'
      exact nomatch hp.symm.trans hp'
    · have hsame : r.close.waitingMessages = r.waitingMessages := by
        unfold waitingMessages close
        cases r.inbox <;> rfl
      have hphase : r.close.phase = r.phase := rfl
      change 0 + r.close.remaining ≤ r.remaining + 0
      unfold remaining
      rw [hphase, hsame]
      cases r.phase <;> dsimp only <;> omega

end Steps

/-- What holds of a run that was stopped holds after any further strides. -/
theorem Walks.halted {around : Surroundings} (hs : around.IsSandboxed) {r₀ r : Interpreter}
    {l : List Stride} (h : Walks around r₀ l r) (hc : r₀.cancelled = true)
    (hunbroken : r₀.phase ≠ .broken) (hsound : r₀.Sound) : Halted r₀ l r := by
  induction h with
  | nil =>
    refine ⟨hc, hunbroken, hsound, ?_, Or.inl ⟨rfl, fun _ hp => hp⟩, ?_⟩
    · intro st hst
      cases hst
    · exact Nat.le_of_eq (Nat.add_comm _ _)
  | snoc _ ht ih => exact ih.take hs ht

/-- A run that was stopped never waits: until it is over, a step is possible at any
moment. -/
theorem step_of_cancelled (around : Surroundings) (now : Nat) {r : Interpreter}
    (hc : r.cancelled = true) (hover : r.isOver = false) : (r.step around now).isSome = true := by
  unfold step
  split
  · split <;> rfl
  · rw [hc]
    rfl
  · rfl
  · dsimp only
    split <;> rfl
  · rw [await, hc]
    rfl
  · rw [pause, hc]
    rfl
  · rw [pause, hc]
    rfl
  · rfl
  · next hp =>
    rw [isOver, hp] at hover
    cases hover
  · next hp =>
    rw [isOver, hp] at hover
    cases hover

/-- **A run that is stopped winds up.** From the stride on that stops it, whatever else
happens: no script is started and no edge followed; at most one node is visited, namely
the one whose boundary was reached; the run always has a step to go until it is over,
and it is over after as many steps as were `remaining`, and one more for each message
that is sent to it; and its last event is the end. -/
theorem Walks.winds_up {around : Surroundings} (hs : around.IsSandboxed) {d : Definition}
    {vars : Vars} {inbox : Option Inbox} {l l' : List Stride} {st : Stride} {r : Interpreter}
    (h : Walks around (start d vars inbox) (l ++ st :: l') r) (hst : st.Stops)
    (hb : st.before.phase ≠ .broken) :
    (∀ st' ∈ l', ¬ st'.StartsScript ∧ ∀ edge, st'.told ≠ some (.edgeStart edge)) ∧
      (visited l').length ≤ 1 ∧ (∀ id ∈ visited l', st.before.phase = .reaching id) ∧
      (l'.countP (·.turn.isStep) + r.remaining ≤
        st.after.remaining + l'.countP (·.turn.isSend)) ∧
      (r.isOver = false → ∀ now, (r.step around now).isSome = true) ∧
      (r.isOver = true → ∃ pre, events (l ++ st :: l') = pre ++ [.workflowComplete] ∧
        .workflowComplete ∉ pre) := by
  obtain ⟨r₁, hfront, hback⟩ := h.cut
  obtain ⟨rfl, ht, hrest⟩ := hback.uncons
  obtain ⟨hc, hp⟩ := hst.spec ht
  have hsound := (hfront.sound hs (sound_start d vars inbox)).take hs ht
  have hhalted := hrest.halted hs hc (hp ▸ hb) hsound
  refine ⟨hhalted.quiet, ?_, ?_, hhalted.bound, fun hover now => ?_, fun hover => ?_⟩
  · rcases hhalted.visits with ⟨hnone, -⟩ | ⟨id, hone, -, -⟩
    · rw [hnone]
      exact Nat.zero_le 1
    · rw [hone]
      exact Nat.le_refl 1
  · intro id hid
    rcases hhalted.visits with ⟨hnone, -⟩ | ⟨id', hone, hreached, -⟩
    · rw [hnone] at hid
      cases hid
    · rw [hone] at hid
      obtain rfl := List.mem_singleton.mp hid
      rw [← hp]
      exact hreached
  · exact step_of_cancelled around now hhalted.cancelled hover
  · refine (h.toured hs).ended ?_
    have hunbroken := hhalted.unbroken
    rw [isOver] at hover
    split at hover
    · next hphase =>
      rw [hphase]
      rfl
    · next hphase => exact absurd hphase hunbroken
    · cases hover

/-- A run that is stopped at the boundary of its first node: the node is visited, and
nothing comes of it. -/
theorem stopped_oneWay :
    ∃ st l' r, Walks quiet (start oneWay {} (some {})) ([] ++ st :: l') r ∧ st.Stops ∧
      st.before.phase = .reaching "a" ∧
      (∀ st' ∈ l', ¬ st'.StartsScript ∧ ∀ edge, st'.told ≠ some (.edgeStart edge)) ∧
      (visited l').length ≤ 1 ∧ (∀ id ∈ visited l', st.before.phase = .reaching id) ∧
      (l'.countP (·.turn.isStep) + r.remaining ≤
        st.after.remaining + l'.countP (·.turn.isSend)) ∧
      (r.isOver = false → ∀ now, (r.step quiet now).isSome = true) ∧
      (r.isOver = true → ∃ pre, events ([] ++ st :: l') = pre ++ [.workflowComplete] ∧
        .workflowComplete ∉ pre) := by
  have hsome : ((start oneWay {} (some {})).cancel.stroll quiet
      (List.replicate 3 (.step 0))).isSome = true := rfl
  obtain ⟨⟨l', r⟩, hstroll⟩ := Option.isSome_iff_exists.mp hsome
  have hfront : Walks quiet (start oneWay {} (some {}))
      [⟨start oneWay {} (some {}), .cancel, none, (start oneWay {} (some {})).cancel⟩]
      (start oneWay {} (some {})).cancel :=
    Walks.nil.snoc rfl
  have hw := hfront.trans (stroll_walks hstroll)
  have hstops : Stride.Stops
      ⟨start oneWay {} (some {}), .cancel, none, (start oneWay {} (some {})).cancel⟩ := Or.inl rfl
  exact ⟨_, l', r, hw, hstops, rfl, hw.winds_up (l := []) quiet_isSandboxed hstops nofun⟩

end Interpreter

end Workflow
