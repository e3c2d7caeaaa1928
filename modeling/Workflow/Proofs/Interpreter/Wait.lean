import Workflow.Proofs.Interpreter.Halt
import Workflow.Proofs.Interpreter.Inbox

/-!
# Waiting to be resumed

A visit that leaves the wait flag set makes the run wait. While it does, each of its steps
takes up a message and does what it says, and nothing else happens (`Held`): the messages
that were taken up are a part of the sequence that is in the inbox or still to come, and
variables and definition are those of the beginning with these messages folded in. Whether
they set or drop the wait flag makes no difference.

What ends the wait is the first message of the sequence that `releases` the node. If it says
to resume, the run goes on to the pause after the node with what it holds at that moment, and
the messages behind it stay where they are. If it says to stop, the run has two more steps to
go (`Quits`).
-/

namespace Workflow

/-- Whether a message ends the wait at a node. -/
def Control.releases (node : String) : Control → Bool
  | stop => true
  | resume id => id = node
  | _ => false

/-- The first item of a kind in a row, and what is around it, are determined. -/
theorem first_eq {α : Type} {p : α → Bool} {front front' rest rest' : List α} {a a' : α}
    (h : front ++ a :: rest = front' ++ a' :: rest') (hfront : ∀ x ∈ front, p x = false)
    (hfront' : ∀ x ∈ front', p x = false) (ha : p a = true) (ha' : p a' = true) :
    front = front' ∧ a = a' ∧ rest = rest' := by
  have htake : ∀ (l l' : List α) (x : α), (∀ y ∈ l, p y = false) → p x = true →
      (l ++ x :: l').takeWhile (fun y => !p y) = l := by
    intro l l' x hl hx
    have hnot : ∀ y ∈ l, (!p y) = true := fun y hy => by rw [hl y hy]; rfl
    rw [List.takeWhile_append_of_pos hnot, List.takeWhile_cons_of_neg (by rw [hx]; exact nofun),
      List.append_nil]
  obtain rfl : front = front' := by
    rw [← htake front rest a hfront ha, h, htake front' rest' a' hfront' ha']
  exact ⟨rfl, List.cons_eq_cons.mp (List.append_cancel_left h)⟩

namespace Interpreter

/-! ## Left alone -/

/-- Whether a turn does something to the run from outside that is not to send a message. -/
def Turn.meddles : Turn → Bool
  | cancel | close => true
  | _ => false

section Undisturbed

variable {around : Surroundings} {r₀ r : Interpreter} {l : List Stride}

/-- Messages can be sent to a run until somebody closes its inbox. -/
theorem Walks.isReachable (h : Walks around r₀ l r) (hopen : r₀.isReachable = true)
    (hl : ∀ st ∈ l, st.turn.meddles = false) : r.isReachable = true := by
  induction h with
  | nil => exact hopen
  | @snoc l r r' turn told _ ht ih =>
    obtain ⟨hinit, hlast⟩ := List.forall_mem_append.mp hl
    have hr := ih hinit
    cases turn with
    | step now =>
      rcases step_obeys (step_cases ht) with ⟨m, hm⟩ | ⟨hbox, -⟩
      · obtain ⟨⟨rest, isOpen, hbefore, hafter⟩, -⟩ := hm.spec
        rw [Interpreter.isReachable, hbefore] at hr
        rw [Interpreter.isReachable, hafter]
        exact hr
      · rw [Interpreter.isReachable, hbox]
        exact hr
    | cancel => cases hlast _ List.mem_cons_self
    | send m =>
      cases ht
      rw [Interpreter.isReachable, Interpreter.send, Option.map_map]
      exact hr
    | close => cases hlast _ List.mem_cons_self

/-- A run that nobody cancels runs no script when it was told to stop: a message that says so
is taken up elsewhere, and heeded before. -/
theorem Walks.uncancelled (h : Walks around r₀ l r)
    (h₀ : r₀.phase.script? = none) (hl : ∀ st ∈ l, st.turn.meddles = false) {node : Node}
    {rest : List Event} {left : Vars} (hp : r.phase = .telling node rest left) :
    r.cancelled = false := by
  induction h generalizing node rest left with
  | nil =>
    rw [hp] at h₀
    cases h₀
  | @snoc l r r' turn told _ ht ih =>
    obtain ⟨hinit, hlast⟩ := List.forall_mem_append.mp hl
    have hr := @ih hinit
    cases turn with
    | step now =>
      cases step_cases ht with
      | heard hears _ ht' ha =>
        obtain ⟨_, _, -, rfl⟩ := take?_cases ht'
        rw [(apply_keeps ha).1] at hp
        rw [hp] at hears
        cases hears
      | ran _ hnot => exact hnot
      | passed _ hnot => exact hnot
      | told hp' => exact hr hp'
      | _ => cases hp
    | cancel => cases hlast _ List.mem_cons_self
    | send m =>
      cases ht
      exact hr hp
    | close => cases hlast _ List.mem_cons_self

end Undisturbed

/-! ## While a run waits -/

/-- **Held**: a run that still waits at a node, after some strides from where it began to. -/
structure Held (node : Node) (r₁ : Interpreter) (l : List Stride) (r : Interpreter) : Prop where
  /-- it waits there -/
  phase : r.phase = .waiting node
  /-- it was not told to stop -/
  cancelled : r.cancelled = false
  /-- no message that was taken up ends the wait -/
  unreleased : ∀ m ∈ taken l, m.releases node.id = false
  /-- the variables are those of the last message that brought any -/
  vars : r.vars = Vars.latest Control.vars? r₁.vars (taken l)
  /-- the definition is the one at the beginning with all updates -/
  definition : r.definition = (taken l).foldl Definition.edit r₁.definition
  /-- no node was visited and no edge followed -/
  quiet : landmarks l = []
  /-- each step has taken up a message -/
  steps : l.countP (·.turn.isStep) = (taken l).length

/-- No message but one tells a run to stop. -/
theorem apply_uncancelled {r r' : Interpreter} {m : Control} {told : Option Event}
    (h : r.apply m = (told, r')) (hstop : m ≠ .stop) : r'.cancelled = r.cancelled := by
  cases m with
  | stop => exact absurd rfl hstop
  | _ =>
    cases h
    rfl

section Waiting

variable {around : Surroundings} {node : Node} {r₁ r : Interpreter} {l : List Stride}

/-- A step of a run that waits: it notices that it was told to stop, it obeys a message, or
it notices that nobody can send it one. -/
theorem step_of_waiting {now : Nat} {r' : Interpreter} {told : Option Event}
    (hp : r.phase = .waiting node) (h : r.step around now = some (told, r')) :
    (r.cancelled = true ∧ told = none ∧ r' = { r with phase := .leaving .aborted }) ∨
      (r.cancelled = false ∧
        ((∃ m, Stride.Obeys ⟨r, .step now, told, r'⟩ m) ∨ r.isDeserted = true)) := by
  have hhere : ∀ {m : Control}, m ≠ .resume node.id →
      ∀ node', r.phase = .waiting node' → m ≠ .resume node'.id := by
    intro m hm node' hp'
    obtain rfl := Phase.waiting.inj (hp.symm.trans hp')
    exact hm
  rw [step, hp] at h
  dsimp only at h
  unfold await at h
  split at h
  · next hc =>
    cases h
    exact Or.inl ⟨hc, rfl, rfl⟩
  · next hc =>
    refine Or.inr ⟨Bool.eq_false_iff.mpr hc, ?_⟩
    split at h
    · next id r₁ ht =>
      split at h
      · next hid =>
        subst hid
        cases h
        exact Or.inl ⟨_, .resumed ht hp rfl rfl rfl⟩
      · next hid =>
        have hother : Control.resume id ≠ .resume node.id := fun heq => hid (Control.resume.inj heq)
        exact Or.inl ⟨_, .applied ht (hhere hother) (Option.some.inj h)⟩
    · next m r₁ hother ht =>
      have hne : m ≠ .resume node.id := fun heq => hother _ heq
      exact Or.inl ⟨_, .applied ht (hhere hne) (Option.some.inj h)⟩
    · split at h
      · next hd => exact Or.inr hd
      · cases h

/-- A message to resume from elsewhere changes nothing but the inbox. -/
theorem Stride.Obeys.elsewhere {st : Stride} {id : String} (h : st.Obeys (.resume id))
    (hp : st.before.phase = .waiting node) (hid : id ≠ node.id) :
    st.told = none ∧ st.after = { st.before with inbox := st.after.inbox } := by
  cases h with
  | @applied r ht _ ha =>
    obtain ⟨rest, isOpen, -, rfl⟩ := take?_cases ht
    have htold : none = st.told := congrArg Prod.fst ha
    have hafter : _ = st.after := congrArg Prod.snd ha
    rw [← htold, ← hafter]
    exact ⟨rfl, rfl⟩
  | resumed _ hp' heq =>
    obtain rfl := Phase.waiting.inj (hp.symm.trans hp')
    exact absurd (Control.resume.inj heq) hid

/-- A message that does not end the wait leaves the run held. -/
theorem Held.obey {st : Stride} {m : Control} {now : Nat} (h : Held node r₁ l st.before)
    (hturn : st.turn = .step now) (hm : st.Obeys m) (hrelease : m.releases node.id = false) :
    Held node r₁ (l ++ [st]) st.after := by
  have htaken : taken (l ++ [st]) = taken l ++ [m] := by
    rw [taken_snoc, hm.taken?_eq hturn]
    rfl
  have hdefinition := hm.spec.2
  cases hm with
  | applied ht _ ha =>
    obtain ⟨rest, isOpen, -, rfl⟩ := take?_cases ht
    obtain ⟨hp, -, -, -, htold⟩ := apply_keeps ha
    refine ⟨hp.trans h.phase, ?_, ?_, ?_, ?_, ?_, ?_⟩
    · have hstop : m ≠ .stop := fun heq => nomatch (heq ▸ hrelease : Control.stop.releases _ = false)
      exact (apply_uncancelled ha hstop).trans h.cancelled
    · rw [htaken]
      exact List.forall_mem_append.mpr ⟨h.unreleased, List.forall_mem_singleton.mpr hrelease⟩
    · have hvars := apply_vars ha
      rw [htaken, Vars.latest_append, ← h.vars, Vars.latest_singleton]
      exact hvars
    · rw [htaken, List.foldl_append, ← h.definition]
      exact hdefinition
    · have hnot : st.isLandmark = false := by
        unfold Stride.isLandmark
        rcases htold with htold | ⟨vars, htold⟩ <;> rw [htold]
      rw [landmarks_snoc, h.quiet, hnot]
      rfl
    · rw [countP_snoc Turn.isStep, htaken, List.length_append, h.steps, hturn]
      rfl
  | resumed _ hp heq =>
    obtain rfl := Phase.waiting.inj (h.phase.symm.trans hp)
    rw [heq, Control.releases, decide_eq_true rfl] at hrelease
    cases hrelease

/-- **A stride of a run that waits**: it is held further, or the stride takes up the message
that ends the wait. -/
theorem Held.take {st : Stride} (h : Held node r₁ l st.before)
    (hopen : st.before.isReachable = true) (hturn : st.turn.meddles = false)
    (ht : st.before.take around st.turn = some (st.told, st.after)) :
    Held node r₁ (l ++ [st]) st.after ∨
      ∃ m, st.taken? = some m ∧ m.releases node.id = true := by
  obtain ⟨before, turn, told, after⟩ := st
  dsimp only at h hopen hturn ht ⊢
  cases turn with
  | step now =>
    rcases step_of_waiting h.phase ht with ⟨hc, -⟩ | ⟨-, ⟨m, hm⟩ | hdeserted⟩
    · exact nomatch h.cancelled.symm.trans hc
    · cases hrelease : m.releases node.id with
      | true => exact Or.inr ⟨m, hm.taken?_eq rfl, hrelease⟩
      | false => exact Or.inl (h.obey rfl hm hrelease)
    · unfold isDeserted at hdeserted
      split at hdeserted
      · next hbox =>
        rw [Interpreter.isReachable, hbox] at hopen
        cases hopen
      · cases hdeserted
  | cancel => cases hturn
  | close => cases hturn
  | send m =>
    cases ht
    have htaken : taken (l ++ [⟨before, .send m, none, before.send m⟩]) = taken l :=
      (taken_snoc l _).trans (List.append_nil _)
    refine Or.inl ⟨h.phase, h.cancelled, ?_, ?_, ?_, ?_, ?_⟩
    · rw [htaken]
      exact h.unreleased
    · rw [htaken]
      exact h.vars
    · rw [htaken]
      exact h.definition
    · exact (landmarks_snoc l _).trans ((List.append_nil _).trans h.quiet)
    · rw [countP_snoc Turn.isStep, htaken]
      exact h.steps

/-- A run that has begun to wait waits still, or has taken up the message that ended the
wait. -/
theorem Walks.held_or_released (h : Walks around r₁ l r) (h₁ : Held node r₁ [] r₁)
    (hopen : r₁.isReachable = true) (hl : ∀ st ∈ l, st.turn.meddles = false) :
    Held node r₁ l r ∨
      ∃ front st rest m, l = front ++ st :: rest ∧ Held node r₁ front st.before ∧
        st.taken? = some m ∧ m.releases node.id = true := by
  induction h with
  | nil => exact Or.inl h₁
  | @snoc l r r' turn told hw ht ih =>
    obtain ⟨hinit, hlast⟩ := List.forall_mem_append.mp hl
    rcases ih hinit with hheld | ⟨front, st, rest, m, rfl, hheld, hm⟩
    · have hturn : turn.meddles = false := hlast _ List.mem_cons_self
      have hnext : Held node r₁ (l ++ [⟨r, turn, told, r'⟩]) r' ∨
          ∃ m, Stride.taken? ⟨r, turn, told, r'⟩ = some m ∧ m.releases node.id = true :=
        Held.take hheld (hw.isReachable hopen hinit) hturn ht
      exact hnext.imp id fun ⟨m, hm⟩ => ⟨l, _, [], m, rfl, hheld, hm⟩
    · exact Or.inr ⟨front, st, rest ++ [_], m, List.append_assoc .., hheld, hm⟩

/-- While there are messages a run that waits has a step to go. -/
theorem Held.step_isSome (h : Held node r₁ l r) (hqueue : r.queue ≠ []) (now : Nat) :
    (r.step around now).isSome = true := by
  have htake : ∃ taken, r.take? = some taken := by
    unfold take?
    split
    · exact ⟨_, rfl⟩
    · next hno =>
      refine absurd ?_ hqueue
      unfold queue
      cases hbox : r.inbox with
      | none => rfl
      | some box =>
        obtain ⟨queue, isOpen⟩ := box
        cases queue with
        | nil => rfl
        | cons m rest => exact absurd hbox (hno m rest isOpen)
  obtain ⟨⟨m, r'⟩, htake⟩ := htake
  rw [step, h.phase]
  dsimp only
  rw [await, h.cancelled, htake, if_neg Bool.false_ne_true]
  cases m with
  | resume id =>
    dsimp only
    split <;> rfl
  | _ => rfl

/-- As long as the message that will end the wait is not taken up, there are no more steps than
messages before it, and it is in the inbox or still to come. -/
theorem Held.before_release {before later : List Control} {m : Control} (h : Held node r₁ l r)
    (hm : m.releases node.id = true) (hall : taken l ++ r.queue = before ++ m :: later) :
    l.countP (·.turn.isStep) ≤ before.length ∧ r.queue ≠ [] := by
  rw [h.steps]
  rcases List.append_eq_append_iff.mp hall with ⟨left, hbefore, hqueue⟩ | ⟨left, htaken, hlater⟩
  · rw [hbefore, hqueue, List.length_append]
    exact ⟨Nat.le_add_right .., by simp⟩
  · cases left with
    | nil =>
      rw [htaken, List.append_nil, ← show m :: later = r.queue from hlater]
      exact ⟨Nat.le_refl _, nofun⟩
    | cons m' left =>
      obtain ⟨rfl, -⟩ := List.cons_eq_cons.mp hlater
      have hnot := h.unreleased m (htaken ▸ List.mem_append_right _ List.mem_cons_self)
      cases hm.symm.trans hnot

/-- What ends the wait is the first message that does, and those behind it are not touched. -/
theorem Held.first_release {st : Stride} {rest : List Stride} {before later : List Control}
    {m m' : Control} (h : Held node r₁ l st.before) (hw : Walks around r₁ (l ++ st :: rest) r)
    (hbox : r₁.inbox.isSome = true) (hm : st.taken? = some m) (hrelease : m.releases node.id = true)
    (hall : r₁.queue ++ delivered (l ++ st :: rest) = before ++ m' :: later)
    (hbefore : ∀ m ∈ before, m.releases node.id = false) (hm' : m'.releases node.id = true) :
    taken l = before ∧ m = m' ∧ st.after.queue ++ delivered rest = later := by
  obtain ⟨hfront, ht, -⟩ := hw.split
  have hqueue : r₁.queue ++ delivered (l ++ [st]) = taken (l ++ [st]) ++ st.after.queue :=
    ((hfront.snoc ht).queue_eq hbox).1
  have heq : taken l ++ m :: (st.after.queue ++ delivered rest) = before ++ m' :: later := by
    rw [← hall, List.append_cons l st rest, delivered_append, ← List.append_assoc, hqueue,
      taken_snoc, hm, List.append_assoc, List.append_assoc]
    rfl
  exact first_eq (p := Control.releases node.id) heq h.unreleased hbefore hrelease hm'

/-- The message to resume takes up the run as it is, without the wish to wait. -/
theorem Held.resumed {st : Stride} (h : Held node r₁ l st.before)
    (hm : st.Obeys (.resume node.id)) :
    st.told = some (.varsUpdate st.after.vars) ∧
      ∃ deadline, st.after = { st.before with
        inbox := st.after.inbox
        vars := (Vars.latest Control.vars? r₁.vars (taken l)).clearWait
        phase := .lingering node deadline } := by
  cases hm with
  | applied _ hother => exact absurd rfl (hother node h.phase)
  | resumed ht hp _ htold hafter =>
    obtain ⟨rest, isOpen, -, rfl⟩ := take?_cases ht
    obtain rfl := Phase.waiting.inj (h.phase.symm.trans hp)
    rw [htold, hafter, ← h.vars]
    exact ⟨rfl, _, rfl⟩

/-- The message to stop leaves the run where it is. -/
theorem Held.stopped {st : Stride} (h : Held node r₁ l st.before) (hm : st.Obeys .stop) :
    st.after.phase = .waiting node ∧ st.after.cancelled = true := by
  cases hm with
  | applied ht _ ha =>
    obtain ⟨rest, isOpen, -, rfl⟩ := take?_cases ht
    have hafter : cancel _ = st.after := congrArg Prod.snd ha
    rw [← hafter]
    exact ⟨h.phase, rfl⟩
  | resumed _ _ heq => cases heq

/-- **Quitting**: where a run stands that was stopped while it waited, after some steps. -/
inductive Quits (node : Node) : Nat → Phase → Prop
  /-- it waits still -/
  | waiting : Quits node 0 (.waiting node)
  /-- it has noticed -/
  | leaving : Quits node 1 (.leaving .aborted)
  /-- it is over -/
  | ended : Quits node 2 (.ended .aborted)

theorem Quits.spec {count : Nat} (h : Quits node count r.phase) :
    count ≤ 2 ∧ (r.isOver = true ↔ count = 2) ∧
      (r.isOver = true → ∃ report, r.report? = some report ∧ report.ending = .aborted) := by
  generalize hp : r.phase = phase at h
  unfold isOver report?
  rw [hp]
  cases h with
  | waiting => exact ⟨by decide, ⟨nofun, nofun⟩, nofun⟩
  | leaving => exact ⟨by decide, ⟨nofun, nofun⟩, nofun⟩
  | ended => exact ⟨by decide, ⟨fun _ => rfl, fun _ => rfl⟩, fun _ => ⟨_, rfl, rfl⟩⟩

/-- A run that is stopped while it waits goes straight to its end. -/
theorem Walks.quits (h : Walks around r₁ l r) (hp : r₁.phase = .waiting node)
    (hc : r₁.cancelled = true) :
    Quits node (l.countP (·.turn.isStep)) r.phase ∧ r.cancelled = true ∧ landmarks l = [] := by
  induction h with
  | nil =>
    rw [hp]
    exact ⟨.waiting, hc, rfl⟩
  | @snoc l r r' turn told _ ht ih =>
    obtain ⟨hquits, hr, hquiet⟩ := ih
    rw [countP_snoc Turn.isStep, landmarks_snoc, hquiet]
    cases turn with
    | step now =>
      generalize hphase : r.phase = phase at hquits
      generalize hcount : l.countP (·.turn.isStep) = count at hquits
      cases hquits with
      | waiting =>
        rcases step_of_waiting hphase ht with ⟨-, rfl, rfl⟩ | ⟨hnot, -⟩
        · exact ⟨.leaving, hr, rfl⟩
        · cases hr.symm.trans hnot
      | leaving =>
        change r.step around now = _ at ht
        rw [step, hphase] at ht
        cases ht
        exact ⟨.ended, hr, rfl⟩
      | ended =>
        change r.step around now = _ at ht
        rw [step, hphase] at ht
        cases ht
    | cancel =>
      cases ht
      exact ⟨hquits, rfl, rfl⟩
    | send m =>
      cases ht
      exact ⟨hquits, hr, rfl⟩
    | close =>
      cases ht
      exact ⟨hquits, hr, rfl⟩

end Waiting

/-- Where a wait begins: the run waits from the start on, and can be reached. -/
theorem Walks.begins_to_wait {around : Surroundings} {d : Definition} {vars left : Vars} {box : Inbox}
    {l : List Stride} {st : Stride} {node : Node} {now : Nat}
    (h : Walks around (start d vars (some box)) l st.before) (hopen : box.isOpen = true)
    (hl : ∀ st ∈ l, st.turn.meddles = false) (hturn : st.turn = .step now)
    (ht : st.before.take around st.turn = some (st.told, st.after))
    (hp : st.before.phase = .telling node [] left) (hwaits : left.isWaiting = true) :
    st.told = some (.nodeWait node.id left.waitReason?) ∧
      st.after = { st.before with vars := left, phase := .waiting node } ∧
      Held node st.after [] st.after ∧ st.after.isReachable = true ∧
      st.after.inbox.isSome = true := by
  have hnot : st.before.cancelled = false :=
    h.uncancelled (start_phase d vars (some box)).1 hl hp
  have hreach : st.before.isReachable = true := h.isReachable hopen hl
  have hbox : st.before.inbox.isSome = true := (h.queue_eq rfl).2
  rw [hturn] at ht
  rcases step_of_told hp ht with ⟨-, htold, hafter⟩ | ⟨hnever, -⟩
  · refine ⟨htold, hafter, ?_⟩
    rw [hafter]
    exact ⟨⟨rfl, hnot, nofun, rfl, rfl, rfl, rfl⟩, hreach, hbox⟩
  · cases hwaits.symm.trans hnever

/-- **A run waits for the first message that releases it.** A visit that leaves the wait flag
set makes the run wait; somebody may send it messages, but does not cancel it otherwise. While
the messages that are in the inbox or come in later do not end the wait, the run is held, and a
message to resume from another node changes nothing but the inbox. If they do, then as long as
the first that does is not taken up the run is held and has a step to go, of which there are no
more than there are messages before; and when it is taken up, these were taken up before, and
those behind it are still to come. To resume, the run goes on from what it holds, without the
wish to wait. To stop, it ends in two steps, aborted, and visits no node and follows no edge. -/
theorem Walks.waits_for_release {around : Surroundings} {d : Definition} {vars left : Vars}
    {box : Inbox} {l₀ l : List Stride} {st₀ : Stride} {r : Interpreter} {node : Node} {now : Nat}
    (h : Walks around (start d vars (some box)) (l₀ ++ st₀ :: l) r) (hopen : box.isOpen = true)
    (houtside : ∀ st ∈ l₀ ++ st₀ :: l, st.turn.meddles = false)
    (hturn : st₀.turn = .step now) (hp : st₀.before.phase = .telling node [] left)
    (hwaits : left.isWaiting = true) :
    st₀.told = some (.nodeWait node.id left.waitReason?) ∧
      st₀.after = { st₀.before with vars := left, phase := .waiting node } ∧
      (∀ st ∈ l, ∀ id, st.before.phase = .waiting node → st.taken? = some (.resume id) →
        id ≠ node.id → st.told = none ∧ st.after = { st.before with inbox := st.after.inbox }) ∧
      ((∀ m ∈ st₀.after.queue ++ delivered l, m.releases node.id = false) →
        Held node st₀.after l r) ∧
      ∀ before m later, st₀.after.queue ++ delivered l = before ++ m :: later →
        (∀ m' ∈ before, m'.releases node.id = false) → m.releases node.id = true →
        (Held node st₀.after l r ∧ l.countP (·.turn.isStep) ≤ before.length ∧
          ∀ now, (r.step around now).isSome = true) ∨
        ∃ front st rest, l = front ++ st :: rest ∧ Held node st₀.after front st.before ∧
          taken front = before ∧ st.taken? = some m ∧ st.after.queue ++ delivered rest = later ∧
          (m = .resume node.id →
            st.told = some (.varsUpdate st.after.vars) ∧
            (∃ deadline, st.after = { st.before with
              inbox := st.after.inbox
              vars := (Vars.latest Control.vars? left before).clearWait
              phase := .lingering node deadline }) ∧
            (∀ key, st.after.vars.get? key =
              if Key.normalize key = Vars.waitFlag ∨ Key.normalize key = Vars.waitReasonKey then none
              else (Vars.latest Control.vars? left before).get? key) ∧
            st.after.definition = before.foldl Definition.edit st₀.before.definition) ∧
          (m = .stop →
            landmarks rest = [] ∧ rest.countP (·.turn.isStep) ≤ 2 ∧
            (r.isOver = false → ∀ now, (r.step around now).isSome = true) ∧
            (r.isOver = true ↔ rest.countP (·.turn.isStep) = 2) ∧
            (r.isOver = true → ∃ report, r.report? = some report ∧ report.ending = .aborted)) := by
  obtain ⟨hfront, ht₀, hw⟩ := h.split
  obtain ⟨hout₀, hout⟩ := List.forall_mem_append.mp houtside
  replace hout := (List.forall_mem_cons.mp hout).2
  obtain ⟨htold, hafter, hheld₀, hreach, hbox⟩ :=
    hfront.begins_to_wait hopen hout₀ hturn ht₀ hp hwaits
  refine ⟨htold, hafter, ?_, ?_, ?_⟩
  · intro st hst id hwaiting htaken hid
    exact (hw.obeys hst htaken).elsewhere hwaiting hid
  · intro hnone
    rcases hw.held_or_released hheld₀ hreach hout with
      hheld | ⟨front, st, rest, m, rfl, -, hm, hrelease⟩
    · exact hheld
    · have htaken : m ∈ taken (front ++ st :: rest) :=
        List.mem_filterMap.mpr ⟨st, List.mem_append_right _ List.mem_cons_self, hm⟩
      have hnever := hnone m ((hw.queue_eq hbox).1 ▸ List.mem_append_left _ htaken)
      cases hrelease.symm.trans hnever
  · intro before m later hall hbefore hm
    rcases hw.held_or_released hheld₀ hreach hout with
      hheld | ⟨front, st, rest, m', rfl, hheld, hm', hrelease⟩
    · rw [(hw.queue_eq hbox).1] at hall
      obtain ⟨hsteps, hqueue⟩ := hheld.before_release hm hall
      exact Or.inl ⟨hheld, hsteps, hheld.step_isSome hqueue⟩
    · obtain ⟨rfl, rfl, hlater⟩ := hheld.first_release hw hbox hm' hrelease hall hbefore hm
      have hobeys := hw.obeys (List.mem_append_right _ List.mem_cons_self) hm'
      obtain ⟨-, -, hrest⟩ := hw.split
      refine Or.inr ⟨front, st, rest, rfl, hheld, rfl, hm', hlater, ?_, ?_⟩
      · rintro rfl
        have hvars : st₀.after.vars = left := by rw [hafter]
        have hdefinition : st₀.after.definition = st₀.before.definition := by rw [hafter]
        obtain ⟨htold', deadline, hst⟩ := hheld.resumed hobeys
        rw [hvars] at hst
        refine ⟨htold', ⟨deadline, hst⟩, fun key => ?_, ?_⟩
        · rw [hst]
          exact Vars.get?_clearWait ..
        · rw [hst, ← hdefinition]
          exact hheld.definition
      · rintro rfl
        obtain ⟨hp', hc⟩ := hheld.stopped hobeys
        obtain ⟨hquits, hcancelled, hquiet⟩ := hrest.quits hp' hc
        obtain ⟨hsteps, hover, hreport⟩ := hquits.spec
        exact ⟨hquiet, hsteps, fun hnotOver now => step_of_cancelled around now hcancelled hnotOver,
          hover, hreport⟩

/-- A run that waits at its first node, is sent several messages, and goes some steps: the
whole of it, cut where it begins to wait. -/
def waitAndResume : List Turn × List Turn :=
  (List.replicate 2 (.step 0), [.send (.resume "b"),
    .send (.updateVars { fields := [(Vars.waitFlag, .bool true), ("x", .null)] }),
    .send (.updateWorkflow none (some [])), .send (.resume "a"), .send .stop, .step 0, .step 0,
    .step 0, .step 0])

/-- That run is resumed by the fourth of these messages, and the fifth is still to come. -/
theorem resumed_waitAndResume :
    ∃ l₀ st₀ l r front st rest,
      Walks quiet (start oneWay { fields := [(Vars.waitFlag, .bool true)] } (some {}))
        (l₀ ++ st₀ :: l) r ∧
      st₀.told = some (.nodeWait "a" none) ∧ l = front ++ st :: rest ∧
      Held { id := "a" } st₀.after front st.before ∧ st.taken? = some (.resume "a") ∧
      st.after.queue ++ delivered rest = [.stop] ∧
      st.after.vars.get? Vars.waitFlag = none ∧ st.after.vars.get? "x" = some .null ∧
      st.after.definition = { oneWay with edges := [] } := by
  have hsome : ((start oneWay { fields := [(Vars.waitFlag, .bool true)] } (some {})).stroll quiet
      waitAndResume.1).isSome = true := rfl
  have hstep : ((Option.get _ hsome).2.take quiet (.step 0)).isSome = true := rfl
  have hrest : ((Option.get _ hstep).2.stroll quiet waitAndResume.2).isSome = true := rfl
  obtain ⟨hw, hturns⟩ := Walks.of_strolls (Option.some_get hsome).symm
    (Option.some_get hstep).symm (Option.some_get hrest).symm
  have hmeddles : ∀ turn ∈ waitAndResume.1 ++ .step 0 :: waitAndResume.2, turn.meddles = false := by
    decide
  have houtside := List.forall_mem_map.mp (hturns ▸ hmeddles)
  obtain ⟨htold, -, -, -, hrelease⟩ := hw.waits_for_release rfl houtside rfl rfl rfl
  rcases hrelease [_, _, _] (.resume "a") [.stop] rfl (by decide) rfl with ⟨-, hsteps, -⟩ | hfirst
  · exact absurd hsteps (Nat.not_succ_le_self 3)
  · obtain ⟨front, st, rest, heq, hheld, -, hm, hlater, hresumed, -⟩ := hfirst
    obtain ⟨-, -, hget, hdefinition⟩ := hresumed rfl
    exact ⟨_, _, _, _, front, st, rest, hw, htold, heq, hheld, hm, hlater, hget _, hget _,
      hdefinition⟩

end Interpreter

end Workflow
