import Workflow.Proofs.Interpreter.Stride

/-!
# The messages of a run

Messages go into the inbox in the order in which they are sent, and a run takes them up one
by one: at the boundary of a node, while it waits, and in its pauses. Nothing is lost on the
way, nothing overtaken and nothing done twice (`Walks.queue_eq`), and each message is obeyed
in the stride that takes it up (`Stride.Obeys`). So the definition is at any time the one at
the start with the updates taken up so far.

When messages are taken up is a matter of where the run stands. In the pause after a node it
does nothing else, and goes on only when the inbox is empty: an edge is chosen after all that
was sent before. From entering a node to the end of its script it takes up nothing.
-/

namespace Workflow

/-- The variables that a message brings. -/
def Control.vars? : Control → Option Vars
  | updateVars vars => some vars
  | _ => none

/-- A definition after a message. -/
def Definition.edit (d : Definition) : Control → Definition
  | .updateWorkflow nodes edges => d.update nodes edges
  | _ => d

/-- The node that a run is busy with, from entering it to the end of its script. -/
def Phase.script? : Phase → Option Node
  | entered node | telling node .. => some node
  | _ => none

theorem Phase.script?_of_hears {phase : Phase} (h : phase.hears = true) :
    phase.script? = none := by
  cases phase <;> first | rfl | cases h

/-- The node after which a run pauses. -/
def Phase.lingers? : Phase → Option Node
  | lingering node _ => some node
  | _ => none

namespace Interpreter

/-! ## Sending and taking up -/

/-- The messages that were not taken up yet, the oldest first. -/
def queue (r : Interpreter) : List Control := (r.inbox.map (·.queue)).getD []

/-- The message that a turn sends. -/
def Turn.sent? : Turn → Option Control
  | send m => some m
  | _ => none

/-- All that was sent, in order. -/
def delivered (l : List Stride) : List Control := l.filterMap (·.turn.sent?)

/-- The message that a stride takes up: the oldest one, if the step leaves it no longer in
the inbox. -/
def Stride.taken? (st : Stride) : Option Control :=
  match st.turn, st.before.take? with
  | .step _, some (m, _) => if st.after.queue.length < st.before.queue.length then some m else none
  | _, _ => none

/-- All that was taken up, in order. -/
def taken (l : List Stride) : List Control := l.filterMap (·.taken?)

theorem delivered_append (l l' : List Stride) : delivered (l ++ l') = delivered l ++ delivered l' :=
  List.filterMap_append

theorem delivered_snoc (l : List Stride) (st : Stride) :
    delivered (l ++ [st]) = delivered l ++ st.turn.sent?.toList := by
  rw [delivered_append, delivered, delivered, List.filterMap_cons]
  cases st.turn.sent? <;> rfl

theorem taken_append (l l' : List Stride) : taken (l ++ l') = taken l ++ taken l' :=
  List.filterMap_append

theorem taken_snoc (l : List Stride) (st : Stride) :
    taken (l ++ [st]) = taken l ++ st.taken?.toList := by
  rw [taken_append, taken, taken, List.filterMap_cons]
  cases st.taken? <;> rfl

/-! ## Obeying -/

/-- **Obeying a message**: a stride takes it up and does what it says. A message to resume
from the node that the run waits at makes it forget the wait and go on to its pause. -/
inductive Stride.Obeys (st : Stride) (m : Control) : Prop
  /-- what the message says is done -/
  | applied {r : Interpreter} : st.before.take? = some (m, r) →
      (∀ node, st.before.phase = .waiting node → m ≠ .resume node.id) →
      r.apply m = (st.told, st.after) → st.Obeys m
  /-- the run is resumed -/
  | resumed {r : Interpreter} {node : Node} {deadline : Nat} : st.before.take? = some (m, r) →
      st.before.phase = .waiting node → m = .resume node.id →
      st.told = some (.varsUpdate r.vars.clearWait) →
      st.after = { r with vars := r.vars.clearWait, phase := .lingering node deadline } →
      st.Obeys m

/-- A step obeys a message, or leaves inbox and definition alone. -/
theorem step_obeys {around : Surroundings} {now : Nat} {r r' : Interpreter} {told : Option Event}
    (h : Steps around now r told r') :
    (∃ m, Stride.Obeys ⟨r, .step now, told, r'⟩ m) ∨
      (r'.inbox = r.inbox ∧ r'.definition = r.definition) := by
  cases h with
  | heard _ _ ht ha hwaits => exact Or.inl ⟨_, .applied ht hwaits ha⟩
  | resumed hp _ ht => exact Or.inl ⟨_, .resumed ht hp rfl rfl rfl⟩
  | _ => exact Or.inr ⟨rfl, rfl⟩

theorem apply_definition {r r' : Interpreter} {m : Control} {told : Option Event}
    (h : r.apply m = (told, r')) : r'.definition = r.definition.edit m := by
  cases m <;> cases h <;> rfl

theorem apply_vars {r r' : Interpreter} {m : Control} {told : Option Event}
    (h : r.apply m = (told, r')) : r'.vars = m.vars?.getD r.vars := by
  cases m <;> cases h <;> rfl

/-- What a message that is obeyed does to inbox and definition. -/
theorem Stride.Obeys.spec {st : Stride} {m : Control} (h : st.Obeys m) :
    (∃ rest isOpen, st.before.inbox = some ⟨m :: rest, isOpen⟩ ∧
      st.after.inbox = some ⟨rest, isOpen⟩) ∧
      st.after.definition = st.before.definition.edit m := by
  cases h with
  | applied ht _ ha =>
    obtain ⟨rest, isOpen, hbox, rfl⟩ := take?_cases ht
    have hafter := (apply_keeps ha).2.2.2.1
    have hdefinition := apply_definition ha
    exact ⟨⟨rest, isOpen, hbox, hafter⟩, hdefinition⟩
  | resumed ht _ hm _ hafter =>
    obtain ⟨rest, isOpen, hbox, rfl⟩ := take?_cases ht
    rw [hm, hafter]
    exact ⟨⟨rest, isOpen, hm ▸ hbox, rfl⟩, rfl⟩

/-- What a step obeys is what it takes up. -/
theorem Stride.Obeys.taken?_eq {st : Stride} {m : Control} (h : st.Obeys m) {now : Nat}
    (hturn : st.turn = .step now) : st.taken? = some m := by
  obtain ⟨⟨rest, isOpen, hbefore, hafter⟩, -⟩ := h.spec
  have hless : st.after.queue.length < st.before.queue.length := by
    rw [queue, queue, hafter, hbefore]
    exact Nat.lt_succ_self _
  rw [Stride.taken?, hturn, take?, hbefore]
  exact if_pos hless

/-- A stride that leaves the inbox alone takes up nothing. -/
theorem Stride.taken?_eq_none {st : Stride} (h : st.after.inbox = st.before.inbox) :
    st.taken? = none := by
  have hsame : ¬ st.after.queue.length < st.before.queue.length := by
    rw [queue, queue, h]
    exact Nat.lt_irrefl _
  unfold Stride.taken?
  split
  · exact if_neg hsame
  · rfl

/-- What becomes of the inbox and of the definition in a stride. -/
inductive Stride.Handles (st : Stride) : Prop
  /-- a message is taken up and obeyed -/
  | obeying {m : Control} : st.Obeys m → st.taken? = some m → st.turn.sent? = none → st.Handles
  /-- nothing is taken up, and what is sent comes last -/
  | keeping : st.taken? = none → st.after.definition = st.before.definition →
      st.after.inbox.isSome = st.before.inbox.isSome →
      (st.before.inbox.isSome = true →
        st.after.queue = st.before.queue ++ st.turn.sent?.toList) → st.Handles

theorem take_handles {around : Surroundings} {st : Stride}
    (h : st.before.take around st.turn = some (st.told, st.after)) : st.Handles := by
  obtain ⟨before, turn, told, after⟩ := st
  dsimp only at h
  cases turn with
  | step now =>
    rcases step_obeys (step_cases h) with ⟨m, hm⟩ | ⟨hbox, hdefinition⟩
    · exact .obeying hm (hm.taken?_eq rfl) rfl
    · refine .keeping (Stride.taken?_eq_none hbox) hdefinition (congrArg _ hbox) fun _ => ?_
      exact (congrArg (fun box : Option Inbox => (box.map (·.queue)).getD []) hbox).trans
        (List.append_nil _).symm
  | cancel =>
    cases h
    exact .keeping rfl rfl rfl fun _ => (List.append_nil _).symm
  | send m =>
    cases h
    refine .keeping rfl rfl Option.isSome_map fun hbox => ?_
    obtain ⟨box, hbox⟩ := Option.isSome_iff_exists.mp hbox
    change before.inbox = some box at hbox
    change (before.send m).queue = before.queue ++ [m]
    rw [queue, queue, send, hbox]
    rfl
  | close =>
    cases h
    refine .keeping rfl rfl Option.isSome_map fun _ => ?_
    change before.close.queue = before.queue ++ []
    rw [List.append_nil, queue, queue, close, Option.map_map]
    rfl

section Walk

variable {around : Surroundings} {r₀ r : Interpreter} {l : List Stride}

/-- **First come, first served**: what was sent is what was taken up, and what is left, in
order. -/
theorem Walks.queue_eq (h : Walks around r₀ l r) (hbox : r₀.inbox.isSome = true) :
    r₀.queue ++ delivered l = taken l ++ r.queue ∧ r.inbox.isSome = true := by
  induction h with
  | nil => exact ⟨List.append_nil _, hbox⟩
  | @snoc l r r' turn told _ ht ih =>
    obtain ⟨hqueue, hsome⟩ := ih
    rw [delivered_snoc, taken_snoc, ← List.append_assoc, hqueue, List.append_assoc,
      List.append_assoc]
    cases show Stride.Handles ⟨r, turn, told, r'⟩ from take_handles ht with
    | @obeying m hm htaken hsent =>
      obtain ⟨⟨rest, isOpen, hbefore, hafter⟩, -⟩ := hm.spec
      have hr : r.queue = m :: rest := by rw [queue, hbefore]; rfl
      have hr' : r'.queue = rest := by rw [queue, hafter]; rfl
      rw [htaken, hsent, hr, hr']
      exact ⟨congrArg _ (List.append_nil _), by rw [hafter]; rfl⟩
    | keeping htaken _ hsame hsent =>
      rw [htaken, hsent hsome]
      exact ⟨rfl, hsame.trans hsome⟩

/-- The definition is the one at the start with all updates that were taken up. -/
theorem Walks.definition_eq (h : Walks around r₀ l r) :
    r.definition = (taken l).foldl Definition.edit r₀.definition := by
  induction h with
  | nil => rfl
  | @snoc l r r' turn told _ ht ih =>
    rw [taken_snoc, List.foldl_append, ← ih]
    cases show Stride.Handles ⟨r, turn, told, r'⟩ from take_handles ht with
    | obeying hm htaken =>
      rw [htaken]
      exact hm.spec.2
    | keeping htaken hdefinition =>
      rw [htaken]
      exact hdefinition

/-- What is taken up is obeyed. -/
theorem Walks.obeys (h : Walks around r₀ l r) {st : Stride} (hst : st ∈ l) {m : Control}
    (hm : st.taken? = some m) : st.Obeys m := by
  obtain ⟨front, rest, rfl⟩ := List.append_of_mem hst
  obtain ⟨-, ht, -⟩ := h.split
  cases take_handles ht with
  | obeying hobeys htaken =>
    obtain rfl := Option.some.inj (htaken.symm.trans hm)
    exact hobeys
  | keeping htaken => cases htaken.symm.trans hm

/-- A run that has come to where something holds has come there by some stride, and it has
held ever since. -/
theorem Walks.since {P : Interpreter → Prop} (h : Walks around r₀ l r) (h₀ : ¬ P r₀) (hr : P r) :
    ∃ front st rest, l = front ++ st :: rest ∧ ¬ P st.before ∧ P st.after ∧
      Walks around st.after rest r ∧ ∀ st' ∈ rest, P st'.before ∧ P st'.after := by
  induction h with
  | nil => exact absurd hr h₀
  | @snoc l r r' turn told hw ht ih =>
    by_cases hp : P r
    · obtain ⟨front, st, rest, rfl, hbefore, hafter, hrest, hall⟩ := ih hp
      refine ⟨front, st, rest ++ [⟨r, turn, told, r'⟩], List.append_assoc .., hbefore, hafter,
        hrest.snoc ht, List.forall_mem_append.mpr ⟨hall, ?_⟩⟩
      intro st' hst'
      obtain rfl := List.mem_singleton.mp hst'
      exact ⟨hp, hr⟩
    · exact ⟨l, ⟨r, turn, told, r'⟩, [], rfl, hp, hr, .nil, fun _ hst' => nomatch hst'⟩

end Walk

/-! ## The pause after a node -/

/-- In the pause after a node only messages change the variables. -/
theorem vars_of_lingers {around : Surroundings} {st : Stride} {node : Node}
    (h : st.before.take around st.turn = some (st.told, st.after))
    (hp : st.before.phase.lingers? = some node) (hp' : st.after.phase.lingers? = some node) :
    st.after.vars = Vars.latest Control.vars? st.before.vars st.taken?.toList := by
  obtain ⟨before, turn, told, after⟩ := st
  dsimp only at h hp hp' ⊢
  cases turn with
  | step now =>
    cases step_cases h with
    | @heard m r _ _ _ _ ht ha hwaits =>
      have hobeys : Stride.Obeys ⟨before, .step now, told, after⟩ m := .applied ht hwaits ha
      obtain ⟨rest, isOpen, -, rfl⟩ := take?_cases ht
      rw [hobeys.taken?_eq rfl]
      exact (apply_vars ha).trans (Vars.latest_singleton ..).symm
    -- any other step leads into the pause or out of it
    | resumed hphase =>
      rw [hphase] at hp
      cases hp
    | lingers hphase =>
      rw [hphase] at hp
      cases hp
    | _ => cases hp'
  | _ =>
    cases h
    rfl

theorem Walks.vars_of_lingers {around : Surroundings} {node : Node} {r₁ r : Interpreter}
    {l : List Stride} (h : Walks around r₁ l r)
    (hl : ∀ st ∈ l, st.before.phase.lingers? = some node ∧ st.after.phase.lingers? = some node) :
    r.vars = Vars.latest Control.vars? r₁.vars (taken l) := by
  induction h with
  | nil => rfl
  | @snoc l r r' turn told _ ht ih =>
    obtain ⟨hbefore, hafter⟩ := hl _ (List.mem_append_right _ List.mem_cons_self)
    rw [taken_snoc, Vars.latest_append, ← ih fun st hst => hl st (List.mem_append_left _ hst)]
    exact Interpreter.vars_of_lingers ht hbefore hafter

/-- What is sent before an edge is chosen is taken up before. -/
theorem Walks.taken_of_chooses {around : Surroundings} {r₀ : Interpreter} {l : List Stride}
    {st : Stride} {node : Node} (h : Walks around r₀ l st.before) (hbox : r₀.inbox.isSome = true)
    (hchooses : st.Chooses node) : taken l = r₀.queue ++ delivered l := by
  obtain ⟨_, _, -, -, -, hnone, -⟩ := hchooses
  obtain ⟨hqueue, hsome⟩ := h.queue_eq hbox
  have hempty : st.before.queue = [] := by
    unfold take? at hnone
    split at hnone
    · cases hnone
    · next hno =>
      obtain ⟨⟨queue, isOpen⟩, heq⟩ := Option.isSome_iff_exists.mp hsome
      cases queue with
      | nil => rw [Interpreter.queue, heq]; rfl
      | cons m rest => exact absurd heq (hno m rest isOpen)
  rw [hqueue, hempty, List.append_nil]

/-! ## Scripts -/

/-- Where a run stands between entering a node and the end of its script. -/
inductive AtScript (around : Surroundings) (occasion : Occasion) (node : Node) (vars : Vars)
    (r : Interpreter) : Prop
  /-- before the script -/
  | before : r.phase = .entered node → r.occasion = occasion → r.vars = vars →
      AtScript around occasion node vars r
  /-- behind it -/
  | behind {rest : List Event} : r.phase = .telling node rest (leftBy around occasion node vars) →
      AtScript around occasion node vars r

/-- No message is taken up while a run is busy with a node. -/
theorem taken?_of_script {around : Surroundings} {st : Stride}
    (h : st.before.take around st.turn = some (st.told, st.after))
    (hp : st.before.phase.script?.isSome = true) :
    st.taken? = none ∧ st.after.definition = st.before.definition := by
  obtain ⟨before, turn, told, after⟩ := st
  dsimp only at h hp
  cases turn with
  | step now =>
    cases step_cases h with
    | heard hears =>
      rw [Phase.script?_of_hears hears] at hp
      cases hp
    | resumed hphase =>
      rw [hphase] at hp
      cases hp
    | _ => exact ⟨Stride.taken?_eq_none rfl, rfl⟩
  | _ =>
    cases h
    exact ⟨rfl, rfl⟩

/-- A node is entered when its visit is told. -/
theorem entered_of_script {around : Surroundings} {st : Stride} {node : Node}
    (h : st.before.take around st.turn = some (st.told, st.after))
    (hp : st.before.phase.script? ≠ some node) (hp' : st.after.phase.script? = some node) :
    st.told = some (.nodeStart node.id) ∧ st.after.phase = .entered node := by
  obtain ⟨before, turn, told, after⟩ := st
  dsimp only at h hp hp' ⊢
  cases turn with
  | step now =>
    cases step_cases h with
    | entered =>
      cases hp'
      exact ⟨rfl, rfl⟩
    | heard _ _ ht ha =>
      obtain ⟨rest, isOpen, -, rfl⟩ := take?_cases ht
      rw [(apply_keeps ha).1] at hp'
      exact absurd hp' hp
    -- every other step that leads here comes from the node itself
    | ran hphase =>
      cases hp'
      rw [hphase] at hp
      exact absurd rfl hp
    | passed hphase =>
      cases hp'
      rw [hphase] at hp
      exact absurd rfl hp
    | told hphase =>
      cases hp'
      rw [hphase] at hp
      exact absurd rfl hp
    | _ => cases hp'
  | _ =>
    cases h
    exact absurd hp' hp

/-- What a stride makes of the variables that a visit leaves: nothing. -/
theorem AtScript.take {around : Surroundings} {st : Stride} {occasion : Occasion} {node : Node}
    {vars : Vars} (h : st.before.take around st.turn = some (st.told, st.after))
    (hat : AtScript around occasion node vars st.before)
    (hp' : st.after.phase.script? = some node) : AtScript around occasion node vars st.after := by
  obtain ⟨before, turn, told, after⟩ := st
  dsimp only at h hat hp' ⊢
  cases turn with
  | step now =>
    cases hat with
    | before hphase hoccasion hvars =>
      cases step_cases h with
      | @ran node' script hphase' _ hscript =>
        obtain rfl := Phase.entered.inj (hphase.symm.trans hphase')
        have hleft : leftBy around occasion node vars =
            varsAfter node (around.execute before.occasion node.id script before.vars) := by
          rw [leftBy, hscript, hoccasion, hvars]
        exact .behind (congrArg (Phase.telling node _) hleft.symm)
      | passed hphase' _ hscript =>
        obtain rfl := Phase.entered.inj (hphase.symm.trans hphase')
        have hleft : leftBy around occasion node vars = before.vars := by
          rw [leftBy, hscript, hvars]
        exact .behind (congrArg (Phase.telling node _) hleft.symm)
      | heard hears =>
        rw [hphase] at hears
        cases hears
      | entered hphase' => cases hphase.symm.trans hphase'
      | told hphase' => cases hphase.symm.trans hphase'
      | _ => cases hp'
    | behind hphase =>
      cases step_cases h with
      | told hphase' =>
        cases hphase.symm.trans hphase'
        exact .behind rfl
      | heard hears =>
        rw [hphase] at hears
        cases hears
      | ran hphase' => cases hphase.symm.trans hphase'
      | passed hphase' => cases hphase.symm.trans hphase'
      | entered hphase' => cases hphase.symm.trans hphase'
      | _ => cases hp'
  | _ =>
    cases h
    cases hat with
    | before hphase hoccasion hvars => exact .before hphase hoccasion hvars
    | behind hphase => exact .behind hphase

/-- **Scripts are left alone**: from entering a node to the end of its script no message is
taken up, the definition stays, and what the visit leaves is up to the variables it found. -/
theorem Walks.script_undisturbed {around : Surroundings} {occasion : Occasion} {node : Node}
    {vars : Vars} {r₁ r : Interpreter} {l : List Stride} (h : Walks around r₁ l r)
    (hat : AtScript around occasion node vars r₁)
    (hl : ∀ st ∈ l, st.before.phase.script? = some node ∧ st.after.phase.script? = some node) :
    taken l = [] ∧ r.definition = r₁.definition ∧ AtScript around occasion node vars r := by
  induction h with
  | nil => exact ⟨rfl, rfl, hat⟩
  | @snoc l r r' turn told _ ht ih =>
    obtain ⟨hbefore, hafter⟩ := hl _ (List.mem_append_right _ List.mem_cons_self)
    obtain ⟨htaken, hdefinition, hat'⟩ := ih fun st hst => hl st (List.mem_append_left _ hst)
    obtain ⟨hnone, hsame⟩ : Stride.taken? ⟨r, turn, told, r'⟩ = none ∧ r'.definition = r.definition :=
      taken?_of_script ht (Option.isSome_iff_exists.mpr ⟨node, hbefore⟩)
    refine ⟨?_, hsame.trans hdefinition, ?_⟩
    · rw [taken_snoc, htaken, hnone]
      rfl
    · exact show AtScript around occasion node vars (Stride.after ⟨r, turn, told, r'⟩) from
        AtScript.take ht hat' hafter

/-! ## All messages of a run -/

theorem start_phase (d : Definition) (vars : Vars) (inbox : Option Inbox) :
    (start d vars inbox).phase.script? = none ∧ (start d vars inbox).phase.lingers? = none := by
  rw [start]
  dsimp only
  split <;> exact ⟨rfl, rfl⟩

/-- The pause before a choice: since it began, only messages changed the variables. -/
theorem Walks.pause_before {around : Surroundings} {d : Definition} {vars : Vars}
    {inbox : Option Inbox} {l : List Stride} {st : Stride} {node : Node}
    (h : Walks around (start d vars inbox) l st.before) (hchooses : st.Chooses node) :
    ∃ front first pause, l = front ++ first :: pause ∧
      first.before.phase.lingers? ≠ some node ∧ first.after.phase.lingers? = some node ∧
      (∀ st' ∈ pause, st'.before.phase.lingers? = some node) ∧
      st.before.vars = Vars.latest Control.vars? first.after.vars (taken pause) := by
  obtain ⟨_, _, -, hp, -⟩ := hchooses
  have hstart : (start d vars inbox).phase.lingers? ≠ some node := by
    rw [(start_phase d vars inbox).2]
    exact nofun
  have hlingers : st.before.phase.lingers? = some node := by rw [hp]; rfl
  obtain ⟨front, first, pause, heq, hbefore, hafter, hpause, hall⟩ :=
    h.since (P := fun r => r.phase.lingers? = some node) hstart hlingers
  exact ⟨front, first, pause, heq, hbefore, hafter, fun st' hst' => (hall st' hst').1,
    hpause.vars_of_lingers hall⟩

/-- The script before its end: no message came in between, and the variables are those that
it makes of the ones it found. -/
theorem Walks.script_before {around : Surroundings} {d : Definition} {vars : Vars}
    {inbox : Option Inbox} {l : List Stride} {st : Stride} {node : Node} {left : Vars} {now : Nat}
    (h : Walks around (start d vars inbox) l st.before)
    (ht : st.before.take around st.turn = some (st.told, st.after)) (hturn : st.turn = .step now)
    (hp : st.before.phase = .telling node [] left) :
    ∃ front first script, l = front ++ first :: script ∧
      first.told = some (.nodeStart node.id) ∧ first.after.phase = .entered node ∧
      taken (script ++ [st]) = [] ∧ st.after.definition = first.after.definition ∧
      st.after.vars = leftBy around first.after.occasion node first.after.vars := by
  have hstart : (start d vars inbox).phase.script? ≠ some node := by
    rw [(start_phase d vars inbox).1]
    exact nofun
  have hscript : st.before.phase.script? = some node := by rw [hp]; rfl
  obtain ⟨front, first, script, rfl, hbefore, hafter, hrest, hall⟩ :=
    h.since (P := fun r => r.phase.script? = some node) hstart hscript
  obtain ⟨-, hfirst, -⟩ := h.split
  obtain ⟨htold, hentered⟩ := entered_of_script hfirst hbefore hafter
  obtain ⟨htaken, hdefinition, hat⟩ := hrest.script_undisturbed (.before hentered rfl rfl) hall
  obtain ⟨hnone, hsame⟩ := taken?_of_script ht (Option.isSome_iff_exists.mpr ⟨node, hscript⟩)
  refine ⟨front, first, script, rfl, htold, hentered, ?_, hsame.trans hdefinition, ?_⟩
  · rw [taken_snoc, htaken, hnone]
    rfl
  · have hleft : left = leftBy around first.after.occasion node first.after.vars := by
      cases hat with
      | before hp' => cases hp.symm.trans hp'
      | behind hp' =>
        cases hp.symm.trans hp'
        rfl
    rw [hturn] at ht
    rcases step_of_told hp ht with ⟨-, -, heq⟩ | ⟨-, -, heq⟩ <;> rw [heq] <;> exact hleft

/-- **Messages are obeyed in order, at the right time.** Whatever is sent and whenever: what
was sent is what was taken up, in order, and what is still in the inbox. What is taken up is
obeyed, so the definition is the first one with all those updates. An edge is chosen when all
that was sent before is taken up, in the definition with all those updates, and with the
variables that the last of those taken up in the pause brought, else those at its beginning.
And from entering a node to the end of its script nothing is taken up: the definition stays,
and the variables are what the script makes of those it found. -/
theorem Walks.obeyed_in_order {around : Surroundings} {d : Definition} {vars : Vars} {box : Inbox}
    {l : List Stride} {r : Interpreter} (h : Walks around (start d vars (some box)) l r) :
    box.queue ++ delivered l = taken l ++ r.queue ∧
      (∀ st ∈ l, ∀ m, st.taken? = some m → st.Obeys m) ∧
      r.definition = (taken l).foldl Definition.edit d ∧
      (∀ front st rest node, l = front ++ st :: rest → st.Chooses node →
        taken front = box.queue ++ delivered front ∧
        st.told = (Choice.chooseEdge
          (((box.queue ++ delivered front).foldl Definition.edit d).outgoing node.id)
          st.before.vars node).map (fun edge => .edgeStart edge.id) ∧
        ∃ front' first pause, front = front' ++ first :: pause ∧
          first.before.phase.lingers? ≠ some node ∧ first.after.phase.lingers? = some node ∧
          (∀ st' ∈ pause, st'.before.phase.lingers? = some node) ∧
          st.before.vars = Vars.latest Control.vars? first.after.vars (taken pause)) ∧
      (∀ st ∈ l, st.before.phase.script?.isSome = true →
        st.taken? = none ∧ st.after.definition = st.before.definition) ∧
      ∀ front st rest node left now, l = front ++ st :: rest → st.turn = .step now →
        st.before.phase = .telling node [] left →
        ∃ front' first script, front = front' ++ first :: script ∧
          first.told = some (.nodeStart node.id) ∧ first.after.phase = .entered node ∧
          taken (script ++ [st]) = [] ∧ st.after.definition = first.after.definition ∧
          st.after.vars = leftBy around first.after.occasion node first.after.vars := by
  refine ⟨(h.queue_eq rfl).1, fun st hst m hm => h.obeys hst hm, h.definition_eq, ?_, ?_, ?_⟩
  · rintro front st rest node rfl hchooses
    obtain ⟨hfront, ht, -⟩ := h.split
    have htaken : taken front = box.queue ++ delivered front := hfront.taken_of_chooses rfl hchooses
    have hdefinition : st.before.definition =
        (box.queue ++ delivered front).foldl Definition.edit d := htaken ▸ hfront.definition_eq
    refine ⟨htaken, ?_, hfront.pause_before hchooses⟩
    rw [← hdefinition]
    exact hchooses.told_eq ht
  · intro st hst hp
    obtain ⟨front, rest, rfl⟩ := List.append_of_mem hst
    obtain ⟨-, ht, -⟩ := h.split
    exact taken?_of_script ht hp
  · rintro front st rest node left now rfl hturn hp
    obtain ⟨hfront, ht, -⟩ := h.split
    exact hfront.script_before ht hturn hp

/-- A run whose edges are replaced in the pause after its first node: the whole of it, cut
before the choice. -/
def editAndChoose : List Turn × List Turn :=
  (List.replicate 3 (.step 0) ++ [.send (.updateVars { fields := [("x", .null)] }),
    .send (.updateWorkflow none (some [{ id := "f", source := "a", target := "a" }])),
    .step 0, .step 0], [.send .stop, .step 0, .step 0, .step 0])

/-- The choice of that run is made among the edges that were sent, and a message that was
sent later is taken up later. -/
theorem obeyed_editAndChoose :
    ∃ front st rest r, Walks quiet (start oneWay {} (some {})) (front ++ st :: rest) r ∧
      st.Chooses { id := "a" } ∧
      delivered (front ++ st :: rest) = taken (front ++ st :: rest) ++ r.queue ∧
      r.definition = (taken (front ++ st :: rest)).foldl Definition.edit oneWay ∧
      taken front = delivered front ∧
      st.told = (Choice.chooseEdge (((delivered front).foldl Definition.edit oneWay).outgoing "a")
        st.before.vars { id := "a" }).map (fun edge => .edgeStart edge.id) ∧
      st.told = some (.edgeStart "f") := by
  have hsome : ((start oneWay {} (some {})).stroll quiet editAndChoose.1).isSome = true := rfl
  have hstep : ((Option.get _ hsome).2.take quiet (.step 0)).isSome = true := rfl
  have hrest : ((Option.get _ hstep).2.stroll quiet editAndChoose.2).isSome = true := rfl
  obtain ⟨hw, -⟩ := Walks.of_strolls (Option.some_get hsome).symm (Option.some_get hstep).symm
    (Option.some_get hrest).symm
  have hchooses : Stride.Chooses ⟨(Option.get _ hsome).2, .step 0, (Option.get _ hstep).1,
      (Option.get _ hstep).2⟩ { id := "a" } := ⟨0, 0, rfl, rfl, rfl, rfl, Nat.le_refl 0⟩
  obtain ⟨hqueue, -, hdefinition, hchoice, -⟩ := hw.obeyed_in_order
  obtain ⟨htaken, htold, -⟩ := hchoice _ _ _ _ rfl hchooses
  exact ⟨_, _, _, _, hw, hchooses, hqueue, hdefinition, htaken, htold, rfl⟩

end Interpreter

end Workflow
