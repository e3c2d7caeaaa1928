import Workflow.Proofs.Sandbox

/-!
# Strides of a run

All that can happen to a run, in every order. At each *turn* the run goes a step at some
moment, or somebody outside tells it to stop, sends it a message or closes its inbox; a
*stride* is a turn that was taken, with the run before and after it and what was told
(`Interpreter.Walks`).

`step_cases` says once what a step can do. All later proofs are by induction on a walk,
with a case for each kind of step.
-/

namespace Workflow

/-! ## Where a run stands -/

/-- Whether a run takes up messages where it stands. -/
def Phase.hears : Phase → Bool
  | reaching _ | waiting _ | lingering .. | crossing .. => true
  | _ => false

/-- Whether a run looks where it stands if it was told to stop. -/
def Phase.heeds : Phase → Bool
  | entered _ | waiting _ | lingering .. | crossing .. => true
  | _ => false

namespace Interpreter

/-! ## Turns -/

/-- What can happen to a run. -/
inductive Turn where
  /-- it goes a step at a moment -/
  | step (now : Nat)
  /-- it is told to stop -/
  | cancel
  /-- a message is sent to it -/
  | send (m : Control)
  /-- nobody can send to it any more -/
  | close

/-- Whether a turn is a step of the run. -/
def Turn.isStep : Turn → Bool
  | step _ => true
  | _ => false

/-- What comes of a turn, if it is possible: what is told, and the run after it. -/
def take (around : Surroundings) (r : Interpreter) : Turn → Option (Option Event × Interpreter)
  | .step now => r.step around now
  | .cancel => some (none, r.cancel)
  | .send m => some (none, r.send m)
  | .close => some (none, r.close)

/-- A turn that was taken. -/
structure Stride where
  /-- the run before -/
  before : Interpreter
  /-- what happened -/
  turn : Turn
  /-- what was told -/
  told : Option Event
  /-- the run after -/
  after : Interpreter

theorem countP_snoc (q : Turn → Bool) (l : List Stride) (st : Stride) :
    (l ++ [st]).countP (fun st => q st.turn) =
      l.countP (fun st => q st.turn) + (q st.turn).toNat := by
  rw [List.countP_append, List.countP_singleton]
  cases q st.turn <;> rfl

/-- Going from one run to another by a row of strides. -/
inductive Walks (around : Surroundings) (r₀ : Interpreter) : List Stride → Interpreter → Prop
  /-- nothing happens -/
  | nil : Walks around r₀ [] r₀
  /-- one more stride -/
  | snoc {l : List Stride} {r r' : Interpreter} {turn : Turn} {told : Option Event} :
      Walks around r₀ l r → r.take around turn = some (told, r') →
      Walks around r₀ (l ++ [⟨r, turn, told, r'⟩]) r'

theorem Walks.trans {around : Surroundings} {r₀ r r' : Interpreter} {l l' : List Stride}
    (h : Walks around r₀ l r) (h' : Walks around r l' r') : Walks around r₀ (l ++ l') r' := by
  induction h' with
  | nil =>
    rw [List.append_nil]
    exact h
  | snoc _ ht ih =>
    rw [← List.append_assoc]
    exact ih.snoc ht

/-- A walk can be cut anywhere. -/
theorem Walks.cut {around : Surroundings} {r₀ r : Interpreter} {l l' : List Stride}
    (h : Walks around r₀ (l ++ l') r) : ∃ r₁, Walks around r₀ l r₁ ∧ Walks around r₁ l' r := by
  generalize heq : l ++ l' = whole at h
  induction h generalizing l' with
  | nil =>
    obtain ⟨rfl, rfl⟩ := List.append_eq_nil_iff.mp heq
    exact ⟨r₀, .nil, .nil⟩
  | @snoc front r r' turn told hw ht ih =>
    -- the last stride is behind the cut, unless nothing is
    rcases List.eq_nil_or_concat l' with rfl | ⟨rest, st, rfl⟩
    · rw [List.append_nil] at heq
      subst heq
      exact ⟨r', hw.snoc ht, .nil⟩
    · rw [List.concat_eq_append] at heq ⊢
      rw [← List.append_assoc] at heq
      obtain ⟨hfront, hlast⟩ := List.append_inj' heq rfl
      obtain rfl := List.singleton_inj.mp hlast
      obtain ⟨r₁, hl, hrest⟩ := ih hfront
      exact ⟨r₁, hl, hrest.snoc ht⟩

/-- The first stride of a walk. -/
theorem Walks.uncons {around : Surroundings} {r₀ r : Interpreter} {st : Stride}
    {l : List Stride} (h : Walks around r₀ (st :: l) r) :
    st.before = r₀ ∧ r₀.take around st.turn = some (st.told, st.after) ∧
      Walks around st.after l r := by
  obtain ⟨r₁, hone, hrest⟩ := Walks.cut (l := [st]) h
  generalize heq : [st] = whole at hone
  cases hone with
  | nil => cases heq
  | @snoc front r r' turn told hw ht =>
    obtain ⟨rfl, hst⟩ := List.append_inj' (show [] ++ [st] = _ from heq) rfl
    obtain rfl := List.singleton_inj.mp hst
    -- what comes before the only stride is no walk at all
    generalize hnil : ([] : List Stride) = none' at hw
    cases hw with
    | nil => exact ⟨rfl, ht, hrest⟩
    | snoc => exact absurd hnil (by simp)

/-- What a stride of a walk comes from, what it is, and what comes of it. -/
theorem Walks.split {around : Surroundings} {r₀ r : Interpreter} {l l' : List Stride} {st : Stride}
    (h : Walks around r₀ (l ++ st :: l') r) :
    Walks around r₀ l st.before ∧ st.before.take around st.turn = some (st.told, st.after) ∧
      Walks around st.after l' r := by
  obtain ⟨r₁, hfront, hback⟩ := h.cut
  obtain ⟨rfl, ht, hrest⟩ := hback.uncons
  exact ⟨hfront, ht, hrest⟩

/-- Takes a row of turns, if all of them are possible. -/
def stroll (around : Surroundings) (r : Interpreter) :
    List Turn → Option (List Stride × Interpreter)
  | [] => some ([], r)
  | turn :: rest =>
    match r.take around turn with
    | some (told, r₁) =>
      (stroll around r₁ rest).map fun (l, r') => (⟨r, turn, told, r₁⟩ :: l, r')
    | none => none

theorem stroll_walks {around : Surroundings} {r r' : Interpreter} {turns : List Turn}
    {l : List Stride} (h : r.stroll around turns = some (l, r')) : Walks around r l r' := by
  induction turns generalizing r l with
  | nil =>
    cases h
    exact .nil
  | cons turn rest ih =>
    rw [stroll] at h
    split at h
    · next told r₁ ht =>
      obtain ⟨⟨l', r''⟩, hrest, heq⟩ := Option.map_eq_some_iff.mp h
      cases heq
      exact (Walks.nil.snoc ht).trans (ih hrest)
    · cases h

theorem stroll_turns {around : Surroundings} {r r' : Interpreter} {turns : List Turn}
    {l : List Stride} (h : r.stroll around turns = some (l, r')) : l.map (·.turn) = turns := by
  induction turns generalizing r l with
  | nil =>
    cases h
    rfl
  | cons turn rest ih =>
    rw [stroll] at h
    split at h
    · obtain ⟨⟨l', r''⟩, hrest, heq⟩ := Option.map_eq_some_iff.mp h
      cases heq
      exact congrArg _ (ih hrest)
    · cases h

/-- A run that is tried out in two parts, with a turn between them. -/
theorem Walks.of_strolls {around : Surroundings} {r₀ r₁ r₂ r : Interpreter} {front rest : List Turn}
    {l l' : List Stride} {turn : Turn} {told : Option Event}
    (hfront : r₀.stroll around front = some (l, r₁)) (ht : r₁.take around turn = some (told, r₂))
    (hrest : r₂.stroll around rest = some (l', r)) :
    Walks around r₀ (l ++ ⟨r₁, turn, told, r₂⟩ :: l') r ∧
      (l ++ ⟨r₁, turn, told, r₂⟩ :: l').map (·.turn) = front ++ turn :: rest := by
  refine ⟨(stroll_walks hfront).trans ((Walks.nil.snoc ht).trans (stroll_walks hrest)), ?_⟩
  rw [List.map_append, List.map_cons, stroll_turns hfront, stroll_turns hrest]

/-- All that was told, in order. -/
def events (l : List Stride) : List Event := l.filterMap (·.told)

theorem events_snoc (l : List Stride) (st : Stride) :
    events (l ++ [st]) = events l ++ st.told.toList := by
  rw [events, List.filterMap_append]
  cases ht : st.told <;> simp [events, ht]

/-! ## Trying out -/

/-- Surroundings to try runs out: there are no pauses and no shared scripts. -/
def quiet : Surroundings where
  config := { stepDelay := 0, edgeDelay := 0 }
  execute _ := Sandbox.executeAmid (fun _ _ => .error "") (.ofSeed 0 0) 0
  shared := fun _ => .nothing

theorem quiet_isSandboxed : quiet.IsSandboxed :=
  ⟨fun _ _ _ => .error "", fun _ => .ofSeed 0 0, 0, rfl⟩

/-- Two nodes and the way from one to the other. -/
def oneWay : Definition where
  nodes := [{ id := "a" }, { id := "b" }]
  edges := [{ id := "e", source := "a", target := "b" }]

/-! ## Steps -/

/-- What a step can do: what it tells, and the run after it. -/
inductive Steps (around : Surroundings) (now : Nat) (r : Interpreter) :
    Option Event → Interpreter → Prop
  /-- it notices that it was told to stop -/
  | aborted : r.phase.heeds = true → r.cancelled = true →
      Steps around now r none { r with phase := .leaving .aborted }
  /-- it does what a message says, which is not to resume from where it waits -/
  | heard {m : Control} {r₁ r' : Interpreter} {told : Option Event} : r.phase.hears = true →
      (r.phase.heeds = true → r.cancelled = false) → r.take? = some (m, r₁) →
      r₁.apply m = (told, r') → (∀ node, r.phase = .waiting node → m ≠ .resume node.id) →
      Steps around now r told r'
  /-- it is resumed -/
  | resumed {node : Node} {r₁ : Interpreter} : r.phase = .waiting node → r.cancelled = false →
      r.take? = some (.resume node.id, r₁) →
      Steps around now r (some (.varsUpdate r₁.vars.clearWait))
        { r₁ with vars := r₁.vars.clearWait, phase := linger around now node }
  /-- nobody can resume it any more -/
  | deserted {node : Node} : r.phase = .waiting node → r.cancelled = false → r.take? = none →
      r.isDeserted = true → Steps around now r none { r with phase := .leaving .aborted }
  /-- there is no such node, or it is one too many -/
  | halted {id : String} : r.phase = .reaching id → r.take? = none →
      (∀ node, r.definition.node? id = some node →
        0 < around.config.maxSteps ∧ around.config.maxSteps ≤ r.steps) →
      Steps around now r none { r with phase := .leaving .completed }
  /-- it visits a node -/
  | entered {id : String} {node : Node} : r.phase = .reaching id → r.take? = none →
      r.definition.node? id = some node →
      (0 < around.config.maxSteps → r.steps < around.config.maxSteps) →
      Steps around now r (some (.nodeStart node.id))
        { r with steps := r.steps + 1, lastNode := some node.id, phase := .entered node }
  /-- it runs the script of a node -/
  | ran {node : Node} {script : String} : r.phase = .entered node → r.cancelled = false →
      scriptOf around node = .script script →
      Steps around now r none (r.runScript around node script)
  /-- the node has no script -/
  | passed {node : Node} : r.phase = .entered node → r.cancelled = false →
      scriptOf around node = .nothing →
      Steps around now r none { r with phase := .telling node [] r.vars }
  /-- the search for a script breaks down -/
  | broke {node : Node} : r.phase = .entered node → r.cancelled = false →
      scriptOf around node = .broken → Steps around now r none { r with phase := .broken }
  /-- it tells what a script told -/
  | told {node : Node} {event : Event} {rest : List Event} {vars : Vars} :
      r.phase = .telling node (event :: rest) vars →
      Steps around now r (some event) { r with phase := .telling node rest vars }
  /-- it begins to wait -/
  | waits {node : Node} {vars : Vars} : r.phase = .telling node [] vars →
      vars.isWaiting = true →
      Steps around now r (some (.nodeWait node.id vars.waitReason?))
        { r with vars := vars, phase := .waiting node }
  /-- it begins the pause after a node -/
  | lingers {node : Node} {vars : Vars} : r.phase = .telling node [] vars →
      vars.isWaiting = false →
      Steps around now r none { r with vars := vars, phase := linger around now node }
  /-- it follows the chosen edge -/
  | departed {node : Node} {deadline : Nat} {edge : Edge} :
      r.phase = .lingering node deadline → r.cancelled = false → r.take? = none →
      deadline ≤ now →
      Choice.chooseEdge (r.definition.outgoing node.id) r.vars node = some edge →
      Steps around now r (some (.edgeStart edge.id))
        { r with phase := .crossing edge.target (now + around.config.edgeDelay) }
  /-- no edge is chosen -/
  | finished {node : Node} {deadline : Nat} :
      r.phase = .lingering node deadline → r.cancelled = false → r.take? = none →
      deadline ≤ now → Choice.chooseEdge (r.definition.outgoing node.id) r.vars node = none →
      Steps around now r none { r with phase := .leaving .completed }
  /-- it is at the end of an edge -/
  | arrived {target : String} {deadline : Nat} :
      r.phase = .crossing target deadline → r.cancelled = false → r.take? = none →
      deadline ≤ now → Steps around now r none { r with phase := .reaching target }
  /-- it ends -/
  | ended {ending : Ending} : r.phase = .leaving ending →
      Steps around now r (some .workflowComplete) { r with phase := .ended ending }

theorem pause_cases {around : Surroundings} {r r' : Interpreter} {now deadline : Nat}
    {told : Option Event} {onward : Option Event × Interpreter} (hears : r.phase.hears = true)
    (hheeds : r.phase.heeds = true) (hwaits : ∀ node, r.phase ≠ .waiting node)
    (h : r.pause now deadline onward = some (told, r'))
    (honward : r.cancelled = false → r.take? = none → deadline ≤ now →
      Steps around now r onward.1 onward.2) : Steps around now r told r' := by
  unfold pause at h
  split at h
  · next hc =>
    cases h
    exact .aborted hheeds hc
  · next hc =>
    have hnot := Bool.eq_false_iff.mpr hc
    split at h
    · next m r₁ ht =>
      exact .heard hears (fun _ => hnot) ht (Option.some.inj h) fun node hp => absurd hp (hwaits node)
    · next ht =>
      split at h
      · next hd =>
        cases h
        exact honward hnot ht hd
      · cases h

/-- **Inversion**: what a step can do. -/
theorem step_cases {around : Surroundings} {now : Nat} {r r' : Interpreter} {told : Option Event}
    (h : r.step around now = some (told, r')) : Steps around now r told r' := by
  unfold step at h
  split at h
  · next id hp =>
    -- at the boundary of a node messages come first, and a stop is not looked for
    have hears : r.phase.hears = true := by rw [hp]; rfl
    have hheeds : r.phase.heeds = false := by rw [hp]; rfl
    split at h
    · next m r₁ ht =>
      exact .heard hears (fun h => nomatch h.symm.trans hheeds) ht (Option.some.inj h)
        fun node hp' => nomatch hp.symm.trans hp'
    · next ht =>
      unfold visit at h
      split at h
      · next hnone =>
        cases h
        exact .halted hp ht fun _ hnode => nomatch hnode.symm.trans hnone
      · next node hnode =>
        split at h
        · next hlimit =>
          cases h
          exact .halted hp ht fun _ _ => hlimit
        · next hlimit =>
          cases h
          refine .entered hp ht hnode fun hpos => ?_
          omega
  · next node hp =>
    have hheeds : r.phase.heeds = true := by rw [hp]; rfl
    split at h
    · next hc =>
      cases h
      exact .aborted hheeds hc
    · next hc =>
      have hnot := Bool.eq_false_iff.mpr hc
      split at h
      · next hs =>
        cases h
        exact .ran hp hnot hs
      · next hs =>
        cases h
        exact .passed hp hnot hs
      · next hs =>
        cases h
        exact .broke hp hnot hs
  · next hp =>
    cases h
    exact .told hp
  · next hp =>
    split at h
    · next hwaiting =>
      cases h
      exact .waits hp hwaiting
    · next hwaiting =>
      cases h
      exact .lingers hp (Bool.eq_false_iff.mpr hwaiting)
  · next node hp =>
    have hears : r.phase.hears = true := by rw [hp]; rfl
    have hheeds : r.phase.heeds = true := by rw [hp]; rfl
    have hhere : ∀ {m : Control}, m ≠ .resume node.id →
        ∀ node', r.phase = .waiting node' → m ≠ .resume node'.id := by
      intro m hm node' hp'
      obtain rfl := Phase.waiting.inj (hp.symm.trans hp')
      exact hm
    unfold await at h
    split at h
    · next hc =>
      cases h
      exact .aborted hheeds hc
    · next hc =>
      have hnot := Bool.eq_false_iff.mpr hc
      split at h
      · next id r₁ ht =>
        split at h
        · next hid =>
          subst hid
          cases h
          exact .resumed hp hnot ht
        · next hid =>
          refine .heard hears (fun _ => hnot) ht (Option.some.inj h) (hhere fun heq => ?_)
          exact hid (Control.resume.inj heq)
      · next m r₁ hother ht =>
        refine .heard hears (fun _ => hnot) ht (Option.some.inj h) (hhere ?_)
        rintro rfl
        exact hother _ rfl
      · next ht =>
        split at h
        · next hd =>
          cases h
          exact .deserted hp hnot ht hd
        · cases h
  · next node deadline hp =>
    refine pause_cases (by rw [hp]; rfl) (by rw [hp]; rfl) (by rw [hp]; exact nofun) h
      fun hnot ht hd => ?_
    unfold depart
    split
    · next hedge => exact .departed hp hnot ht hd hedge
    · next hedge => exact .finished hp hnot ht hd hedge
  · next target deadline hp =>
    refine pause_cases (by rw [hp]; rfl) (by rw [hp]; rfl) (by rw [hp]; exact nofun) h
      fun hnot ht hd => ?_
    exact .arrived hp hnot ht hd
  · next hp =>
    cases h
    exact .ended hp
  · cases h
  · cases h

/-- The step behind a script of which all is told: the variables it left are those of the
run, which waits if they ask it to. -/
theorem step_of_told {around : Surroundings} {now : Nat} {r r' : Interpreter}
    {told : Option Event} {node : Node} {vars : Vars} (hp : r.phase = .telling node [] vars)
    (h : r.step around now = some (told, r')) :
    (vars.isWaiting = true ∧ told = some (.nodeWait node.id vars.waitReason?) ∧
      r' = { r with vars := vars, phase := .waiting node }) ∨
    (vars.isWaiting = false ∧ told = none ∧
      r' = { r with vars := vars, phase := linger around now node }) := by
  rw [step, hp] at h
  dsimp only at h
  split at h
  · next hwaiting =>
    cases h
    exact Or.inl ⟨hwaiting, rfl, rfl⟩
  · next hwaiting =>
    cases h
    exact Or.inr ⟨Bool.eq_false_iff.mpr hwaiting, rfl, rfl⟩

/-- The variables that a visit of a node leaves, if its script is found or it has none. -/
def leftBy (around : Surroundings) (occasion : Occasion) (node : Node) (vars : Vars) : Vars :=
  match scriptOf around node with
  | .script script => varsAfter node (around.execute occasion node.id script vars)
  | _ => vars

/-! ## Choices -/

/-- A stride in which the pause after a node is over and an edge out of it is chosen, if
there is one to choose. -/
def Stride.Chooses (st : Stride) (node : Node) : Prop :=
  ∃ now deadline, st.turn = .step now ∧ st.before.phase = .lingering node deadline ∧
    st.before.cancelled = false ∧ st.before.take? = none ∧ deadline ≤ now

/-- What is told of a choice is the edge that is chosen. -/
theorem Stride.Chooses.told_eq {around : Surroundings} {st : Stride} {node : Node}
    (h : st.Chooses node) (ht : st.before.take around st.turn = some (st.told, st.after)) :
    st.told = (Choice.chooseEdge (st.before.definition.outgoing node.id) st.before.vars node).map
      fun edge => .edgeStart edge.id := by
  obtain ⟨now, deadline, hturn, hp, hc, hnone, hd⟩ := h
  rw [hturn] at ht
  change st.before.step around now = _ at ht
  rw [step, hp] at ht
  simp only [pause, hc, Bool.false_eq_true, if_false, hnone, if_pos hd, depart] at ht
  split at ht
  · next edge hedge =>
    rw [hedge]
    exact (Prod.mk.inj (Option.some.inj ht)).1.symm
  · next hedge =>
    rw [hedge]
    exact (Prod.mk.inj (Option.some.inj ht)).1.symm

/-! ## Messages -/

/-- Taking a message changes the inbox alone. -/
theorem take?_cases {r r₁ : Interpreter} {m : Control} (h : r.take? = some (m, r₁)) :
    ∃ rest isOpen, r.inbox = some ⟨m :: rest, isOpen⟩ ∧
      r₁ = { r with inbox := some ⟨rest, isOpen⟩ } := by
  unfold take? at h
  split at h
  · next hbox =>
    cases h
    exact ⟨_, _, hbox, rfl⟩
  · cases h

/-- What a message leaves as it was, and what is told of it. -/
theorem apply_keeps {r r' : Interpreter} {m : Control} {told : Option Event}
    (h : r.apply m = (told, r')) :
    r'.phase = r.phase ∧ r'.steps = r.steps ∧ r'.lastNode = r.lastNode ∧ r'.inbox = r.inbox ∧
      (told = none ∨ ∃ vars, told = some (.varsUpdate vars)) := by
  cases m with
  | updateVars vars =>
    cases h
    exact ⟨rfl, rfl, rfl, rfl, Or.inr ⟨vars, rfl⟩⟩
  | _ =>
    cases h
    exact ⟨rfl, rfl, rfl, rfl, Or.inl rfl⟩

/-! ## What runs tell -/

/-- What is left to tell of a script is of that script. -/
def Sound (r : Interpreter) : Prop :=
  ∀ node rest vars, r.phase = .telling node rest vars →
    ∀ event ∈ rest, event.isOfScript node.id = true

theorem sound_start (d : Definition) (vars : Vars) (inbox : Option Inbox) :
    (start d vars inbox).Sound := by
  intro node rest vars' hp
  rw [start] at hp
  dsimp only at hp
  split at hp <;> cases hp

theorem eventsOf_isOfScript {around : Surroundings} (hs : around.IsSandboxed)
    (occasion : Occasion) (node : Node) (script : String) (vars : Vars) :
    ∀ event ∈ eventsOf node (around.execute occasion node.id script vars),
      event.isOfScript node.id = true := by
  intro event hevent
  unfold eventsOf at hevent
  split at hevent
  · rcases List.mem_append.mp hevent with hevent | hevent
    · exact hs.told occasion node.id script vars event hevent
    · simp only [List.mem_cons, List.not_mem_nil, or_false] at hevent
      rcases hevent with rfl | rfl
      · exact decide_eq_true rfl
      · rfl
  · exact hs.told occasion node.id script vars event hevent

theorem sound_of_phase {r r' : Interpreter} (h : r.Sound) (hp : r'.phase = r.phase) :
    r'.Sound := by
  intro node rest vars ht
  exact h node rest vars (hp ▸ ht)

theorem Sound.step {around : Surroundings} (hs : around.IsSandboxed) {now : Nat}
    {r r' : Interpreter} {told : Option Event} (h : r.Sound) (hstep : Steps around now r told r') :
    r'.Sound := by
  cases hstep with
  | heard _ _ ht ha =>
    obtain ⟨_, _, -, rfl⟩ := take?_cases ht
    exact sound_of_phase h (apply_keeps ha).1
  | @ran node script =>
    intro node' rest vars hp
    cases hp
    exact eventsOf_isOfScript hs r.occasion node script r.vars
  | passed =>
    intro node' rest vars hp
    cases hp
    exact nofun
  | told hp =>
    intro node' rest' vars' hp'
    cases hp'
    exact fun event hevent => h _ _ _ hp event (List.mem_cons_of_mem _ hevent)
  | _ =>
    intro node' rest vars hp
    cases hp

theorem Sound.take {around : Surroundings} (hs : around.IsSandboxed) {turn : Turn}
    {r r' : Interpreter} {told : Option Event} (h : r.Sound)
    (ht : r.take around turn = some (told, r')) : r'.Sound := by
  cases turn with
  | step now => exact h.step hs (step_cases ht)
  | _ =>
    cases ht
    exact h

theorem Walks.sound {around : Surroundings} (hs : around.IsSandboxed) {r r' : Interpreter}
    {l : List Stride} (h : Walks around r l r') (hr : r.Sound) : r'.Sound := by
  induction h with
  | nil => exact hr
  | snoc _ ht ih => exact ih.take hs ht

end Interpreter

end Workflow
