import Workflow.Proofs.Interpreter.Stride

/-!
# The tour of a run

What a run tells of nodes and edges is a tour of its graph: from the start node along
chosen edges, node by node (`Tour`). Nodes, edges and variables may be replaced at any
time, so each landmark of a tour is taken together with the stride that told it: an edge
is the one chosen in the definition and with the variables of that very moment, for the
node as it was read when it was entered.

`Toured` is the invariant of a walk. It holds between any two strides, through pauses,
waits and edits, and gives at the end what a report may be trusted for (`Walks.tour`).
-/

namespace Workflow

/-- Whether an event tells neither of a node that is visited nor of an edge that is
followed, nor of the end. -/
def Event.isAside : Event → Bool
  | nodeStart _ | edgeStart _ | workflowComplete => false
  | _ => true

/-- The node that an event says is visited. -/
def Event.visited? : Event → Option String
  | nodeStart node => some node
  | _ => none

theorem Event.isAside_of_isOfScript {node : String} {event : Event}
    (h : event.isOfScript node = true) : event.isAside = true := by
  cases event <;> first | rfl | cases h

theorem Event.visited?_of_isAside {event : Event} (h : event.isAside = true) :
    event.visited? = none := by
  cases event <;> first | rfl | cases h

/-- Whether a run has ended. -/
def Phase.isEnded : Phase → Bool
  | ended _ => true
  | _ => false

/-- Where a tour stands. -/
inductive Place where
  /-- on the way to a node -/
  | heading (node : String)
  /-- in a node, as it was read when it was entered -/
  | inside (node : Node)

/-- Where the tour of a run stands, unless it is about to end. -/
def Phase.place? : Phase → Option Place
  | .reaching id => some (.heading id)
  | .entered node | .telling node .. | .waiting node | .lingering node _ => some (.inside node)
  | .crossing target _ => some (.heading target)
  | .leaving _ | .ended _ | .broken => none

namespace Interpreter

/-! ## Landmarks -/

/-- Whether a stride tells of a node that is visited or of an edge that is followed. -/
def Stride.isLandmark (st : Stride) : Bool :=
  match st.told with
  | some (.nodeStart _) | some (.edgeStart _) => true
  | _ => false

/-- The strides that tell of nodes and edges, in order. -/
def landmarks (l : List Stride) : List Stride := l.filter (·.isLandmark)

/-- The nodes that were told to be visited, in order. -/
def visited (l : List Stride) : List String := (events l).filterMap Event.visited?

/-- **Tours**: rows of landmarks that lead from the start node along chosen edges. -/
inductive Tour (d : Definition) : List Stride → Place → Prop
  /-- it begins at the start node -/
  | start {node : Node} : d.start? = some node → Tour d [] (.heading node.id)
  /-- the node ahead is entered, as it is defined now -/
  | enter {l : List Stride} {id : String} {node : Node} {st : Stride} : Tour d l (.heading id) →
      st.before.definition.node? id = some node → st.told = some (.nodeStart node.id) →
      Tour d (l ++ [st]) (.inside node)
  /-- it is left along the edge that is chosen now -/
  | leave {l : List Stride} {node : Node} {edge : Edge} {st : Stride} : Tour d l (.inside node) →
      Choice.chooseEdge (st.before.definition.outgoing node.id) st.before.vars node = some edge →
      st.told = some (.edgeStart edge.id) → Tour d (l ++ [st]) (.heading edge.target)

/-! ## The invariant -/

/-- **Toured**: what a row of strides says about the run that it has led to. -/
structure Toured (around : Surroundings) (d : Definition) (l : List Stride) (r : Interpreter) :
    Prop where
  /-- the tour stands where the run does -/
  place : ∀ place, r.phase.place? = some place → Tour d (landmarks l) place
  /-- landmarks make a tour, if there is a node to start at -/
  whole : (d.start? = none ∧ landmarks l = []) ∨ ∃ place, Tour d (landmarks l) place
  /-- visits are counted -/
  steps : r.steps = (visited l).length
  /-- and there are not too many -/
  limit : 0 < around.config.maxSteps → r.steps ≤ around.config.maxSteps
  /-- the last of them is known -/
  lastNode : r.lastNode = (visited l).getLast?
  /-- the end was not told before -/
  before : r.phase.isEnded = false → .workflowComplete ∉ events l
  /-- it was told last -/
  ended : r.phase.isEnded = true →
    ∃ pre, events l = pre ++ [.workflowComplete] ∧ .workflowComplete ∉ pre

theorem landmarks_snoc (l : List Stride) (st : Stride) :
    landmarks (l ++ [st]) = landmarks l ++ if st.isLandmark then [st] else [] := by
  rw [landmarks, List.filter_append]
  cases hst : st.isLandmark <;> simp [landmarks, hst]

theorem visited_snoc (l : List Stride) (st : Stride) :
    visited (l ++ [st]) = visited l ++ st.told.toList.filterMap Event.visited? := by
  rw [visited, events_snoc, List.filterMap_append]
  rfl

theorem toured_start (around : Surroundings) (d : Definition) (vars : Vars)
    (inbox : Option Inbox) : Toured around d [] (start d vars inbox) := by
  have hplace : ∀ place, (start d vars inbox).phase.place? = some place → Tour d [] place := by
    intro place hp
    rw [start] at hp
    dsimp only at hp
    split at hp
    · next node hnode =>
      cases hp
      exact .start hnode
    · cases hp
  have hended : (start d vars inbox).phase.isEnded = false := by
    rw [start]
    dsimp only
    split <;> rfl
  refine ⟨hplace, ?_, rfl, fun _ => Nat.zero_le _, rfl, fun _ => List.not_mem_nil, fun h => ?_⟩
  · cases hstart : d.start? with
    | none => exact Or.inl ⟨rfl, rfl⟩
    | some node => exact Or.inr ⟨_, .start hstart⟩
  · rw [hended] at h
    cases h

section Steps

variable {around : Surroundings} {d : Definition} {l : List Stride} {r r' : Interpreter}
  {turn : Turn} {told : Option Event}

/-- A stride that tells of nothing new keeps the tour where it stands. -/
theorem Toured.aside (h : Toured around d l r)
    (htold : ∀ event, told = some event → event.isAside = true)
    (hplace : ∀ place, r'.phase.place? = some place → r.phase.place? = some place)
    (hsteps : r'.steps = r.steps) (hlast : r'.lastNode = r.lastNode)
    (hended : r'.phase.isEnded = r.phase.isEnded)
    (hmute : r.phase.isEnded = true → told = none) :
    Toured around d (l ++ [⟨r, turn, told, r'⟩]) r' := by
  have hlandmarks : landmarks (l ++ [⟨r, turn, told, r'⟩]) = landmarks l := by
    rw [landmarks_snoc]
    cases told with
    | none => exact List.append_nil _
    | some event =>
      have haside := htold event rfl
      cases event <;> first | exact List.append_nil _ | cases haside
  have hvisited : visited (l ++ [⟨r, turn, told, r'⟩]) = visited l := by
    rw [visited_snoc]
    cases told with
    | none => exact List.append_nil _
    | some event =>
      change visited l ++ List.filterMap Event.visited? [event] = visited l
      rw [List.filterMap_cons, Event.visited?_of_isAside (htold event rfl)]
      exact List.append_nil _
  refine ⟨?_, ?_, ?_, ?_, ?_, ?_, ?_⟩
  · rw [hlandmarks]
    exact fun place hp => h.place place (hplace place hp)
  · rw [hlandmarks]
    exact h.whole
  · rw [hvisited, hsteps]
    exact h.steps
  · rw [hsteps]
    exact h.limit
  · rw [hvisited, hlast]
    exact h.lastNode
  · intro hopen hmem
    rw [events_snoc] at hmem
    rcases List.mem_append.mp hmem with hmem | hmem
    · exact h.before (hended ▸ hopen) hmem
    · have haside := htold .workflowComplete (Option.mem_toList.mp hmem)
      cases haside
  · intro hover
    rw [hended] at hover
    rw [events_snoc, hmute hover]
    obtain ⟨pre, hpre, hnot⟩ := h.ended hover
    exact ⟨pre, by rw [hpre]; exact List.append_nil _, hnot⟩

/-- A visit is the next landmark. -/
theorem Toured.enter (h : Toured around d l r) {id : String} {node : Node}
    (hp : r.phase = .reaching id) (hnode : r.definition.node? id = some node)
    (hlimit : 0 < around.config.maxSteps → r.steps < around.config.maxSteps)
    (hp' : r'.phase = .entered node) (hsteps : r'.steps = r.steps + 1)
    (hlast : r'.lastNode = some node.id) :
    Toured around d (l ++ [⟨r, turn, some (.nodeStart node.id), r'⟩]) r' := by
  have htour : Tour d (landmarks l ++ [⟨r, turn, some (.nodeStart node.id), r'⟩]) (.inside node) :=
    (h.place (.heading id) (by rw [hp]; rfl)).enter hnode rfl
  have hlandmarks := landmarks_snoc l ⟨r, turn, some (.nodeStart node.id), r'⟩
  have hvisited := visited_snoc l ⟨r, turn, some (.nodeStart node.id), r'⟩
  refine ⟨?_, ?_, ?_, ?_, ?_, ?_, ?_⟩
  · intro place hplace
    rw [hp'] at hplace
    cases hplace
    rw [hlandmarks]
    exact htour
  · rw [hlandmarks]
    exact Or.inr ⟨_, htour⟩
  · rw [hvisited, List.length_append, ← h.steps, hsteps]
    rfl
  · intro hpos
    rw [hsteps]
    exact hlimit hpos
  · rw [hvisited, hlast]
    exact List.getLast?_concat.symm
  · intro _ hmem
    rw [events_snoc] at hmem
    rcases List.mem_append.mp hmem with hmem | hmem
    · exact h.before (by rw [hp]; rfl) hmem
    · cases List.mem_singleton.mp hmem
  · intro hover
    rw [hp'] at hover
    cases hover

/-- An edge that is followed is the next landmark. -/
theorem Toured.leave (h : Toured around d l r) {node : Node} {edge : Edge} {deadline : Nat}
    {deadline' : Nat} (hp : r.phase = .lingering node deadline)
    (hedge : Choice.chooseEdge (r.definition.outgoing node.id) r.vars node = some edge)
    (hp' : r'.phase = .crossing edge.target deadline') (hsteps : r'.steps = r.steps)
    (hlast : r'.lastNode = r.lastNode) :
    Toured around d (l ++ [⟨r, turn, some (.edgeStart edge.id), r'⟩]) r' := by
  have htour : Tour d (landmarks l ++ [⟨r, turn, some (.edgeStart edge.id), r'⟩])
      (.heading edge.target) :=
    (h.place (.inside node) (by rw [hp]; rfl)).leave hedge rfl
  have hlandmarks := landmarks_snoc l ⟨r, turn, some (.edgeStart edge.id), r'⟩
  have hvisited : visited (l ++ [⟨r, turn, some (.edgeStart edge.id), r'⟩]) = visited l :=
    (visited_snoc l _).trans (List.append_nil _)
  refine ⟨?_, ?_, ?_, ?_, ?_, ?_, ?_⟩
  · intro place hplace
    rw [hp'] at hplace
    cases hplace
    rw [hlandmarks]
    exact htour
  · rw [hlandmarks]
    exact Or.inr ⟨_, htour⟩
  · rw [hvisited, hsteps]
    exact h.steps
  · rw [hsteps]
    exact h.limit
  · rw [hvisited, hlast]
    exact h.lastNode
  · intro _ hmem
    rw [events_snoc] at hmem
    rcases List.mem_append.mp hmem with hmem | hmem
    · exact h.before (by rw [hp]; rfl) hmem
    · cases List.mem_singleton.mp hmem
  · intro hover
    rw [hp'] at hover
    cases hover

/-- The end comes after all landmarks. -/
theorem Toured.finish (h : Toured around d l r) {ending : Ending} (hp : r.phase = .leaving ending)
    (hp' : r'.phase = .ended ending) (hsteps : r'.steps = r.steps)
    (hlast : r'.lastNode = r.lastNode) :
    Toured around d (l ++ [⟨r, turn, some .workflowComplete, r'⟩]) r' := by
  have hlandmarks : landmarks (l ++ [⟨r, turn, some .workflowComplete, r'⟩]) = landmarks l :=
    (landmarks_snoc l _).trans (List.append_nil _)
  have hvisited : visited (l ++ [⟨r, turn, some .workflowComplete, r'⟩]) = visited l :=
    (visited_snoc l _).trans (List.append_nil _)
  refine ⟨?_, ?_, ?_, ?_, ?_, ?_, fun _ => ?_⟩
  · intro place hplace
    rw [hp'] at hplace
    cases hplace
  · rw [hlandmarks]
    exact h.whole
  · rw [hvisited, hsteps]
    exact h.steps
  · rw [hsteps]
    exact h.limit
  · rw [hvisited, hlast]
    exact h.lastNode
  · intro hopen
    rw [hp'] at hopen
    cases hopen
  · exact ⟨events l, events_snoc l _, h.before (by rw [hp]; rfl)⟩

/-- A step keeps the invariant. -/
theorem Toured.step (h : Toured around d l r) (hsound : r.Sound) {now : Nat}
    (hstep : Steps around now r told r') :
    Toured around d (l ++ [⟨r, turn, told, r'⟩]) r' := by
  -- only visits, departures and the end are more than an aside
  cases hstep with
  | aborted hheeds =>
    have hopen : r.phase.isEnded = false := by
      cases hp : r.phase <;> simp_all [Phase.heeds, Phase.isEnded]
    exact h.aside nofun nofun rfl rfl hopen.symm fun _ => rfl
  | heard hears _ ht ha =>
    obtain ⟨rest, isOpen, hbox, rfl⟩ := take?_cases ht
    obtain ⟨hp, hs, hl, -, htold⟩ := apply_keeps ha
    refine h.aside ?_ (fun place hplace => hp ▸ hplace) hs hl (congrArg _ hp) fun hover => ?_
    · intro event hevent
      rcases htold with hnone | ⟨vars, hvars⟩
      · exact nomatch hevent.symm.trans hnone
      · obtain rfl := Option.some.inj (hevent.symm.trans hvars)
        rfl
    · cases hp : r.phase <;> simp_all [Phase.hears, Phase.isEnded]
  | resumed hp _ ht =>
    obtain ⟨rest, isOpen, hbox, rfl⟩ := take?_cases ht
    refine h.aside ?_ ?_ rfl rfl ?_ ?_ <;>
      simp_all [Phase.place?, Phase.isEnded, linger, Event.isAside]
  | entered hp _ hnode hlimit => exact h.enter hp hnode hlimit rfl rfl rfl
  | departed hp _ _ _ hedge => exact h.leave hp hedge rfl rfl rfl
  | ended hp => exact h.finish hp rfl rfl rfl
  | told hp =>
    have haside := Event.isAside_of_isOfScript (hsound _ _ _ hp _ List.mem_cons_self)
    refine h.aside ?_ ?_ rfl rfl ?_ ?_ <;> simp_all [Phase.place?, Phase.isEnded]
  | _ =>
    refine h.aside ?_ ?_ rfl rfl ?_ ?_ <;>
      simp_all [Phase.place?, Phase.isEnded, linger, Event.isAside, runScript]

/-- Every stride keeps the invariant. -/
theorem Toured.take (h : Toured around d l r) (hsound : r.Sound)
    (ht : r.take around turn = some (told, r')) :
    Toured around d (l ++ [⟨r, turn, told, r'⟩]) r' := by
  cases turn with
  | step now => exact h.step hsound (step_cases ht)
  | _ =>
    cases ht
    exact h.aside nofun (fun _ hp => hp) rfl rfl rfl fun _ => rfl

end Steps

/-- The invariant holds all along. -/
theorem Walks.toured {around : Surroundings} (hs : around.IsSandboxed) {d : Definition}
    {vars : Vars} {inbox : Option Inbox} {l : List Stride} {r : Interpreter}
    (h : Walks around (start d vars inbox) l r) : Toured around d l r := by
  induction h with
  | nil => exact toured_start around d vars inbox
  | snoc hw ht ih => exact ih.take (hw.sound hs (sound_start d vars inbox)) ht

/-- **The tour of a run that is over.** Whatever scripts do, whatever is sent and whenever
the run is told to stop: the end is told once and last; what is told of nodes and edges is
a tour that begins at the start node, unless there is none; and the report counts the
visits, never more than are allowed, and names the last of them. -/
theorem Walks.tour {around : Surroundings} (hs : around.IsSandboxed) {d : Definition}
    {vars : Vars} {inbox : Option Inbox} {l : List Stride} {r : Interpreter} {report : Report}
    (h : Walks around (start d vars inbox) l r) (hr : r.report? = some report) :
    (∃ pre, events l = pre ++ [.workflowComplete] ∧ .workflowComplete ∉ pre) ∧
      ((d.start? = none ∧ landmarks l = []) ∨ ∃ place, Tour d (landmarks l) place) ∧
      report.steps = (visited l).length ∧
      (0 < around.config.maxSteps → report.steps ≤ around.config.maxSteps) ∧
      report.lastNode = (visited l).getLast? := by
  have htoured := h.toured hs
  rw [report?] at hr
  split at hr
  · next ending hp =>
    cases hr
    have hover : r.phase.isEnded = true := by rw [hp]; rfl
    exact ⟨htoured.ended hover, htoured.whole, htoured.steps, htoured.limit, htoured.lastNode⟩
  · cases hr

/-- A tour of two nodes, with a message on the way: both are visited. -/
theorem tour_oneWay :
    ∃ l r report, Walks quiet (start oneWay {} (some {})) l r ∧ r.report? = some report ∧
      (∃ pre, events l = pre ++ [.workflowComplete] ∧ .workflowComplete ∉ pre) ∧
      ((oneWay.start? = none ∧ landmarks l = []) ∨ ∃ place, Tour oneWay (landmarks l) place) ∧
      report.steps = (visited l).length ∧
      (0 < quiet.config.maxSteps → report.steps ≤ quiet.config.maxSteps) ∧
      report.lastNode = (visited l).getLast? := by
  have hsome : ((start oneWay {} (some {})).stroll quiet
      (.send (.updateVars {}) :: List.replicate 11 (.step 0))).isSome = true := rfl
  have hw := stroll_walks (Option.some_get hsome).symm
  have hr : (Option.get _ hsome).2.report?.isSome = true := rfl
  have hreport := (Option.some_get hr).symm
  exact ⟨_, _, _, hw, hreport, hw.tour quiet_isSandboxed hreport⟩

end Interpreter

end Workflow
