import Mathlib.Data.List.Nodup
import Workflow.Proofs.Interpreter.Tour
import Workflow.Proofs.Vars.Store

/-!
# Runs along a chain

The edges of a chain lead from each of its nodes to the next, in whatever order nodes and edges are
listed (`Definition.IsChain`). A run starts at the head, the one node that no edge leads to, and out
of each node there is one edge or none, so that neither labels nor variables have a say in where it
goes (`Links.leads`).

What is ahead of such a run is known wherever it stands: the nodes it has yet to visit, the edges it
has yet to follow, and how many steps that takes (`Ahead`). Each step takes one away (`Ahead.step`).
So if nobody interferes, the run visits the whole chain and is over then (`Walks.chain`). Scripts
may fail on the way, and leave any variables behind, as long as none asks to wait.
-/

namespace Workflow

/-! ## Chains -/

/-- Edges that lead from each node to the next. -/
inductive Links : List Node → List Edge → Prop where
  /-- there is one node -/
  | last (node : Node) : Links [node] []
  /-- there is one more in front -/
  | link {node next : Node} {rest : List Node} {edge : Edge} {edges : List Edge}
    (hsource : edge.source = node.id) (htarget : edge.target = next.id)
    (h : Links (next :: rest) edges) : Links (node :: next :: rest) (edge :: edges)

/-- A definition of nodes that edges join into one chain. -/
structure Definition.IsChain (d : Definition) (nodes : List Node) (edges : List Edge) : Prop where
  /-- the nodes are listed in some order -/
  nodes_perm : d.nodes.Perm nodes
  /-- and so are the edges -/
  edges_perm : d.edges.Perm edges
  /-- no two nodes have the same id -/
  distinct : (nodes.map (·.id)).Nodup
  /-- the edges lead from each node to the next -/
  links : Links nodes edges

/-- Where a definition leads to from a node: there is no other way to go. -/
inductive Definition.Leads (d : Definition) : List Node → List Edge → Prop where
  /-- nowhere -/
  | last {node : Node} (hnode : d.node? node.id = some node) (hout : d.outgoing node.id = []) :
    Leads d [node] []
  /-- along the only edge -/
  | link {node next : Node} {rest : List Node} {edge : Edge} {edges : List Edge}
    (hnode : d.node? node.id = some node) (hout : d.outgoing node.id = [edge])
    (htarget : edge.target = next.id) (h : Leads d (next :: rest) edges) :
    Leads d (node :: next :: rest) (edge :: edges)

theorem Definition.Leads.node? {d : Definition} {node : Node} {rest : List Node} {edges : List Edge}
    (h : d.Leads (node :: rest) edges) : d.node? node.id = some node := by
  cases h with
  | last hnode => exact hnode
  | link hnode => exact hnode

namespace Links

variable {nodes : List Node} {edges : List Edge}

theorem ne_nil (h : Links nodes edges) : nodes ≠ [] := by
  cases h <;> exact List.cons_ne_nil _ _

/-- Edges lead to all nodes but the first. -/
theorem map_target (h : Links nodes edges) : edges.map (·.target) = nodes.tail.map (·.id) := by
  induction h with
  | last => rfl
  | link _ htarget _ ih => rw [List.map_cons, htarget, ih]; rfl

/-- Edges leave nodes of the chain. -/
theorem source_mem (h : Links nodes edges) : ∀ e ∈ edges, e.source ∈ nodes.map (·.id) := by
  induction h with
  | last => exact List.forall_mem_nil _
  | link hsource _ _ ih =>
    refine List.forall_mem_cons.mpr ⟨hsource ▸ List.mem_cons_self .., fun e he => ?_⟩
    exact List.mem_cons_of_mem _ (ih e he)

/-- **There is one way to go** from each node of a chain. -/
theorem leads {d : Definition} (h : Links nodes edges) (hdistinct : (nodes.map (·.id)).Nodup)
    (hnode : ∀ n ∈ nodes, d.node? n.id = some n)
    (hout : ∀ n ∈ nodes, (d.outgoing n.id).Perm (edges.filter fun e => e.source = n.id)) :
    d.Leads nodes edges := by
  induction h with
  | last node =>
    have hmem := List.mem_singleton_self node
    exact .last (hnode node hmem) (hout node hmem).eq_nil
  | @link node next rest edge edges hsource htarget h ih =>
    obtain ⟨hhere, hnode⟩ := List.forall_mem_cons.mp hnode
    obtain ⟨houthere, hout⟩ := List.forall_mem_cons.mp hout
    obtain ⟨hfresh, hdistinct⟩ := List.nodup_cons.mp hdistinct
    -- no other edge leaves the node, and this one leaves no other node
    have hhere' : ((edge :: edges).filter fun e => e.source = node.id) = [edge] := by
      rw [List.filter_cons, if_pos (decide_eq_true hsource), List.filter_eq_nil_iff.mpr]
      intro e he heq
      have hmem := h.source_mem e he
      rw [of_decide_eq_true heq] at hmem
      exact hfresh hmem
    rw [hhere'] at houthere
    refine .link hhere houthere.eq_singleton htarget (ih hdistinct hnode fun n hn => ?_)
    have hother : ¬decide (edge.source = n.id) = true := fun heq => by
      have hmem : n.id ∈ (next :: rest).map (·.id) := List.mem_map_of_mem hn
      rw [← of_decide_eq_true heq, hsource] at hmem
      exact hfresh hmem
    have hperm := hout n hn
    rw [List.filter_cons, if_neg hother] at hperm
    exact hperm

end Links

theorem find?_eq_of_unique {α : Type} {p : α → Bool} {l : List α} {a : α} (hmem : a ∈ l)
    (ha : p a = true) (honly : ∀ b ∈ l, p b = true → b = a) : l.find? p = some a := by
  cases hfind : l.find? p with
  | none => exact absurd ha (List.find?_eq_none.mp hfind a hmem)
  | some b => rw [honly b (List.mem_of_find?_eq_some hfind) (List.find?_some hfind)]

namespace Definition.IsChain

variable {d : Definition} {nodes : List Node} {edges : List Edge} (h : d.IsChain nodes edges)
include h

/-- Nodes are found by their ids. -/
theorem node?_eq {n : Node} (hn : n ∈ nodes) : d.node? n.id = some n := by
  refine find?_eq_of_unique (h.nodes_perm.mem_iff.mpr hn) (decide_eq_true rfl) fun m hm heq => ?_
  exact List.inj_on_of_nodup_map h.distinct (h.nodes_perm.mem_iff.mp hm) hn (of_decide_eq_true heq)

theorem leads : d.Leads nodes edges :=
  h.links.leads h.distinct (fun _ hn => h.node?_eq hn) fun _ _ => h.edges_perm.filter _

/-- **A chain is begun at its head**, wherever that is listed. -/
theorem start?_eq {node : Node} {rest : List Node} (hnodes : nodes = node :: rest) :
    d.start? = some node := by
  subst hnodes
  have htargets : ∀ id, (d.edges.any fun e => e.target = id) = true ↔ id ∈ rest.map (·.id) := by
    intro id
    have hmap : rest.map (·.id) = edges.map (·.target) := h.links.map_target.symm
    rw [hmap, List.any_eq_true, List.mem_map]
    exact exists_congr fun e => and_congr h.edges_perm.mem_iff decide_eq_true_iff
  have hfresh : node.id ∉ rest.map (·.id) := (List.nodup_cons.mp h.distinct).1
  have hhead : ¬(d.edges.any fun e => e.target = node.id) = true := fun hany =>
    hfresh ((htargets node.id).mp hany)
  have hfind : d.nodes.find? (fun n => !d.edges.any fun e => e.target = n.id) = some node := by
    refine find?_eq_of_unique (h.nodes_perm.mem_iff.mpr (List.mem_cons_self ..)) ?_ ?_
    · rw [Bool.eq_false_iff.mpr hhead]
      rfl
    · intro n hn hfirst
      refine (List.mem_cons.mp (h.nodes_perm.mem_iff.mp hn)).resolve_right fun hrest => ?_
      rw [(htargets n.id).mpr (List.mem_map_of_mem hrest)] at hfirst
      cases hfirst
  rw [start?, hfind]
  rfl

end Definition.IsChain

/-- The edge that an event says is followed. -/
def Event.followed? : Event → Option String
  | edgeStart edge => some edge
  | _ => none

theorem Event.followed?_of_isAside {event : Event} (h : event.isAside = true) :
    event.followed? = none := by
  cases event <;> first | rfl | cases h

/-! ## What scripts leave -/

/-- The key of a failure is not that of waiting. -/
theorem Key.normalize_ofError_ne (id : String) :
    Key.normalize (Key.ofError id) ≠ Key.normalize Vars.waitFlag := by
  intro heq
  have hruns := congrArg (fun key => Key.runs key.toList) heq
  have herror : (Key.ofError id).toList = (Key.normalize id).toList ++ '_' :: "error".toList :=
    String.toList_append ..
  rw [Key.runs_normalize, Key.runs_normalize, herror,
    Key.runs_append_separator _ _ (by decide)] at hruns
  have hlast := congrArg List.getLast? hruns
  have hword : (Key.runs "error".toList).getLast? = some "error".toList := by decide
  rw [List.getLast?_append, hword, Option.some_or] at hlast
  exact absurd hlast (by decide)

namespace Interpreter

/-- A failure that is noted asks for no waiting. -/
theorem isWaiting_varsAfter (node : Node) (o : Sandbox.Outcome) :
    (varsAfter node o).isWaiting = o.vars.isWaiting := by
  rw [varsAfter]
  split
  · rw [Vars.isWaiting, Vars.isWaiting, Vars.get?_set, if_neg (Key.normalize_ofError_ne node.id)]
  · rfl

variable (around : Surroundings)

/-- The variables that visits of nodes leave, one after the other, after so many others. -/
def leftByAll : Nat → Vars → List Node → Vars
  | _, vars, [] => vars
  | steps, vars, node :: rest =>
    leftByAll (steps + 1) (leftBy around { visit := steps + 1 } node vars) rest

/-- What is told of the script of a node. -/
def toldBy (occasion : Occasion) (vars : Vars) (node : Node) : List Event :=
  match scriptOf around node with
  | .script script => eventsOf node (around.execute occasion node.id script vars)
  | _ => []

/-- The script of a node ends without asking to wait. -/
def PassesBy (occasion : Occasion) (vars : Vars) (node : Node) : Prop :=
  match scriptOf around node with
  | .script script => (around.execute occasion node.id script vars).vars.isWaiting = false
  | .nothing => True
  | .broken => False

/-- The scripts of nodes, one after the other, do so after so many visits. -/
def Passes : Nat → Vars → List Node → Prop
  | _, _, [] => True
  | steps, vars, node :: rest =>
    PassesBy around { visit := steps + 1 } vars node ∧
      Passes (steps + 1) (leftBy around { visit := steps + 1 } node vars) rest

/-- How many steps it takes to pass nodes: five for each, and one for each event that its script
tells. -/
def toll : Nat → Vars → List Node → Nat
  | _, _, [] => 0
  | steps, vars, node :: rest =>
    (toldBy around { visit := steps + 1 } vars node).length + 5 +
      toll (steps + 1) (leftBy around { visit := steps + 1 } node vars) rest

variable {around}

/-! ## What is ahead -/

/-- What is ahead of a run along a chain, by where it stands, with which variables and after how
many visits: the nodes it has yet to visit, the edges it has yet to follow, how many steps it has
yet to go, and the variables at the end. -/
inductive Ahead (around : Surroundings) (d : Definition) :
    Phase → Vars → Nat → List String → List String → Nat → Vars → Prop where
  /-- a node is to be visited -/
  | reaching {node : Node} {rest : List Node} {edges : List Edge} {vars : Vars} {steps : Nat}
    (hleads : d.Leads (node :: rest) edges) (hpasses : Passes around steps vars (node :: rest))
    (hvars : vars.isWaiting = false) :
    Ahead around d (.reaching node.id) vars steps ((node :: rest).map (·.id)) (edges.map (·.id))
      (toll around steps vars (node :: rest)) (leftByAll around steps vars (node :: rest))
  /-- it was visited, and its script is to be run -/
  | entered {node : Node} {rest : List Node} {edges : List Edge} {vars : Vars} {steps : Nat}
    (hleads : d.Leads (node :: rest) edges) (hends : PassesBy around { visit := steps } vars node)
    (hpasses : Passes around steps (leftBy around { visit := steps } node vars) rest)
    (hvars : vars.isWaiting = false) :
    Ahead around d (.entered node) vars steps (rest.map (·.id)) (edges.map (·.id))
      ((toldBy around { visit := steps } vars node).length +
        toll around steps (leftBy around { visit := steps } node vars) rest + 4)
      (leftByAll around steps (leftBy around { visit := steps } node vars) rest)
  /-- it was run, and there may be more to tell of it -/
  | telling {node : Node} {rest : List Node} {edges : List Edge} {vars left : Vars}
    {events : List Event} {steps : Nat} (hleads : d.Leads (node :: rest) edges)
    (hpasses : Passes around steps left rest) (hleft : left.isWaiting = false) :
    Ahead around d (.telling node events left) vars steps (rest.map (·.id)) (edges.map (·.id))
      (events.length + toll around steps left rest + 3) (leftByAll around steps left rest)
  /-- the node is to be left -/
  | lingering {node : Node} {rest : List Node} {edges : List Edge} {vars : Vars} {deadline : Nat}
    {steps : Nat} (hleads : d.Leads (node :: rest) edges) (hpasses : Passes around steps vars rest)
    (hvars : vars.isWaiting = false) :
    Ahead around d (.lingering node deadline) vars steps (rest.map (·.id)) (edges.map (·.id))
      (toll around steps vars rest + 2) (leftByAll around steps vars rest)
  /-- it is on its way to a node -/
  | crossing {node : Node} {rest : List Node} {edges : List Edge} {vars : Vars} {deadline : Nat}
    {steps : Nat} (hleads : d.Leads (node :: rest) edges)
    (hpasses : Passes around steps vars (node :: rest)) (hvars : vars.isWaiting = false) :
    Ahead around d (.crossing node.id deadline) vars steps ((node :: rest).map (·.id))
      (edges.map (·.id)) (toll around steps vars (node :: rest) + 1)
      (leftByAll around steps vars (node :: rest))
  /-- all is done -/
  | leaving {vars : Vars} {steps : Nat} :
    Ahead around d (.leaving .completed) vars steps [] [] 1 vars
  /-- the end was told -/
  | ended {vars : Vars} {steps : Nat} : Ahead around d (.ended .completed) vars steps [] [] 0 vars

/-- Nobody interferes with a run: it was not told to stop, and there is no message for it. -/
structure IsLeftAlone (r : Interpreter) : Prop where
  /-- it was not told to stop -/
  cancelled : r.cancelled = false
  /-- no message is there -/
  queue : ∀ box ∈ r.inbox, box.queue = []

theorem IsLeftAlone.take? {r : Interpreter} (h : r.IsLeftAlone) : r.take? = none := by
  rw [Interpreter.take?]
  split
  · next hbox => cases h.queue _ hbox
  · rfl

section Steps

variable {d : Definition} {r r' : Interpreter} {visits follows : List String} {left : Nat}
  {final : Vars}

/-- **A step takes one thing away** of what is ahead: what it tells. -/
theorem Ahead.step {now : Nat} {told : Option Event}
    (h : Ahead around d r.phase r.vars r.steps visits follows left final) (hd : r.definition = d)
    (halone : r.IsLeftAlone) (hsound : r.Sound)
    (hlimit : visits ≠ [] → 0 < around.config.maxSteps → r.steps < around.config.maxSteps)
    (hstep : Steps around now r told r') :
    ∃ visits' follows' left', Ahead around d r'.phase r'.vars r'.steps visits' follows' left' final ∧
      visits = told.toList.filterMap Event.visited? ++ visits' ∧
      follows = told.toList.filterMap Event.followed? ++ follows' ∧ left = left' + 1 ∧
      r'.definition = d ∧ r'.IsLeftAlone := by
  subst hd
  have hcancelled := halone.cancelled
  have htake := halone.take?
  cases hstep with
  | aborted _ hcancel => exact nomatch hcancel.symm.trans hcancelled
  | heard _ _ ht => exact nomatch ht.symm.trans htake
  | resumed _ _ ht => exact nomatch ht.symm.trans htake
  | deserted hp =>
    rw [hp] at h
    cases h
  | halted hp _ hnone =>
    rw [hp] at h
    cases h with
    | reaching hleads =>
      obtain ⟨hpos, hover⟩ := hnone _ hleads.node?
      exact absurd (hlimit (List.cons_ne_nil _ _) hpos) (Nat.not_lt.mpr hover)
  | entered hp _ hnode =>
    rw [hp] at h
    cases h with
    | reaching hleads hpasses hvars =>
      obtain rfl := Option.some.inj (hnode.symm.trans hleads.node?)
      refine ⟨_, _, _, .entered hleads hpasses.1 hpasses.2 hvars, rfl, rfl, ?_, rfl, hcancelled,
        halone.queue⟩
      rw [toll]
      dsimp only
      omega
  | @ran node script hp _ hscript =>
    rw [hp] at h
    cases h with
    | entered hleads hends hpasses hvars =>
      have htold : toldBy around { visit := r.steps } r.vars node =
          eventsOf node (around.execute r.occasion node.id script r.vars) := by
        rw [toldBy, hscript, occasion]
      have hleft : leftBy around { visit := r.steps } node r.vars =
          varsAfter node (around.execute r.occasion node.id script r.vars) := by
        rw [leftBy, hscript, occasion]
      rw [PassesBy, hscript] at hends
      rw [hleft] at hpasses ⊢
      rw [htold]
      exact ⟨_, _, _, .telling hleads hpasses ((isWaiting_varsAfter ..).trans hends), rfl, rfl, rfl,
        rfl, hcancelled, halone.queue⟩
  | @passed node hp _ hscript =>
    rw [hp] at h
    cases h with
    | entered hleads hends hpasses hvars =>
      have htold : toldBy around { visit := r.steps } r.vars node = [] := by
        rw [toldBy, hscript]
      have hleft : leftBy around { visit := r.steps } node r.vars = r.vars := by
        rw [leftBy, hscript]
      rw [hleft] at hpasses ⊢
      rw [htold]
      exact ⟨_, _, _, .telling hleads hpasses hvars, rfl, rfl, rfl, rfl, hcancelled, halone.queue⟩
  | broke hp _ hscript =>
    rw [hp] at h
    cases h with
    | entered _ hends =>
      rw [PassesBy, hscript] at hends
      exact hends.elim
  | @told _ event _ _ hp =>
    have haside := Event.isAside_of_isOfScript (hsound _ _ _ hp _ List.mem_cons_self)
    rw [hp] at h
    cases h with
    | telling hleads hpasses hleft =>
      refine ⟨_, _, _, .telling hleads hpasses hleft, ?_, ?_, ?_, rfl, hcancelled, halone.queue⟩
      · simp [Event.visited?_of_isAside haside]
      · simp [Event.followed?_of_isAside haside]
      · rw [List.length_cons]
        dsimp only
        omega
  | waits hp hwaits =>
    rw [hp] at h
    cases h with
    | telling _ _ hleft => exact nomatch hwaits.symm.trans hleft
  | lingers hp =>
    rw [hp] at h
    cases h with
    | telling hleads hpasses hleft =>
      refine ⟨_, _, _, .lingering hleads hpasses hleft, rfl, rfl, ?_, rfl, hcancelled, halone.queue⟩
      rw [List.length_nil]
      dsimp only
      omega
  | departed hp _ _ _ hedge =>
    rw [hp] at h
    cases h with
    | lingering hleads hpasses hvars =>
      cases hleads with
      | last _ hout =>
        rw [hout] at hedge
        cases hedge
      | link _ hout htarget hleads =>
        rw [hout] at hedge
        cases hedge
        rw [htarget]
        exact ⟨_, _, _, .crossing hleads hpasses hvars, rfl, rfl, rfl, rfl, hcancelled,
          halone.queue⟩
  | finished hp _ _ _ hnone =>
    rw [hp] at h
    cases h with
    | lingering hleads =>
      cases hleads with
      | last => exact ⟨_, _, _, .leaving, rfl, rfl, rfl, rfl, hcancelled, halone.queue⟩
      | link _ hout =>
        rw [hout] at hnone
        cases hnone
  | arrived hp =>
    rw [hp] at h
    cases h with
    | crossing hleads hpasses hvars =>
      exact ⟨_, _, _, .reaching hleads hpasses hvars, rfl, rfl, rfl, rfl, hcancelled, halone.queue⟩
  | ended hp =>
    rw [hp] at h
    cases h with
    | leaving => exact ⟨_, _, _, .ended, rfl, rfl, rfl, rfl, hcancelled, halone.queue⟩

/-- **A run that is not over goes on** sooner or later. -/
theorem Ahead.goes_on (h : Ahead around d r.phase r.vars r.steps visits follows left final)
    (hpos : 0 < left) (hd : r.definition = d) (halone : r.IsLeftAlone) :
    ∃ moment, ∀ now, moment ≤ now → (r.step around now).isSome = true := by
  subst hd
  have hcancelled := halone.cancelled
  have htake := halone.take?
  generalize hp : r.phase = phase at h
  cases h with
  | reaching =>
    refine ⟨0, fun now _ => ?_⟩
    rw [Interpreter.step, hp]
    simp only [htake, Option.isSome_some]
  | entered =>
    refine ⟨0, fun now _ => ?_⟩
    rw [Interpreter.step, hp]
    simp only [hcancelled]
    split
    · rfl
    · split <;> rfl
  | @telling _ _ _ _ _ events =>
    refine ⟨0, fun now _ => ?_⟩
    rw [Interpreter.step, hp]
    cases events with
    | cons => rfl
    | nil =>
      dsimp only
      split <;> rfl
  | @lingering _ _ _ _ deadline =>
    refine ⟨deadline, fun now hnow => ?_⟩
    rw [Interpreter.step, hp]
    simp only [pause, hcancelled, htake, if_pos hnow]
    rfl
  | @crossing _ _ _ _ deadline =>
    refine ⟨deadline, fun now hnow => ?_⟩
    rw [Interpreter.step, hp]
    simp only [pause, hcancelled, htake, if_pos hnow]
    rfl
  | leaving => exact ⟨0, fun now _ => by rw [Interpreter.step, hp]; rfl⟩
  | ended => exact absurd hpos (Nat.lt_irrefl 0)

/-- A run is over if nothing is ahead of it, and it is reported as completed then. -/
theorem Ahead.isOver_iff (h : Ahead around d r.phase r.vars r.steps visits follows left final) :
    r.isOver = true ↔ left = 0 := by
  rw [isOver]
  generalize r.phase = phase at h
  cases h with
  | reaching => exact iff_of_false Bool.false_ne_true (by rw [toll]; omega)
  | ended => exact iff_of_true rfl rfl
  | _ => exact iff_of_false Bool.false_ne_true (Nat.succ_ne_zero _)

theorem Ahead.report (h : Ahead around d r.phase r.vars r.steps visits follows 0 final) :
    visits = [] ∧ follows = [] ∧ r.report? = some ⟨.completed, final, r.lastNode, r.steps⟩ := by
  rw [report?]
  generalize hleft : 0 = left at h
  generalize hp : r.phase = phase at h
  generalize hv : r.vars = vars at h
  cases h with
  | reaching =>
    rw [toll] at hleft
    omega
  | ended => exact ⟨rfl, rfl, hv ▸ rfl⟩
  | _ => exact absurd hleft (Nat.succ_ne_zero _).symm

end Steps

/-! ## Walks -/

/-- Whether a turn is none in which somebody interferes. -/
def Turn.isHarmless : Turn → Bool
  | step _ | close => true
  | cancel | send _ => false

/-- The edges that were told to be followed, in order. -/
def followed (l : List Stride) : List String := (events l).filterMap Event.followed?

/-- How many steps were taken. -/
def paces (l : List Stride) : Nat := l.countP (·.turn.isStep)

theorem followed_snoc (l : List Stride) (st : Stride) :
    followed (l ++ [st]) = followed l ++ st.told.toList.filterMap Event.followed? := by
  rw [followed, events_snoc, List.filterMap_append]
  rfl

theorem paces_snoc (l : List Stride) (st : Stride) :
    paces (l ++ [st]) = paces l + st.turn.isStep.toNat :=
  countP_snoc Turn.isStep l st

/-- **What was done and what is ahead** make up the whole chain. -/
structure Follows (around : Surroundings) (d : Definition) (nodes : List Node) (edges : List Edge)
    (vars : Vars) (l : List Stride) (r : Interpreter) : Prop where
  /-- the definition is as it was -/
  definition : r.definition = d
  /-- nobody interferes -/
  alone : r.IsLeftAlone
  /-- what is not done is ahead -/
  ahead : ∃ visits follows left,
    Ahead around d r.phase r.vars r.steps visits follows left (leftByAll around 0 vars nodes) ∧
      visited l ++ visits = nodes.map (·.id) ∧ followed l ++ follows = edges.map (·.id) ∧
      paces l + left = toll around 0 vars nodes

section Chain

variable {d : Definition} {nodes : List Node} {edges : List Edge} {vars : Vars}
  {inbox : Option Inbox} {l : List Stride} {r : Interpreter}

theorem follows_start (hchain : d.IsChain nodes edges) (hvars : vars.isWaiting = false)
    (hpasses : Passes around 0 vars nodes) (hinbox : ∀ box ∈ inbox, box.queue = []) :
    Follows around d nodes edges vars [] (start d vars inbox) := by
  obtain ⟨node, rest, rfl⟩ := List.exists_cons_of_ne_nil hchain.links.ne_nil
  have hphase : (start d vars inbox).phase = .reaching node.id := by
    rw [start, hchain.start?_eq rfl]
  refine ⟨rfl, ⟨rfl, hinbox⟩, _, _, _, ?_, rfl, rfl, Nat.zero_add _⟩
  rw [hphase]
  exact .reaching hchain.leads hpasses hvars

theorem Walks.follows (hs : around.IsSandboxed) (hchain : d.IsChain nodes edges)
    (hvars : vars.isWaiting = false) (hpasses : Passes around 0 vars nodes)
    (hlimit : around.config.maxSteps = 0 ∨ nodes.length ≤ around.config.maxSteps)
    (hinbox : ∀ box ∈ inbox, box.queue = []) (hw : Walks around (start d vars inbox) l r)
    (hharmless : ∀ st ∈ l, st.turn.isHarmless = true) :
    Follows around d nodes edges vars l r := by
  induction hw with
  | nil => exact follows_start hchain hvars hpasses hinbox
  | @snoc l r r' turn told hw ht ih =>
    obtain ⟨hfront, hlast⟩ := List.forall_mem_append.mp hharmless
    obtain ⟨hd, halone, visits, follows, left, hahead, hvisits, hfollows, hleft⟩ := ih hfront
    have hturn := List.forall_mem_singleton.mp hlast
    cases turn with
    | step now =>
      have hsteps : r.steps = (visited l).length := (hw.toured hs).steps
      have hroom : visits ≠ [] → 0 < around.config.maxSteps → r.steps < around.config.maxSteps := by
        intro hne hpos
        have hlength := congrArg List.length hvisits
        have hvisit := List.length_pos_iff.mpr hne
        rw [List.length_append, List.length_map] at hlength
        omega
      obtain ⟨visits', follows', left', hahead', rfl, rfl, rfl, hd', halone'⟩ :=
        hahead.step hd halone (hw.sound hs (sound_start d vars inbox)) hroom (step_cases ht)
      refine ⟨hd', halone', visits', follows', left', hahead', ?_, ?_, ?_⟩
      · rw [visited_snoc, List.append_assoc, hvisits]
      · rw [followed_snoc, List.append_assoc, hfollows]
      · rw [paces_snoc, Nat.add_assoc, ← hleft, Nat.add_comm left']
        rfl
    | close =>
      cases ht
      refine ⟨hd, ⟨halone.cancelled, fun box hbox => ?_⟩, visits, follows, left, hahead, ?_, ?_, ?_⟩
      · obtain ⟨old, hold, rfl⟩ := Option.map_eq_some_iff.mp hbox
        exact halone.queue old hold
      · rw [visited_snoc]
        simpa using hvisits
      · rw [followed_snoc]
        simpa using hfollows
      · rw [paces_snoc]
        exact hleft
    | cancel => cases hturn
    | send => cases hturn

/-- A walk can be carried on to the end of the run, if that is at most so many steps away. -/
theorem Walks.exists_over (hs : around.IsSandboxed) (hchain : d.IsChain nodes edges)
    (hvars : vars.isWaiting = false) (hpasses : Passes around 0 vars nodes)
    (hlimit : around.config.maxSteps = 0 ∨ nodes.length ≤ around.config.maxSteps)
    (hinbox : ∀ box ∈ inbox, box.queue = []) (n : Nat)
    (hw : Walks around (start d vars inbox) l r) (hharmless : ∀ st ∈ l, st.turn.isHarmless = true)
    (hn : toll around 0 vars nodes ≤ paces l + n) :
    ∃ l r, Walks around (start d vars inbox) l r ∧ (∀ st ∈ l, st.turn.isHarmless = true) ∧
      r.isOver = true := by
  induction n generalizing l r with
  | zero =>
    obtain ⟨-, -, visits, follows, left, hahead, -, -, hleft⟩ :=
      hw.follows hs hchain hvars hpasses hlimit hinbox hharmless
    exact ⟨l, r, hw, hharmless, hahead.isOver_iff.mpr (by omega)⟩
  | succ n ih =>
    obtain ⟨hd, halone, visits, follows, left, hahead, -, -, hleft⟩ :=
      hw.follows hs hchain hvars hpasses hlimit hinbox hharmless
    rcases Nat.eq_zero_or_pos left with hzero | hpos
    · exact ⟨l, r, hw, hharmless, hahead.isOver_iff.mpr hzero⟩
    · obtain ⟨moment, hmoment⟩ := hahead.goes_on hpos hd halone
      obtain ⟨⟨told, r'⟩, hstep⟩ := Option.isSome_iff_exists.mp (hmoment moment (Nat.le_refl _))
      have hw' : Walks around (start d vars inbox) (l ++ [⟨r, .step moment, told, r'⟩]) r' :=
        hw.snoc hstep
      refine ih hw' (List.forall_mem_append.mpr ⟨hharmless, List.forall_mem_singleton.mpr rfl⟩) ?_
      rw [paces_snoc]
      change _ ≤ paces l + 1 + n
      omega

/-- **Runs along a chain.** If nobody interferes and no script asks to wait, a run along a chain
visits its nodes in their order and follows its edges, however these are listed and labelled, and
whatever scripts do to the variables. It goes on until it has visited each node once, has followed
each edge once and is completed; and it always comes to that. -/
theorem Walks.chain (hs : around.IsSandboxed) (hchain : d.IsChain nodes edges)
    (hvars : vars.isWaiting = false) (hpasses : Passes around 0 vars nodes)
    (hlimit : around.config.maxSteps = 0 ∨ nodes.length ≤ around.config.maxSteps)
    (hinbox : ∀ box ∈ inbox, box.queue = []) :
    (∃ l r, Walks around (start d vars inbox) l r ∧ (∀ st ∈ l, st.turn.isHarmless = true) ∧
      r.isOver = true) ∧
    ∀ l r, Walks around (start d vars inbox) l r → (∀ st ∈ l, st.turn.isHarmless = true) →
      visited l <+: nodes.map (·.id) ∧ followed l <+: edges.map (·.id) ∧
      (r.isOver = false → paces l < toll around 0 vars nodes ∧
        ∃ moment, ∀ now, moment ≤ now → (r.step around now).isSome = true) ∧
      (r.isOver = true → paces l = toll around 0 vars nodes ∧
        visited l = nodes.map (·.id) ∧ followed l = edges.map (·.id) ∧
        ∃ last, nodes.getLast? = some last ∧
          r.report? = some ⟨.completed, leftByAll around 0 vars nodes, some last.id,
            nodes.length⟩) := by
  have hfollows : ∀ l r, Walks around (start d vars inbox) l r →
      (∀ st ∈ l, st.turn.isHarmless = true) → Follows around d nodes edges vars l r :=
    fun _ _ hw hharmless => hw.follows hs hchain hvars hpasses hlimit hinbox hharmless
  constructor
  · exact Walks.exists_over hs hchain hvars hpasses hlimit hinbox _ .nil (List.forall_mem_nil _)
      (Nat.le_add_left ..)
  · intro l r hw hharmless
    obtain ⟨hd, halone, visits, follows, left, hahead, hvisits, hfollows, hleft⟩ :=
      hfollows l r hw hharmless
    refine ⟨⟨visits, hvisits⟩, ⟨follows, hfollows⟩, fun hopen => ?_, fun hover => ?_⟩
    · have hpos : 0 < left := Nat.pos_of_ne_zero fun hzero => by
        rw [hahead.isOver_iff.mpr hzero] at hopen
        cases hopen
      exact ⟨by omega, hahead.goes_on hpos hd halone⟩
    · obtain rfl := hahead.isOver_iff.mp hover
      obtain ⟨rfl, rfl, hreport⟩ := hahead.report
      rw [List.append_nil] at hvisits hfollows
      have htoured := hw.toured hs
      refine ⟨hleft, hvisits, hfollows, _, List.getLast?_eq_some_getLast hchain.links.ne_nil, ?_⟩
      rw [hreport, htoured.steps, htoured.lastNode, hvisits, List.length_map, List.getLast?_map,
        List.getLast?_eq_some_getLast hchain.links.ne_nil]
      rfl

end Chain

/-- A node whose script is no program. -/
def garbled : Node := { id := "a", script := some "x" }

/-- A node whose script does nothing. -/
def idle : Node := { id := "b", script := some "local x = 1" }

/-- The way out of the first. -/
def fallback : Edge := { id := "ab", source := "a", target := "b", label := some "else" }

/-- The way out of the second, under a condition that does not hold. -/
def guarded : Edge := { id := "bc", source := "b", target := "c", label := some "x == 1" }

/-- A chain of three nodes, listed in another order. -/
def shuffled : Definition where
  nodes := [{ id := "c" }, idle, garbled]
  edges := [guarded, fallback]

theorem isChain_shuffled : shuffled.IsChain [garbled, idle, { id := "c" }] [fallback, guarded] where
  nodes_perm := (List.reverse_perm [garbled, idle, { id := "c" }])
  edges_perm := .swap ..
  distinct := by decide
  links := .link rfl rfl (.link rfl rfl (.last _))

theorem passes_shuffled : Passes quiet 0 {} [garbled, idle, { id := "c" }] := by
  refine ⟨?_, ?_, trivial, trivial⟩
  · change (quiet.execute _ _ _ _).vars.isWaiting = false
    decide +kernel
  · change (quiet.execute _ _ _ _).vars.isWaiting = false
    decide +kernel

/-- Neither a script that fails nor a condition that does not hold keeps a run from the end of the
chain. -/
theorem shuffled_completed : shuffled.IsChain [garbled, idle, { id := "c" }] [fallback, guarded] ∧
    ∃ l r, Walks quiet (start shuffled {} none) l r ∧ visited l = ["a", "b", "c"] ∧
      followed l = ["ab", "bc"] ∧ ∃ vars, r.report? = some ⟨.completed, vars, some "c", 3⟩ := by
  have hinbox : ∀ box ∈ (none : Option Inbox), box.queue = [] := nofun
  obtain ⟨⟨l, r, hw, hharmless, hover⟩, hall⟩ := Walks.chain quiet_isSandboxed isChain_shuffled rfl
    passes_shuffled (Or.inr (by decide)) hinbox
  obtain ⟨-, hvisited, hfollowed, last, hlast, hreport⟩ := (hall l r hw hharmless).2.2.2 hover
  obtain rfl := Option.some.inj hlast
  exact ⟨isChain_shuffled, l, r, hw, hvisited, hfollowed, _, hreport⟩

end Interpreter

end Workflow
