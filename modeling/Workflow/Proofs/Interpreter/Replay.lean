import Workflow.Proofs.Interpreter.Stride

/-!
# Replaying a run

Variables change in many places: scripts write them, a failure of a script is noted, a
resume forgets the wait, and messages replace them at every suspension. Each change is
told, so a watcher who takes over the variables shown last has those of the run.

Only while a script is being told do the two part: the run holds the variables from before
the script, and the watcher is on the way to those it left. So the invariant (`Mirrors`)
speaks of a run when all is told that is left to tell of a script: of what is `untold`, and
of the `outcome`. Wherever the run does anything with its variables nothing is untold, and
the outcome is what it holds (`Walks.replayed`).
-/

namespace Workflow

/-- Whether a run is behind a script, with something left to tell or to take over. -/
def Phase.isTelling : Phase → Bool
  | telling .. => true
  | _ => false

theorem Phase.isTelling_of_hears {phase : Phase} (h : phase.hears = true) :
    phase.isTelling = false := by
  cases phase <;> first | rfl | cases h

theorem Phase.isTelling_of_heeds {phase : Phase} (h : phase.heeds = true) :
    phase.isTelling = false := by
  cases phase <;> first | rfl | cases h

namespace Interpreter

/-! ## The invariant -/

/-- What is left to tell of a script. -/
def untold (r : Interpreter) : List Event :=
  match r.phase with
  | .telling _ rest _ => rest
  | _ => []

/-- The variables when nothing is left to tell. -/
def outcome (r : Interpreter) : Vars :=
  match r.phase with
  | .telling _ _ vars => vars
  | _ => r.vars

/-- **Mirrors**: who starts from some variables and replays some events, and what is left to
tell, has the variables of the run. -/
def Mirrors (vars : Vars) (events : List Event) (r : Interpreter) : Prop :=
  vars.replay (events ++ r.untold) = r.outcome

/-- Outside of scripts the variables of a run are those shown last. -/
theorem mirrors_iff {vars : Vars} {events : List Event} {r : Interpreter}
    (hp : r.phase.isTelling = false) : Mirrors vars events r ↔ vars.replay events = r.vars := by
  unfold Mirrors untold outcome
  split
  · next hp' =>
    rw [hp'] at hp
    cases hp
  · rw [List.append_nil]

theorem mirrors_start (d : Definition) (vars : Vars) (inbox : Option Inbox) :
    Mirrors vars [] (start d vars inbox) := by
  refine (mirrors_iff ?_).mpr rfl
  rw [start]
  dsimp only
  split <;> rfl

/-- What is told of a script shows the variables that it leaves, also if it fails. -/
theorem replay_eventsOf {vars : Vars} {o : Sandbox.Outcome} (h : vars.replay o.told = o.vars)
    (node : Node) : vars.replay (eventsOf node o) = varsAfter node o := by
  unfold eventsOf
  cases he : o.error with
  | none =>
    rw [varsAfter, he]
    exact h
  | some error =>
    -- the failure is told, and then the variables with the note of it
    change vars.replay (o.told ++ ([.nodeError node.id error] ++ [_])) = _
    rw [Vars.replay_append, Vars.replay_append]
    exact Vars.latest_singleton ..

/-! ## Steps -/

/-- A message that changes the variables shows them. -/
theorem replay_apply {r r' : Interpreter} {m : Control} {told : Option Event}
    (h : r.apply m = (told, r')) : r.vars.replay told.toList = r'.vars := by
  cases m <;> cases h <;> rfl

section Steps

variable {around : Surroundings} {vars : Vars} {events : List Event} {r r' : Interpreter}
  {told : Option Event}

/-- Outside of scripts a step has to show what it makes of the variables. -/
theorem Mirrors.snoc (h : Mirrors vars events r) (hp : r.phase.isTelling = false)
    (hp' : r'.phase.isTelling = false) (hshow : r.vars.replay told.toList = r'.vars) :
    Mirrors vars (events ++ told.toList) r' := by
  rw [mirrors_iff hp']
  rw [Vars.replay_append, (mirrors_iff hp).mp h]
  exact hshow

/-- A step keeps the invariant. -/
theorem Mirrors.step (hs : around.IsSandboxed) {now : Nat} (h : Mirrors vars events r)
    (hstep : Steps around now r told r') : Mirrors vars (events ++ told.toList) r' := by
  cases hstep with
  | aborted hheeds => exact h.snoc (Phase.isTelling_of_heeds hheeds) rfl rfl
  | heard hears _ ht ha =>
    obtain ⟨rest, isOpen, -, rfl⟩ := take?_cases ht
    have hp := Phase.isTelling_of_hears hears
    have hshow := replay_apply ha
    exact h.snoc hp ((congrArg _ (apply_keeps ha).1).trans hp) hshow
  | resumed hp _ ht =>
    exact h.snoc (by rw [hp]; rfl) rfl (Vars.latest_singleton ..)
  | @ran node script hp =>
    -- the script is run on the variables shown last
    have hvars := (mirrors_iff (by rw [hp]; rfl)).mp h
    change vars.replay ((events ++ []) ++ eventsOf node _) = varsAfter node _
    rw [List.append_nil, Vars.replay_append, hvars]
    exact replay_eventsOf (hs.vars r.occasion node.id script r.vars) node
  | passed hp =>
    have hvars := (mirrors_iff (by rw [hp]; rfl)).mp h
    change vars.replay ((events ++ []) ++ []) = r.vars
    rw [List.append_nil, List.append_nil]
    exact hvars
  | @told node event rest after hp =>
    have hall : vars.replay (events ++ r.untold) = r.outcome := h
    rw [untold, outcome, hp] at hall
    change vars.replay ((events ++ [event]) ++ rest) = after
    rw [List.append_assoc]
    exact hall
  | waits hp =>
    have hall : vars.replay (events ++ r.untold) = r.outcome := h
    rw [untold, outcome, hp, List.append_nil] at hall
    refine (mirrors_iff rfl).mpr ?_
    rw [Vars.replay_append]
    exact hall
  | lingers hp =>
    have hall : vars.replay (events ++ r.untold) = r.outcome := h
    rw [untold, outcome, hp, List.append_nil] at hall
    exact (mirrors_iff rfl).mpr ((congrArg _ (List.append_nil events)).trans hall)
  | deserted hp => exact h.snoc (by rw [hp]; rfl) rfl rfl
  | halted hp => exact h.snoc (by rw [hp]; rfl) rfl rfl
  | entered hp => exact h.snoc (by rw [hp]; rfl) rfl rfl
  | broke hp => exact h.snoc (by rw [hp]; rfl) rfl rfl
  | departed hp => exact h.snoc (by rw [hp]; rfl) rfl rfl
  | finished hp => exact h.snoc (by rw [hp]; rfl) rfl rfl
  | arrived hp => exact h.snoc (by rw [hp]; rfl) rfl rfl
  | ended hp => exact h.snoc (by rw [hp]; rfl) rfl rfl

end Steps

/-- The invariant holds all along. -/
theorem Walks.mirrors {around : Surroundings} (hs : around.IsSandboxed) {d : Definition}
    {vars : Vars} {inbox : Option Inbox} {l : List Stride} {r : Interpreter}
    (h : Walks around (start d vars inbox) l r) : Mirrors vars (events l) r := by
  induction h with
  | nil => exact mirrors_start d vars inbox
  | @snoc l r r' turn told _ ht ih =>
    rw [events_snoc]
    cases turn with
    | step now => exact ih.step hs (step_cases ht)
    | _ =>
      -- from outside nothing is told and no variable changed
      cases ht
      exact (congrArg (Mirrors vars · _) (List.append_nil _)).mpr ih

/-! ## What a watcher knows -/

/-- A run begins to wait with the variables shown last. -/
theorem Walks.waits_mirrored {around : Surroundings} (hs : around.IsSandboxed) {d : Definition}
    {vars : Vars} {inbox : Option Inbox} {l : List Stride} {st : Stride}
    (h : Walks around (start d vars inbox) l st.before)
    (ht : st.before.take around st.turn = some (st.told, st.after)) {node : String}
    {reason : Option String} (htold : st.told = some (.nodeWait node reason)) :
    st.after.vars = vars.replay (events l) ∧ reason = st.after.vars.waitReason? := by
  have hsound := h.sound hs (sound_start d vars inbox)
  have hmirrors : vars.replay (events l ++ st.before.untold) = st.before.outcome := h.mirrors hs
  obtain ⟨before, turn, told, after⟩ := st
  dsimp only at ht htold hsound hmirrors ⊢
  subst htold
  cases turn with
  | step now =>
    generalize heq : some (Event.nodeWait node reason) = told at ht
    cases step_cases ht with
    | waits hp =>
      cases heq
      rw [untold, outcome, hp, List.append_nil] at hmirrors
      exact ⟨hmirrors.symm, rfl⟩
    -- no script tells that a run waits, and no message does
    | told hp =>
      cases heq
      cases hsound _ _ _ hp _ List.mem_cons_self
    | heard _ _ _ ha =>
      rcases (apply_keeps ha).2.2.2.2 with hnone | ⟨_, hvars⟩
      · exact nomatch heq.trans hnone
      · exact nomatch heq.trans hvars
    | _ => cases heq
  | _ => cases ht

/-- **Snapshots tell all.** Whatever scripts do, whether they fail, and whatever is sent:
who replays what was told has the variables with which an edge is chosen, and so knows which
is; has those with which a run begins to wait; and has in the end those of the report. -/
theorem Walks.replayed {around : Surroundings} (hs : around.IsSandboxed) {d : Definition}
    {vars : Vars} {inbox : Option Inbox} {l : List Stride} {r : Interpreter}
    (h : Walks around (start d vars inbox) l r) :
    (∀ front st rest node, l = front ++ st :: rest → st.Chooses node →
      st.before.vars = vars.replay (events front) ∧
        st.told = (Choice.chooseEdge (st.before.definition.outgoing node.id)
          (vars.replay (events front)) node).map fun edge => .edgeStart edge.id) ∧
    (∀ front st rest node reason, l = front ++ st :: rest →
      st.told = some (.nodeWait node reason) →
      st.after.vars = vars.replay (events front) ∧
        reason = (vars.replay (events front)).waitReason?) ∧
    ∀ report, r.report? = some report → report.vars = vars.replay (events l) := by
  refine ⟨?_, ?_, ?_⟩
  · rintro front st rest node rfl hchooses
    obtain ⟨hfront, ht, -⟩ := h.split
    have hp : st.before.phase.isTelling = false := by
      obtain ⟨_, _, -, hp, -⟩ := hchooses
      rw [hp]
      rfl
    have hvars := (mirrors_iff hp).mp (hfront.mirrors hs)
    refine ⟨hvars.symm, ?_⟩
    rw [hvars]
    exact hchooses.told_eq ht
  · rintro front st rest node reason rfl htold
    obtain ⟨hfront, ht, -⟩ := h.split
    obtain ⟨hvars, hreason⟩ := hfront.waits_mirrored hs ht htold
    exact ⟨hvars, hvars ▸ hreason⟩
  · intro report hr
    have hmirrors := h.mirrors hs
    rw [report?] at hr
    split at hr
    · next ending hp =>
      cases hr
      exact ((mirrors_iff (by rw [hp]; rfl)).mp hmirrors).symm
    · cases hr

/-- A run that begins to wait, gets new variables, is resumed, and then chooses: the whole
of it, cut before the choice. -/
def waitAndChoose : List Turn × List Turn :=
  (.step 0 :: .step 0 :: .step 0 :: .send (.updateVars { fields := [("x", .bool true)] }) ::
    .send (.resume "a") :: List.replicate 2 (.step 0), List.replicate 6 (.step 0))

/-- What that run told up to the choice shows the variables it is made with. -/
theorem replayed_waitAndChoose :
    ∃ front st rest r report,
      Walks quiet (start oneWay { fields := [(Vars.waitFlag, .bool true)] } (some {}))
        (front ++ st :: rest) r ∧
      st.Chooses { id := "a" } ∧ r.report? = some report ∧
      st.before.vars =
        Vars.replay { fields := [(Vars.waitFlag, .bool true)] } (events front) ∧
      st.told = (Choice.chooseEdge (st.before.definition.outgoing "a")
        (Vars.replay { fields := [(Vars.waitFlag, .bool true)] } (events front)) { id := "a" }).map
          (fun edge => .edgeStart edge.id) ∧
      report.vars =
        Vars.replay { fields := [(Vars.waitFlag, .bool true)] } (events (front ++ st :: rest)) := by
  have hsome : ((start oneWay { fields := [(Vars.waitFlag, .bool true)] } (some {})).stroll quiet
      waitAndChoose.1).isSome = true := rfl
  have hstep : ((Option.get _ hsome).2.take quiet (.step 0)).isSome = true := rfl
  have hrest : ((Option.get _ hstep).2.stroll quiet waitAndChoose.2).isSome = true := rfl
  have hr : (Option.get _ hrest).2.report?.isSome = true := rfl
  obtain ⟨hw, -⟩ := Walks.of_strolls (Option.some_get hsome).symm (Option.some_get hstep).symm
    (Option.some_get hrest).symm
  have hchooses : Stride.Chooses ⟨(Option.get _ hsome).2, .step 0, (Option.get _ hstep).1,
      (Option.get _ hstep).2⟩ { id := "a" } := ⟨0, 0, rfl, rfl, rfl, rfl, Nat.le_refl 0⟩
  have hreport := (Option.some_get hr).symm
  obtain ⟨hchoice, -, hend⟩ := hw.replayed quiet_isSandboxed
  obtain ⟨hvars, htold⟩ := hchoice _ _ _ _ rfl hchooses
  exact ⟨_, _, _, _, _, hw, hchooses, hreport, hvars, htold, hend _ hreport⟩

end Interpreter

end Workflow
