import Workflow.Proofs.Engine.Enlisted
import Workflow.Proofs.Engine.Relay
import Workflow.Proofs.Interpreter.Replay
import Workflow.Proofs.Interpreter.Tour

/-!
# What a record shows of a run

The record of a run is written from two sides. The driver notes in it what the run tells, event by
event; and when the walk is over, the position and the variables of its report are put in their
place. Both come to the same (`Roams.shows_observed`): at any time the record shows what the events
say that the driver has seen so far, and when the run is settled the driver has seen all of them.

The invariant is `Witnessed`. What was seen and what is left to see is what the run told
(`run_ledger`), and what it told are the events of a row of strides (`run_strides`), so what is
known of such rows holds of the run.
-/

namespace Workflow

/-- **Shows**: a record shows what some events tell of a run that began with some variables. -/
structure RunRecord.Shows (vars : Vars) (events : List Event) (r : RunRecord) : Prop where
  /-- the node is the one that was said last to be visited, if any -/
  currentNode : r.currentNode = (events.filterMap Event.visited?).getLast?
  /-- the variables are those shown last, or those at the beginning -/
  vars : r.vars = some (vars.replay events)

section Shows

variable {vars : Vars} {events : List Event} {r r' : RunRecord}

theorem RunRecord.Shows.of_eq (h : r.Shows vars events) (hnode : r'.currentNode = r.currentNode)
    (hvars : r'.vars = r.vars) : r'.Shows vars events :=
  ⟨hnode.trans h.currentNode, hvars.trans h.vars⟩

/-- Who notes an event shows it. -/
theorem RunRecord.Shows.noted (h : r.Shows vars events) (event : Event) (clock : Instant) :
    (RunTable.noted (r.touch clock) event).Shows vars (events ++ [event]) := by
  constructor
  · rw [List.filterMap_append, List.getLast?_append, ← h.currentNode]
    cases event <;> rfl
  · rw [Vars.replay_append, Vars.replay, Vars.latest_singleton]
    cases event
    case varsUpdate => rfl
    all_goals exact h.vars

/-- Who settles a run by a report that says what the record shows leaves both as they are. -/
theorem RunTable.settled_shown {result : WalkResult}
    (h : ∀ report, result = .report report →
      report.lastNode = r.currentNode ∧ some report.vars = r.vars) :
    (settled r result).1.currentNode = r.currentNode ∧ (settled r result).1.vars = r.vars := by
  cases result with
  | broken => exact ⟨rfl, rfl⟩
  | report report =>
    obtain ⟨hnode, hvars⟩ := h report rfl
    have hor : report.lastNode.or r.currentNode = r.currentNode := by
      rw [hnode]
      cases r.currentNode <;> rfl
    unfold settled
    dsimp only
    split
    · exact ⟨hor, hvars⟩
    · cases report.ending <;> exact ⟨hor, hvars⟩

end Shows

namespace Interpreter

/-- A report says what the events of the run do. -/
theorem Walks.reported {around : Surroundings} (hs : around.IsSandboxed) {d : Definition}
    {vars : Vars} {inbox : Option Inbox} {l : List Stride} {r : Interpreter} {report : Report}
    (h : Walks around (start d vars inbox) l r) (hr : r.report? = some report) :
    report.lastNode = ((events l).filterMap Event.visited?).getLast? ∧
      report.vars = vars.replay (events l) := by
  have hmirrors := h.mirrors hs
  rw [report?] at hr
  split at hr
  · next ending hp =>
    cases hr
    exact ⟨(h.toured hs).lastNode, ((mirrors_iff (by rw [hp]; rfl)).mp hmirrors).symm⟩
  · cases hr

/-- Going from one run to another by strides that tell something. -/
def Strides (around : Surroundings) (told : List Event) (r r' : Interpreter) : Prop :=
  ∃ l, Walks around r l r' ∧ events l = told

theorem Strides.refl (around : Surroundings) (r : Interpreter) : Strides around [] r r :=
  ⟨[], .nil, rfl⟩

theorem Strides.trans {around : Surroundings} {told told' : List Event} {r r' r'' : Interpreter}
    (h : Strides around told r r') (h' : Strides around told' r' r'') :
    Strides around (told ++ told') r r'' := by
  obtain ⟨l, hl, rfl⟩ := h
  obtain ⟨l', hl', rfl⟩ := h'
  exact ⟨l ++ l', hl.trans hl', List.filterMap_append⟩

theorem Strides.one {around : Surroundings} {r r' : Interpreter} (turn : Turn)
    {told : Option Event} (h : r.take around turn = some (told, r')) :
    Strides around told.toList r r' := by
  refine ⟨_, Walks.nil.snoc h, ?_⟩
  cases told <;> rfl

end Interpreter

namespace Engine

open Engine.Job

/-! ## What a driver has seen -/

/-- What the driver of a run sees when a job is done: what was told first of all that it has not
seen. -/
def Job.observes? (e : Engine) (run : String) : Job → Option Event
  | drive _ id => if id = run then (e.unseen run).head? else none
  | _ => none

/-- What the driver of a run sees at a moment. -/
def Moment.observed? (run : String) (m : Moment) : Option Event :=
  m.job?.bind (Job.observes? m.before run)

/-- All that the driver of a run has seen, in order. -/
def observed (run : String) (l : List Moment) : List Event := l.filterMap (Moment.observed? run)

section Moments

variable {e : Engine} {id : Nat} {job : Job} {rest : List Job} {reply : Option Reply} {run : String}

theorem observed_snoc (run : String) (l : List Moment) (m : Moment) :
    observed run (l ++ [m]) = observed run l ++ (m.observed? run).toList := by
  rw [observed, List.filterMap_append]
  cases hm : m.observed? run <;> simp [observed, hm]

theorem observed?_work (ht : e.task? id = some ⟨job :: rest, reply⟩) (run : String) :
    (⟨e, .work id⟩ : Moment).observed? run = job.observes? e run := by
  rw [Moment.observed?, job?_work ht]
  rfl

/-- A deed that is no work of a task lets no driver see anything. -/
theorem observed?_idle {d : Deed} (hd : ∀ id, d ≠ .work id) (run : String) :
    (⟨e, d⟩ : Moment).observed? run = none := by
  rw [Moment.observed?, job?_of_ne hd]
  rfl

/-- Only who serves a run sees what it tells. -/
theorem observes?_none (h : job.serves run = false) : job.observes? e run = none := by
  cases job
  case drive project id => exact if_neg (of_decide_eq_false h)
  all_goals rfl

theorem observes?_drive (project : String) (e : Engine) (run : String) :
    (Job.drive project run).observes? e run = (e.unseen run).head? := if_pos rfl

end Moments

/-! ## The ledger -/

section Jobs

variable {s : Settings} {e e₁ : Engine} {job : Job} {next : List Job} {run : String}

theorem unseen_none (hw : e.walks.find? run = none) : e.unseen run = [] := by
  rw [unseen, hw]
  rfl

/-- **The ledger**: what is seen and what is left to see are what was left to see and what is
told. -/
theorem run_ledger (h : job.run s e = some (next, e₁))
    (hsettle : ∀ project, job = .settle project run → e.unseen run = [])
    (hborn : ∀ project definition vars, job = .enrol project definition vars →
      run ≠ e.newRun s project) :
    (job.observes? e run).toList ++ e₁.unseen run =
      e.unseen run ++ (job.tells? s e run).toList := by
  by_cases hserves : job.serves run = true
  · cases job
    case launch project id =>
      obtain rfl : id = run := of_decide_eq_true hserves
      refine Eq.trans ?_ (List.append_nil _).symm
      cases run_cases h with
      | aside ha => cases ha
      | launched _ _ w hw =>
        refine (unseen_setWalk ..).trans ?_
        rw [if_pos rfl]
        exact (unseen_eq hw).symm
      | strayed => rfl
    case drive project id =>
      obtain rfl : id = run := of_decide_eq_true hserves
      refine Eq.trans ?_ (List.append_nil _).symm
      rw [observes?_drive]
      cases run_cases h with
      | aside ha => cases ha
      | followed hf =>
        cases hf with
        | gone hw =>
          rw [unseen_none hw]
          rfl
        | event hw htold =>
          rw [unseen_setTable, unseen_setWalk, if_pos rfl, unseen_eq hw, htold]
          rfl
        | done hw htold =>
          rw [unseen_eq hw, htold]
          rfl
        | beat hw htold =>
          rw [unseen_setTable, unseen_setWalk, if_pos rfl, unseen_eq hw, htold]
          rfl
    all_goals cases hserves
  · have hnot := Bool.eq_false_iff.mpr hserves
    rw [observes?_none hnot]
    by_cases hsettles : ∃ project, job = .settle project run
    · obtain ⟨project, rfl⟩ := hsettles
      have hempty := hsettle project rfl
      rw [hempty]
      have hgone : (e.walks.erase run).find? run = none :=
        (Fields.find?_erase ..).trans (if_pos rfl)
      cases run_cases h with
      | aside ha => cases ha
      | settled hs =>
        cases hs with
        | gone hw => exact hempty
        | unknown => exact unseen_none hgone
        | known => exact (unseen_setTable ..).trans (unseen_none hgone)
    · exact unseen_run h hnot (fun project heq => hsettles ⟨project, heq⟩) hborn

/-! ## Strides -/

/-- What is on its way after a job comes of what was on its way before. -/
def Strode (s : Settings) (run : String) (told : List Event) (e e₁ : Engine) : Prop :=
  ∀ w₁, e₁.walks.find? run = some w₁ →
    ∃ w, e.walks.find? run = some w ∧ Interpreter.Strides (s.around.forRun run) told w.run w₁.run

theorem Strode.of_eq (h : e₁.walks.find? run = e.walks.find? run) : Strode s run [] e e₁ :=
  fun w₁ hw₁ => ⟨w₁, h.symm.trans hw₁, .refl ..⟩

theorem Strode.setTable {told : List Event} (h : Strode s run told e e₁) (t : RunTable) :
    Strode s run told e (e₁.setTable t) := by
  intro w₂ hw₂
  rw [setTable_walks] at hw₂
  obtain ⟨w₁, hw₁, rfl⟩ := Option.map_eq_some_iff.mp hw₂
  obtain ⟨w, hw, hstrides⟩ := h w₁ hw₁
  refine ⟨w, hw, ?_⟩
  split
  · exact hstrides
  · have hclosed : Interpreter.Strides (s.around.forRun run) [] w₁.run w₁.run.close := .one .close rfl
    have hboth := hstrides.trans hclosed
    rw [List.append_nil] at hboth
    exact hboth

/-- A walk that is changed goes the strides that it is said to, and the others stay. -/
theorem strode_put {id : String} {w w' : Walk} (hw : e.walks.find? id = some w)
    (hwalks : e₁.walks = e.walks.put id w') (h : Interpreter.Strides (s.around.forRun id) [] w.run w'.run)
    (run : String) : Strode s run [] e e₁ := by
  intro w₁ hw₁
  rw [hwalks, Fields.find?_put] at hw₁
  split at hw₁
  · next heq =>
    subst heq
    cases hw₁
    exact ⟨w, hw, h⟩
  · exact ⟨w₁, hw₁, .refl ..⟩

theorem strode_erase {id : String} (hwalks : e₁.walks = e.walks.erase id) (run : String) :
    Strode s run [] e e₁ := by
  intro w₁ hw₁
  rw [hwalks, Fields.find?_erase] at hw₁
  split at hw₁
  · cases hw₁
  · exact ⟨w₁, hw₁, .refl ..⟩

theorem strode_cancel (s : Settings) (e : Engine) (id run : String) :
    Strode s run [] e (e.cancel id) := by
  unfold cancel
  split
  · next w hw => exact strode_put hw rfl (.one .cancel rfl) run
  · exact .of_eq rfl

/-- **The strides of a run**: what it tells when a job is done are the events of the strides that
it goes. -/
theorem run_strides (h : job.run s e = some (next, e₁))
    (hborn : ∀ project definition vars, job = .enrol project definition vars →
      run ≠ e.newRun s project) : Strode s run (job.tells? s e run).toList e e₁ := by
  by_cases hwalk : job = .walk run
  · subst hwalk
    cases run_cases h with
    | aside ha => cases ha
    | unmoved hnone =>
      rw [tells?_none fun _ => hnone]
      exact .of_eq rfl
    | @walked _ w told r hw hstep =>
      intro w₁ hw₁
      have hput : (e.walks.put run { w with run := r, told := w.told ++ told.toList }).find? run =
          some w₁ := hw₁
      rw [Fields.find?_put_self] at hput
      cases hput
      refine ⟨w, hw, ?_⟩
      rw [tells?, if_pos rfl, hw, Option.bind_some, hstep]
      exact .one (.step e.now) hstep
  -- all other jobs let the run tell nothing
  · rw [tells?_none fun heq => absurd heq hwalk]
    cases run_cases h with
    | aside _ hframe => exact .of_eq (congrArg (Fields.find? · run) hframe.walks)
    | enrolled project definition vars =>
      refine Strode.setTable (.of_eq ?_) _
      exact (Fields.find?_put ..).trans (if_neg (hborn project definition vars rfl).symm)
    | launched project id w hw =>
      refine strode_put hw rfl ?_ run
      exact .refl ..
    | stopped =>
      refine Strode.setTable ?_ _
      split
      · exact strode_cancel s (e.readClock s).2 _ run
      · exact .of_eq rfl
    | removed => exact Strode.setTable (.of_eq rfl) _
    | restored => exact Strode.setTable (.of_eq rfl) _
    | allCancelled =>
      intro w₁ hw₁
      have hmap := Fields.find?_map e.walks (fun _ w => { w with run := w.run.cancel }) run
      obtain ⟨w, hw, rfl⟩ := Option.map_eq_some_iff.mp (hmap.symm.trans hw₁)
      exact ⟨w, hw, .one .cancel rfl⟩
    | @posted _ w m hw => exact strode_put hw rfl (.one (.send m) rfl) run
    | @walked id w told r hw hstep =>
      refine .of_eq ((Fields.find?_put ..).trans (if_neg ?_))
      rintro rfl
      exact hwalk rfl
    | followed hf =>
      cases hf with
      | gone => exact .of_eq rfl
      | event hw =>
        refine Strode.setTable (strode_put hw rfl ?_ run) _
        exact .refl ..
      | done => exact .of_eq rfl
      | beat hw =>
        refine Strode.setTable (strode_put hw rfl ?_ run) _
        exact .refl ..
    | settled hs =>
      cases hs with
      | gone => exact .of_eq rfl
      | unknown => exact strode_erase rfl run
      | known =>
        refine Strode.setTable ?_ _
        exact strode_erase rfl run
    | _ => exact .of_eq rfl

/-! ## Records -/

/-- A record that is no own one was read from disk. -/
theorem disowned_from (h : job.run s e = some (next, e₁)) (ht : e.table.Tidy) {h₁ : Handle}
    (hf₁ : e₁.table.find? run = some h₁) (hnot : h₁.isOwn = false) :
    (∃ h, e.table.find? run = some h ∧ h.isOwn = false) ∨
      ∃ records, job = .restore records ∧ ∃ r ∈ records, r.runId = run := by
  have hfate := run_fate h ht run
  rw [hf₁] at hfate
  generalize e.table.find? run = o at hfate ⊢
  cases hfate with
  | kept => exact Or.inl ⟨h₁, rfl, hnot⟩
  | born => cases hnot
  | changed hc => exact Or.inl ⟨_, rfl, hc.isOwn.symm.trans hnot⟩
  | restored hjob hr hid => exact Or.inr ⟨_, hjob, _, hr, hid⟩

/-- The driver of a run notes what it sees. -/
theorem shows_drive {project : String} (h : (Job.drive project run).run s e = some (next, e₁))
    {h₁ : Handle} (hf₁ : e₁.table.find? run = some h₁) :
    ∃ h, e.table.find? run = some h ∧ h₁.isOwn = h.isOwn ∧ ∀ vars events,
      h.record.Shows vars events →
        h₁.record.Shows vars (events ++ ((e.unseen run).head?).toList) := by
  have hsame : e.unseen run = [] → e.table.find? run = some h₁ →
      ∃ h, e.table.find? run = some h ∧ h₁.isOwn = h.isOwn ∧ ∀ vars events,
        h.record.Shows vars events →
          h₁.record.Shows vars (events ++ ((e.unseen run).head?).toList) := by
    intro hempty hf
    refine ⟨h₁, hf, rfl, fun vars events hshows => ?_⟩
    rw [hempty]
    exact (List.append_nil events).symm ▸ hshows
  cases run_cases h with
  | aside ha => cases ha
  | followed hf =>
    cases hf with
    | gone hw => exact hsame (unseen_none hw) hf₁
    | @event w event told hw htold =>
      change (e.table.observe run event (e.readClock s).1).2.find? run = some h₁ at hf₁
      unfold RunTable.observe at hf₁
      split at hf₁
      · next old hold =>
        have hput := (Fields.find?_put_self ..).symm.trans hf₁
        cases hput
        refine ⟨old, hold, rfl, fun vars events hshows => ?_⟩
        rw [unseen_eq hw, htold]
        exact hshows.noted event _
      · next hnone => cases hnone.symm.trans hf₁
    | done hw htold => exact hsame ((unseen_eq hw).trans htold) hf₁
    | beat hw htold =>
      have hempty := (unseen_eq hw).trans htold
      change (e.table.beat run (e.readClock s).1).2.find? run = some h₁ at hf₁
      unfold RunTable.beat at hf₁
      split at hf₁
      · next old hold =>
        split at hf₁
        · have hput := (Fields.find?_put_self ..).symm.trans hf₁
          cases hput
          refine ⟨old, hold, rfl, fun vars events hshows => ?_⟩
          rw [hempty]
          exact (List.append_nil events).symm ▸ hshows.of_eq rfl rfl
        · exact hsame hempty hf₁
      · next hnone => cases hnone.symm.trans hf₁

/-- Settling a run leaves what its own record shows, if its report says the same. -/
theorem settles_shown {project : String} (h : (Job.settle project run).run s e = some (next, e₁))
    (hreport : ∀ w report h, e.walks.find? run = some w → w.run.report? = some report →
      e.table.find? run = some h → h.isOwn = true →
      report.lastNode = h.record.currentNode ∧ some report.vars = h.record.vars)
    {h₁ : Handle} (hf₁ : e₁.table.find? run = some h₁) (hown : h₁.isOwn = true) :
    ∃ h, e.table.find? run = some h ∧ h.isOwn = true ∧
      h₁.record.currentNode = h.record.currentNode ∧ h₁.record.vars = h.record.vars := by
  cases run_cases h with
  | aside ha => cases ha
  | settled hs =>
    cases hs with
    | gone => exact ⟨h₁, hf₁, hown, rfl, rfl⟩
    | unknown => exact ⟨h₁, hf₁, hown, rfl, rfl⟩
    | @known w old hw hold =>
      have hput := (Fields.find?_put_self ..).symm.trans hf₁
      cases hput
      have hresult : ∀ report, w.result = .report report →
          report.lastNode = old.record.currentNode ∧ some report.vars = old.record.vars := by
        intro report hresult
        refine hreport w report old hw ?_ hold hown
        unfold Walk.result at hresult
        split at hresult
        · next hr =>
          cases hresult
          exact hr
        · cases hresult
      obtain ⟨hnode, hvars⟩ :=
        RunTable.settled_shown (r := old.record.touch (e.readClock s).1) hresult
      exact ⟨old, hold, hown, hnode, hvars⟩

/-- **What an own record shows** after a job: what it showed before, and what is seen. -/
theorem run_shows (h : job.run s e = some (next, e₁)) (ht : e.table.Tidy)
    (hborn : ∀ project definition vars, job = .enrol project definition vars →
      run ≠ e.newRun s project)
    (hreport : ∀ project, job = .settle project run → ∀ w report h,
      e.walks.find? run = some w → w.run.report? = some report → e.table.find? run = some h →
      h.isOwn = true → report.lastNode = h.record.currentNode ∧ some report.vars = h.record.vars)
    {h₁ : Handle} (hf₁ : e₁.table.find? run = some h₁) (hown : h₁.isOwn = true) :
    ∃ h, e.table.find? run = some h ∧ h.isOwn = true ∧ ∀ vars events,
      h.record.Shows vars events →
        h₁.record.Shows vars (events ++ (job.observes? e run).toList) := by
  by_cases hdrive : ∃ project, job = .drive project run
  · obtain ⟨project, rfl⟩ := hdrive
    obtain ⟨old, hold, hsame, hshows⟩ := shows_drive h hf₁
    rw [observes?_drive]
    exact ⟨old, hold, hsame.symm.trans hown, hshows⟩
  have hblind : job.observes? e run = none := by
    cases job
    case drive project id =>
      refine if_neg ?_
      rintro rfl
      exact hdrive ⟨project, rfl⟩
    all_goals rfl
  rw [hblind]
  simp only [Option.toList_none, List.append_nil]
  by_cases hsettle : ∃ project, job = .settle project run
  · obtain ⟨project, rfl⟩ := hsettle
    obtain ⟨old, hold, hown', hnode, hvars⟩ := settles_shown h (hreport project rfl) hf₁ hown
    exact ⟨old, hold, hown', fun _ _ hshows => hshows.of_eq hnode hvars⟩
  -- all others leave both the node and the variables
  · have hfate := run_fate h ht run
    rw [hf₁] at hfate
    generalize e.table.find? run = o at hfate ⊢
    cases hfate with
    | kept => exact ⟨h₁, rfl, hown, fun _ _ hshows => hshows⟩
    | born hjob hr => exact absurd hr (hborn _ _ _ hjob)
    | changed hc =>
      refine ⟨_, rfl, hc.isOwn.symm.trans hown, fun _ _ hshows => ?_⟩
      cases hc with
      | stopped => exact hshows.of_eq rfl rfl
      | noted project => exact absurd ⟨project, rfl⟩ hdrive
      | beaten project => exact absurd ⟨project, rfl⟩ hdrive
      | settled project => exact absurd ⟨project, rfl⟩ hsettle
    | restored => cases hown

end Jobs

/-! ## Runs about to be settled -/

/-- A run is about to be settled only when its walk is over and its driver has seen all of it. -/
structure Ripe (e : Engine) : Prop where
  /-- walks are of runs that were given names -/
  walked : ∀ {run w}, e.walks.find? run = some w → e.Named run
  /-- nothing is left to see of a run that is about to be settled -/
  settles : ∀ {project run}, Job.settle project run ∈ e.pending →
    e.Named run ∧ ∀ {w}, e.walks.find? run = some w → w.run.isOver = true ∧ w.told = []

section Ripe

variable {s : Settings} {e e' e₁ : Engine} {job : Job} {next rest : List Job} {id : Nat}
  {reply reply' : Option Reply}

/-- Who comes to settle a run has seen all of it. -/
theorem ripe_next (h : job.run s e = some (next, e₁)) {project run : String}
    (hmem : .settle project run ∈ next ∨ .settle project run ∈ (job.spawned e).flatten) :
    ∃ w, e.walks.find? run = some w ∧ w.run.isOver = true ∧ w.told = [] := by
  rcases hmem with hmem | hmem
  · rcases mem_next h hmem with hchore | hleads
    · cases hchore
    · cases hleads
      cases run_cases h with
      | aside ha => cases ha
      | followed hf =>
        cases hf with
        | gone => cases hmem
        | event =>
          rcases List.mem_append.mp hmem with hmem | hmem
          · rcases List.mem_append.mp hmem with hmem | hmem
            · cases saving_relays project run _ _ hmem
            · obtain ⟨_, -, heq | heq⟩ := mem_publishing hmem <;> cases heq
          · cases List.mem_singleton.mp hmem
        | done hw htold hover => exact ⟨_, hw, hover, htold⟩
        | beat =>
          rcases List.mem_append.mp hmem with hmem | hmem
          · cases saving_relays project run _ _ hmem
          · cases List.mem_singleton.mp hmem
  · rcases mem_spawned (s := s) hmem with hchore | hleads
    · cases hchore
    · cases hleads
      cases hmem

theorem ripe_work (he : Enlisted s e) (hs : NamesApart s) (hr : Ripe e)
    (ht : e.task? id = some ⟨job :: rest, reply⟩) (h : job.run s e = some (next, e₁)) :
    Ripe (e₁.setTask id ⟨next ++ rest, reply'⟩) where
  walked := by
    intro run w hw
    rcases walk_from h hw with ⟨w₀, hw₀, -⟩ | ⟨project, _, _, rfl, rfl, -⟩
    · exact named_run h (hr.walked hw₀)
    · exact ⟨project, started_enrol h ▸ List.mem_cons_self⟩
  settles := by
    have hbefore : ∀ j ∈ (e₁.setTask id ⟨next ++ rest, reply'⟩).pending, ∀ project run,
        j = .settle project run → e.Named run ∧
          ∀ {w}, e.walks.find? run = some w → w.run.isOver = true ∧ w.told = [] := by
      refine forall_pending_work he.numbered ht h ?_ ?_
      · rintro j hj project run rfl
        exact hr.settles hj
      · rintro j hj project run rfl
        obtain ⟨w, hw, hdone⟩ := ripe_next h hj
        refine ⟨hr.walked hw, fun hw' => ?_⟩
        cases hw.symm.trans hw'
        exact hdone
    intro project run hmem
    obtain ⟨hname, hdone⟩ := hbefore _ hmem project run rfl
    refine ⟨named_run h hname, fun {w} hw => ?_⟩
    rcases walk_from h hw with ⟨w₀, hw₀, honward⟩ | ⟨project', _, _, -, rfl, -⟩
    · obtain ⟨hover, htold⟩ := hdone hw₀
      exact ⟨honward.isOver hover, honward.silent hover htold⟩
    · exact absurd hname (he.newRun_fresh hs project')

theorem Ripe.step (hr : Ripe e) (he : Enlisted s e) (hs : NamesApart s) {d : Deed}
    (hd : e.roam s d = some e') : Ripe e' := by
  cases roam_cases he.numbered hd with
  | asked c =>
    refine ⟨hr.walked, fun {project run} hmem => ?_⟩
    rcases List.mem_append.mp hmem with hmem | hmem
    · rcases mem_jobs hmem with haside | ⟨_, _, _, heq⟩ | ⟨_, heq⟩ | ⟨_, heq⟩
      · cases haside
      all_goals cases heq
    · exact hr.settles hmem
  | worked ht hrun => exact ripe_work he hs hr ht hrun
  | still _ hstill =>
    have hnamed : ∀ run, e.Named run → e'.Named run := by
      intro run hname
      unfold Named
      rw [hstill.started]
      exact hname
    constructor
    · intro run w hw
      rw [hstill.walks] at hw
      exact hnamed run (hr.walked hw)
    · intro project run hmem
      rw [hstill.pending] at hmem
      rw [hstill.walks]
      exact (hr.settles hmem).imp_left (hnamed run)

theorem Roams.ripe {file : Stored} {source : Option (Option (Fields String))}
    {buffer busCapacity : Nat} {l : List Moment} (hs : NamesApart s)
    (hr : Roams s (fresh file source buffer busCapacity) l e) : Ripe e := by
  induction hr with
  | nil =>
    constructor
    · exact fun hw => nomatch hw
    · exact fun hmem => nomatch hmem
  | snoc hr hd ih => exact ih.step hr.enlisted hs hd

end Ripe

/-! ## The invariant -/

/-- A run that had been given a name was read back from disk. -/
def ReadBack (run : String) (l : List Moment) : Prop :=
  ∃ m ∈ l, m.before.Named run ∧
    ∃ records, m.job? = some (.restore records) ∧ ∃ r ∈ records, r.runId = run

/-- No run that was given a name is read back where nothing may be started while the registry is. -/
theorem Reached.not_readBack {s : Settings} (hsandbox : s.around.IsSandboxed) (hs : NamesApart s)
    {l : List Moment} {e : Engine} (h : Reached s l e) (run : String) : ¬ ReadBack run l := by
  rintro ⟨m, hm, ⟨project, hstarted⟩, records, hjob, -⟩
  obtain ⟨⟨l', hearlier⟩, -⟩ := h.before hm
  obtain ⟨hnone, -⟩ := (hearlier.orderly hsandbox hs).admitted (mem_pending_of_job? hjob) rfl
  rw [hnone] at hstarted
  cases hstarted

/-- **Attested**: what is known of a run from its enlisting on. -/
structure Attested (s : Settings) (run : String) (definition : Definition) (vars : Vars)
    (l : List Moment) (e : Engine) : Prop where
  /-- it was enlisted with a definition and variables -/
  enlisted : ∃ m ∈ l, ∃ project, m.job? = some (.enrol project definition vars) ∧
    run = m.before.newRun s project
  /-- it was given its name -/
  named : e.Named run
  /-- what its driver has seen and what is left to see is what it told -/
  ledger : observed run l ++ e.unseen run = emitted s run l
  /-- what it told are the events of its strides -/
  walked : ∀ w, e.walks.find? run = some w → Interpreter.Strides (s.around.forRun run) (emitted s run l)
    (Interpreter.start definition vars (some {})) w.run
  /-- its own record shows what its driver has seen -/
  shown : ∀ h, e.table.find? run = some h → h.isOwn = true →
    h.record.Shows vars (observed run l)
  /-- any other was read from disk in place of its own -/
  disowned : ∀ h, e.table.find? run = some h → h.isOwn = false → ReadBack run l

/-- What is known of a run, whether it is enlisted or not. -/
inductive Witnessed (s : Settings) (run : String) (l : List Moment) (e : Engine) : Prop
  /-- it is not -/
  | unborn : ¬ e.Named run → e.walks.find? run = none →
      (∀ h, e.table.find? run = some h → h.isOwn = false) → observed run l = [] →
      emitted s run l = [] → Witnessed s run l e
  /-- it is -/
  | born {definition : Definition} {vars : Vars} : Attested s run definition vars l e →
      Witnessed s run l e

section Witnessed

variable {s : Settings} {e e' e₁ : Engine} {job : Job} {next rest : List Job} {id : Nat}
  {reply reply' : Option Reply} {run : String} {definition : Definition} {vars : Vars}
  {l : List Moment}

theorem ReadBack.snoc (h : ReadBack run l) (m : Moment) : ReadBack run (l ++ [m]) := by
  obtain ⟨m', hm', hread⟩ := h
  exact ⟨m', List.mem_append_left _ hm', hread⟩

/-- **The report of a run of which all was seen** says what its record shows. -/
theorem Attested.reported (ha : Attested s run definition vars l e)
    (hsandbox : s.around.IsSandboxed) {w : Walk} {report : Report} {h : Handle}
    (hw : e.walks.find? run = some w) (htold : w.told = []) (hr : w.run.report? = some report)
    (hf : e.table.find? run = some h) (hown : h.isOwn = true) :
    report.lastNode = h.record.currentNode ∧ some report.vars = h.record.vars := by
  obtain ⟨strides, hwalks, hevents⟩ := ha.walked w hw
  obtain ⟨hnode, hvars⟩ := hwalks.reported (hsandbox.forRun run) hr
  have hall : observed run l = Interpreter.events strides := by
    have hledger := ha.ledger
    rw [unseen_eq hw, htold, List.append_nil] at hledger
    exact hledger.trans hevents.symm
  have hshown := ha.shown h hf hown
  rw [hall] at hshown
  exact ⟨hnode.trans hshown.currentNode.symm, (congrArg some hvars).trans hshown.vars.symm⟩

/-- The work of a task keeps what is known of a run that is enlisted. -/
theorem Attested.work (ha : Attested s run definition vars l e)
    (hsandbox : s.around.IsSandboxed) (hs : NamesApart s) (he : Enlisted s e) (hripe : Ripe e)
    (ht : e.task? id = some ⟨job :: rest, reply⟩) (h : job.run s e = some (next, e₁)) :
    Attested s run definition vars (l ++ [⟨e, .work id⟩])
      (e₁.setTask id ⟨next ++ rest, reply'⟩) := by
  have hborn : ∀ project definition vars, job = .enrol project definition vars →
      run ≠ e.newRun s project := by
    rintro project _ _ - rfl
    exact he.newRun_fresh hs project ha.named
  have hripens : ∀ project, job = .settle project run → ∀ {w}, e.walks.find? run = some w →
      w.run.isOver = true ∧ w.told = [] := by
    rintro project rfl
    exact (hripe.settles (mem_pending ht List.mem_cons_self)).2
  have hempty : ∀ project, job = .settle project run → e.unseen run = [] := by
    intro project hjob
    cases hw : e.walks.find? run with
    | none => exact unseen_none hw
    | some w => exact (unseen_eq hw).trans (hripens project hjob hw).2
  have hobserved : observed run (l ++ [⟨e, .work id⟩]) =
      observed run l ++ (job.observes? e run).toList := by
    rw [observed_snoc, observed?_work ht]
  have hemitted : emitted s run (l ++ [⟨e, .work id⟩]) =
      emitted s run l ++ (job.tells? s e run).toList := by
    rw [emitted_snoc, emitted?_work ht]
  constructor
  · obtain ⟨m, hm, henlisted⟩ := ha.enlisted
    exact ⟨m, List.mem_append_left _ hm, henlisted⟩
  · exact named_run h ha.named
  · rw [hobserved, hemitted, List.append_assoc]
    refine (congrArg (observed run l ++ ·) (run_ledger h hempty hborn)).trans ?_
    rw [← List.append_assoc, ha.ledger]
  · intro w₁ hw₁
    obtain ⟨w, hw, hstrides⟩ := run_strides h hborn w₁ hw₁
    rw [hemitted]
    exact (ha.walked w hw).trans hstrides
  · intro h₁ hf₁ hown
    have hreport : ∀ project, job = .settle project run → ∀ w report h,
        e.walks.find? run = some w → w.run.report? = some report → e.table.find? run = some h →
        h.isOwn = true →
        report.lastNode = h.record.currentNode ∧ some report.vars = h.record.vars :=
      fun project hjob w report _ hw => ha.reported hsandbox hw (hripens project hjob hw).2
    obtain ⟨old, hold, hown', hshows⟩ := run_shows h he.single.tidy hborn hreport hf₁ hown
    rw [hobserved]
    exact hshows vars _ (ha.shown old hold hown')
  · intro h₁ hf₁ hnot
    rcases disowned_from h he.single.tidy hf₁ hnot with ⟨old, hold, hnot'⟩ | ⟨records, rfl, hr⟩
    · exact (ha.disowned old hold hnot').snoc _
    · exact ⟨_, List.mem_append_right _ List.mem_cons_self, ha.named, records, job?_work ht, hr⟩

/-- A run that is enlisted has told nothing, and its record shows what it begins with. -/
theorem attested_enrol {project : String}
    (ht : e.task? id = some ⟨.enrol project definition vars :: rest, reply⟩)
    (h : (Job.enrol project definition vars).run s e = some (next, e₁))
    (hobserved : observed (e.newRun s project) l = [])
    (hemitted : emitted s (e.newRun s project) l = []) :
    Attested s (e.newRun s project) definition vars (l ++ [⟨e, .work id⟩])
      (e₁.setTask id ⟨next ++ rest, reply'⟩) := by
  have hobserved' : observed (e.newRun s project) (l ++ [⟨e, .work id⟩]) = [] := by
    rw [observed_snoc, observed?_work ht, hobserved]
    rfl
  have hemitted' : emitted s (e.newRun s project) (l ++ [⟨e, .work id⟩]) = [] := by
    rw [emitted_snoc, emitted?_work ht, hemitted]
    rfl
  have hname : (project, e.newRun s project) ∈ e₁.started := started_enrol h ▸ List.mem_cons_self
  cases run_cases h with
  | aside ha => cases ha
  | enrolled =>
    obtain ⟨hrecord, -⟩ := enrolled_spec s e project definition vars
    have hput : (e.walks.put (e.newRun s project) (e.newWalk definition vars)).find?
        (e.newRun s project) = some (e.newWalk definition vars) := Fields.find?_put_self ..
    refine ⟨⟨_, List.mem_append_right _ List.mem_cons_self, project, job?_work ht, rfl⟩,
      ⟨project, hname⟩, ?_, ?_, ?_, ?_⟩
    · rw [hobserved', hemitted']
      refine (unseen_setTable ..).trans ?_
      exact (congrArg (fun o : Option Walk => (o.map (·.told)).getD []) hput).trans rfl
    · intro w hw
      rw [hemitted']
      -- the new walk may be cancelled at once, and be closed
      have hnew : Interpreter.Strides (s.around.forRun (e.newRun s project)) []
          (Interpreter.start definition vars (some {})) (e.newWalk definition vars).run := by
        unfold newWalk
        dsimp only
        split
        · exact .one .cancel rfl
        · exact .refl ..
      obtain ⟨w₀, hw₀, hstrides⟩ := Strode.setTable (s := s) (.of_eq rfl) _ w hw
      cases hput.symm.trans hw₀
      exact hnew.trans hstrides
    · intro h₁ hf₁ _
      cases hrecord.symm.trans hf₁
      rw [hobserved']
      exact ⟨rfl, rfl⟩
    · intro h₁ hf₁ hnot
      cases hrecord.symm.trans hf₁
      cases hnot

/-- The work of a task keeps what is known of a run. -/
theorem Witnessed.work (hw : Witnessed s run l e) (hsandbox : s.around.IsSandboxed)
    (hs : NamesApart s) (he : Enlisted s e) (hripe : Ripe e)
    (ht : e.task? id = some ⟨job :: rest, reply⟩) (h : job.run s e = some (next, e₁)) :
    Witnessed s run (l ++ [⟨e, .work id⟩]) (e₁.setTask id ⟨next ++ rest, reply'⟩) := by
  cases hw with
  | born ha => exact .born (ha.work hsandbox hs he hripe ht h)
  | unborn hname hnone hnot hobserved hemitted =>
    by_cases henrols : ∃ project definition vars, job = .enrol project definition vars ∧
        run = e.newRun s project
    · obtain ⟨project, definition, vars, rfl, rfl⟩ := henrols
      exact .born (attested_enrol ht h hobserved hemitted)
    have hborn : ∀ project definition vars, job = .enrol project definition vars →
        run ≠ e.newRun s project :=
      fun project definition vars hjob hr => henrols ⟨project, definition, vars, hjob, hr⟩
    have hunseen := unseen_none hnone
    have hblind : job.observes? e run = none := by
      cases job
      case drive project id =>
        rw [observes?, hunseen]
        split <;> rfl
      all_goals rfl
    have hsilent : job.tells? s e run = none :=
      tells?_none fun _ w hw => nomatch hnone.symm.trans hw
    refine .unborn ?_ (walk_absent h hnone hborn) ?_ ?_ ?_
    · rintro ⟨project, hmem⟩
      change (project, run) ∈ e₁.started at hmem
      rcases run_started h with heq | ⟨project', definition, vars, hjob, heq⟩
      · exact hname ⟨project, heq ▸ hmem⟩
      · rw [heq] at hmem
        rcases List.mem_cons.mp hmem with hhead | hmem
        · obtain ⟨rfl, rfl⟩ := Prod.mk.inj hhead
          exact hborn _ definition vars hjob rfl
        · exact hname ⟨project, hmem⟩
    · intro h₁ hf₁
      refine Bool.eq_false_iff.mpr fun hown => ?_
      have hfate := run_fate h he.single.tidy run
      rw [show e₁.table.find? run = some h₁ from hf₁] at hfate
      generalize e.table.find? run = o at hfate hnot
      cases hfate with
      | kept => exact nomatch hown.symm.trans (hnot h₁ rfl)
      | born hjob hr => exact hborn _ _ _ hjob hr
      | changed hc => exact nomatch (hc.isOwn.symm.trans hown).symm.trans (hnot _ rfl)
      | restored => cases hown
    · rw [observed_snoc, observed?_work ht, hblind, hobserved]
      rfl
    · rw [emitted_snoc, emitted?_work ht, hsilent, hemitted]
      rfl

/-- Every deed keeps what is known of a run. -/
theorem Witnessed.step (hw : Witnessed s run l e) (hsandbox : s.around.IsSandboxed)
    (hs : NamesApart s) (he : Enlisted s e) (hripe : Ripe e) {d : Deed}
    (hd : e.roam s d = some e') : Witnessed s run (l ++ [⟨e, d⟩]) e' := by
  have hidle : (∀ id, d ≠ .work id) → e'.table = e.table → e'.walks = e.walks →
      e'.started = e.started → Witnessed s run (l ++ [⟨e, d⟩]) e' := by
    intro hwork htable hwalks hstarted
    have hobserved : observed run (l ++ [⟨e, d⟩]) = observed run l := by
      rw [observed_snoc, observed?_idle hwork]
      exact List.append_nil _
    have hemitted : emitted s run (l ++ [⟨e, d⟩]) = emitted s run l := by
      rw [emitted_snoc, emitted?_idle hwork]
      exact List.append_nil _
    cases hw with
    | unborn hname hnone hnot hseen htold =>
      refine .unborn ?_ (hwalks ▸ hnone) (htable ▸ hnot) (hobserved.trans hseen)
        (hemitted.trans htold)
      rw [Named, hstarted]
      exact hname
    | born ha =>
      obtain ⟨m, hm, henlisted⟩ := ha.enlisted
      refine .born ⟨⟨m, List.mem_append_left _ hm, henlisted⟩, ?_, ?_, ?_, ?_, ?_⟩
      · rw [Named, hstarted]
        exact ha.named
      · rw [hobserved, hemitted, unseen, hwalks]
        exact ha.ledger
      · rw [hemitted, hwalks]
        exact ha.walked
      · rw [hobserved, htable]
        exact ha.shown
      · rw [htable]
        exact fun h hf hnot => (ha.disowned h hf hnot).snoc _
  cases roam_cases he.numbered hd with
  | asked => exact hidle (by rintro _ ⟨⟩) rfl rfl rfl
  | worked ht hrun => exact hw.work hsandbox hs he hripe ht hrun
  | still hwork hstill => exact hidle hwork hstill.table hstill.walks hstill.started

/-- What is known of a run, whatever happens. -/
theorem Roams.witnessed {file : Stored} {source : Option (Option (Fields String))}
    {buffer busCapacity : Nat} (hsandbox : s.around.IsSandboxed) (hs : NamesApart s)
    (h : Roams s (fresh file source buffer busCapacity) l e) (run : String) :
    Witnessed s run l e := by
  induction h with
  | nil =>
    refine .unborn ?_ rfl ?_ rfl rfl
    · rintro ⟨_, hmem⟩
      cases hmem
    · intro h hf
      cases hf
  | snoc hr hd ih => exact ih.step hsandbox hs hr.enlisted (hr.ripe hs) hd

end Witnessed

/-! ## Agreement -/

/-- **A record shows what was observed.** Whatever tasks do and in whatever order, and whenever the
registry is read back: the record that the table has of a run that was started here is its own,
unless it was read back from disk in its place, which does not happen where nothing may be started
while the registry is read back (`Reached.not_readBack`); and its own record shows what the events
that were observed so far say of a run that began with the variables it was enlisted with. What was
observed is what the run told, as far as its driver has come.

When the run is about to be settled, stopped or not, and its interpreter has returned a report, then
that says the same, so that the record shows after settling what it showed before. -/
theorem Roams.shows_observed {s : Settings} (hsandbox : s.around.IsSandboxed)
    (hs : NamesApart s) {file : Stored} {source : Option (Option (Fields String))}
    {buffer busCapacity : Nat} {l : List Moment} {e : Engine}
    (h : Roams s (fresh file source buffer busCapacity) l e) {run : String} (hname : e.Named run)
    {handle : Handle} (hf : e.table.find? run = some handle) :
    (handle.isOwn = false → ReadBack run l) ∧
      (handle.isOwn = true → ∃ m ∈ l, ∃ project definition vars,
        m.job? = some (.enrol project definition vars) ∧ run = m.before.newRun s project ∧
        observed run l ++ e.unseen run = emitted s run l ∧
        handle.record.currentNode = ((observed run l).filterMap Event.visited?).getLast? ∧
        handle.record.vars = some (vars.replay (observed run l)) ∧
        ∀ project', .settle project' run ∈ e.pending →
          ∀ w report, e.walks.find? run = some w → w.run.report? = some report →
            report.lastNode = handle.record.currentNode ∧
              some report.vars = handle.record.vars ∧
              ∃ next e₁ handle', (Job.settle project' run).run s e = some (next, e₁) ∧
                e₁.table.find? run = some handle' ∧
                handle'.record.currentNode = handle.record.currentNode ∧
                handle'.record.vars = handle.record.vars) := by
  cases h.witnessed hsandbox hs run with
  | unborn hnot => exact absurd hname hnot
  | @born definition vars ha =>
    refine ⟨ha.disowned handle hf, fun hown => ?_⟩
    obtain ⟨m, hm, project, hjob, hrun⟩ := ha.enlisted
    obtain ⟨hnode, hvars⟩ := ha.shown handle hf hown
    refine ⟨m, hm, project, definition, vars, hjob, hrun, ha.ledger, hnode, hvars, ?_⟩
    intro project' hsettles w report hw hreport
    have htold := (((h.ripe hs).settles hsettles).2 hw).2
    obtain ⟨hlast, hleft⟩ := ha.reported hsandbox hw htold hreport hf hown
    obtain ⟨next, e₁, hrun₁⟩ : ∃ next e₁, (Job.settle project' run).run s e = some (next, e₁) :=
      ⟨_, _, rfl⟩
    obtain ⟨handle', hf', hown'⟩ : ∃ handle', e₁.table.find? run = some handle' ∧
        handle'.isOwn = true := by
      cases run_cases hrun₁ with
      | aside ha => cases ha
      | settled hs =>
        cases hs with
        | gone hnone => cases hw.symm.trans hnone
        | unknown _ hnone => cases hf.symm.trans hnone
        | known _ hold =>
          cases hf.symm.trans hold
          exact ⟨_, Fields.find?_put_self .., hown⟩
    obtain ⟨old, hold, -, hnode', hvars'⟩ := settles_shown hrun₁
      (fun w report _ hw => ha.reported hsandbox hw (((h.ripe hs).settles hsettles).2 hw).2)
      hf' hown'
    cases hf.symm.trans hold
    exact ⟨hlast, hleft, next, e₁, handle', hrun₁, hf', hnode', hvars'⟩

/-- Settings to try courses out in which runs come to their ends. -/
def calm : Settings := { trial with around := Interpreter.quiet }

/-- A course to the end of a run that is sent new variables and then stopped: its driver has seen
all that it told, and is about to settle it. -/
def towardsReport : List Deed :=
  .ask trialStart :: works 0 14 ++
    [.ask (.send "#:p" (.updateVars { fields := [("x", .bool true)] }))] ++ works 3 2 ++
    works 2 3 ++ [.ask (.stop "#:p"), .work 4] ++ works 2 3 ++ works 1 20

theorem towardsReport_spec :
    ∃ l e handle w report, (fresh .absent none 8 8).replay calm towardsReport = some (l, e) ∧
      e.started = [("p", "#:p")] ∧ e.table.find? "#:p" = some handle ∧ handle.isOwn = true ∧
      handle.record.status = .stopped ∧ .settle "p" "#:p" ∈ e.pending ∧
      e.walks.find? "#:p" = some w ∧ w.run.report? = some report ∧
      observed "#:p" l = [.varsUpdate { fields := [("x", .bool true)] }, .nodeStart "a",
        .workflowComplete] := by
  have hsome : ((fresh .absent none 8 8).replay calm towardsReport).isSome = true := rfl
  have hf : ((Option.get _ hsome).2.table.find? "#:p").isSome = true := rfl
  have hw : ((Option.get _ hsome).2.walks.find? "#:p").isSome = true := rfl
  have hr : (Option.get _ hw).run.report?.isSome = true := rfl
  have htask : ((Option.get _ hsome).2.task? 1).isSome = true := rfl
  refine ⟨_, _, _, _, _, (Option.some_get hsome).symm, rfl, (Option.some_get hf).symm, rfl, rfl,
    ?_, (Option.some_get hw).symm, (Option.some_get hr).symm, rfl⟩
  exact mem_pending (Option.some_get htask).symm List.mem_cons_self

/-- A run that was stopped is settled, and its record still shows what was observed. -/
theorem stopped_shows_observed :
    ∃ l e handle next e₁ handle', ∃ report : Report, Roams calm (fresh .absent none 8 8) l e ∧
      e.table.find? "#:p" = some handle ∧ handle.record.status = .stopped ∧
      handle.record.currentNode = some "a" ∧
      handle.record.vars = some { fields := [("x", .bool true)] } ∧
      report.lastNode = handle.record.currentNode ∧ some report.vars = handle.record.vars ∧
      (Job.settle "p" "#:p").run calm e = some (next, e₁) ∧
      e₁.table.find? "#:p" = some handle' ∧
      handle'.record.currentNode = handle.record.currentNode ∧
      handle'.record.vars = handle.record.vars := by
  obtain ⟨l, e, handle, w, report, hreplay, hnames, hf, hown, hstopped, hsettles, hw, hr,
    hobserved⟩ := towardsReport_spec
  have hroams := (replay_runs hreplay).roams
  have hapart : NamesApart calm := trial_namesApart
  have hname : e.Named "#:p" := ⟨"p", hnames ▸ List.mem_cons_self⟩
  obtain ⟨-, -, -, definition, vars, -, -, -, hnode, hvars, hsettled⟩ :=
    (hroams.shows_observed Interpreter.quiet_isSandboxed hapart hname hf).2 hown
  obtain ⟨hlast, hleft, next, e₁, handle', hrun, hf', hnode', hvars'⟩ :=
    hsettled "p" hsettles w report hw hr
  rw [hobserved] at hnode hvars
  exact ⟨l, e, handle, next, e₁, handle', report, hroams, hf, hstopped, hnode, hvars, hlast, hleft,
    hrun, hf', hnode', hvars'⟩

end Engine

end Workflow
