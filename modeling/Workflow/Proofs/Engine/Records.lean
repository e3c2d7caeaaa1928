import Workflow.Proofs.Engine.Effects
import Workflow.Proofs.Supervisor.Table

/-!
# What becomes of a run

The effect of a job, looked at from one run: what becomes of its record (`Fate`) and of
its walk (`Pace`). The tables that an engine comes to stay tidy (`run_tidy`), and names
are given by enlisting alone (`run_started`).
-/

namespace Workflow.Engine

open Engine.Job

/-! ## Records -/

/-- What a job makes of a record. -/
inductive Change (run : String) : Job → Handle → Handle → Prop
  /-- an active run is stopped -/
  | stopped {h : Handle} (clock : Instant) : h.record.status.isActive = true →
      Change run (.stop run) h (stoppedAt h clock)
  /-- an event is noted -/
  | noted (project : String) (h : Handle) (event : Event) (clock : Instant) :
      Change run (.drive project run) h
        { h with record := RunTable.noted (h.record.touch clock) event }
  /-- a sign of life is noted -/
  | beaten (project : String) (h : Handle) (clock : Instant) :
      Change run (.drive project run) h { h with record := h.record.touch clock }
  /-- the end of its walk is noted -/
  | settled (project : String) (h : Handle) (w : Walk) (clock : Instant) :
      Change run (.settle project run) h (settledAt h w clock)

/-- What becomes of the record of a run when a job is done. -/
inductive Fate (s : Settings) (e : Engine) (job : Job) (run : String) :
    Option Handle → Option Handle → Prop
  /-- it stays as it is -/
  | kept (o : Option Handle) : Fate s e job run o o
  /-- the run is enlisted -/
  | born {o : Option Handle} {project : String} {definition : Definition} {vars : Vars} :
      job = .enrol project definition vars → run = e.newRun s project →
      Fate s e job run o
        (some { record := e.newRecord s project definition vars, isOwn := true, listens := true })
  /-- it makes room for a new run of its project -/
  | pruned {h : Handle} {definition : Definition} {vars : Vars} :
      job = .enrol h.record.projectId definition vars → h.record.status.isTerminal = true →
      Fate s e job run (some h) none
  /-- it is changed -/
  | changed {h h' : Handle} : Change run job h h' → Fate s e job run (some h) (some h')
  /-- it is forgotten -/
  | removed {h : Handle} : job = .remove run → h.record.status.isActive = false →
      Fate s e job run (some h) none
  /-- it is taken up from disk -/
  | restored {o : Option Handle} {records : List RunRecord} {r : RunRecord} :
      job = .restore records → r ∈ records → r.runId = run →
      Fate s e job run o (some { record := r })

theorem Change.projectId {run : String} {job : Job} {h h' : Handle} (hc : Change run job h h') :
    h'.record.projectId = h.record.projectId := by
  cases hc with
  | stopped => rfl
  | noted project h event clock => exact RunTable.noted_projectId ..
  | beaten => rfl
  | settled project h w clock => exact (RunTable.settled_spec ..).2.1

theorem Change.isOwn {run : String} {job : Job} {h h' : Handle} (hc : Change run job h h') :
    h'.isOwn = h.isOwn := by
  cases hc <;> rfl

/-- A run that is not active never becomes active. -/
theorem Change.isActive {run : String} {job : Job} {h h' : Handle} (hc : Change run job h h')
    (ha : h'.record.status.isActive = true) : h.record.status.isActive = true := by
  cases hc with
  | stopped _ h => exact h
  | noted project h event clock =>
    rw [RunTable.noted_status] at ha
    exact ha
  | beaten => exact ha
  | settled project h w clock =>
    have hn := (RunTable.settled_spec (h.record.touch clock) w.result).2.2
    exact nomatch ha.symm.trans hn

/-- The table after a record was changed. -/
theorem fate_put {s : Settings} {e : Engine} {job : Job} {id : String} {h h' : Handle}
    (hf : e.table.find? id = some h) (hc : Change id job h h') (run : String) :
    Fate s e job run (e.table.find? run) (Fields.find? (Fields.put e.table id h') run) := by
  rw [Fields.find?_put]
  split
  · next heq =>
    subst heq
    rw [hf]
    exact .changed hc
  · exact .kept _

theorem fate_observe (s : Settings) (e : Engine) (project id : String) (event : Event)
    (clock : Instant) (run : String) :
    Fate s e (.drive project id) run (e.table.find? run)
      ((e.table.observe id event clock).2.find? run) := by
  unfold RunTable.observe
  split
  · next h hf => exact fate_put hf (.noted project h event clock) run
  · exact .kept _

theorem fate_beat (s : Settings) (e : Engine) (project id : String) (clock : Instant)
    (run : String) :
    Fate s e (.drive project id) run (e.table.find? run)
      ((e.table.beat id clock).2.find? run) := by
  unfold RunTable.beat
  split
  · next h hf =>
    split
    · exact fate_put hf (.beaten project h clock) run
    · exact .kept _
  · exact .kept _

/-- **The fate of a record**: what becomes of it when a job is done. -/
theorem run_fate {s : Settings} {e e₁ : Engine} {job : Job} {next : List Job}
    (h : job.run s e = some (next, e₁)) (ht : e.table.Tidy) (run : String) :
    Fate s e job run (e.table.find? run) (e₁.table.find? run) := by
  cases run_cases h with
  | aside _ ha _ =>
    rw [ha.table]
    exact .kept _
  | enrolled project definition vars =>
    change Fate s e _ run _ ((e.table.enlist s.keepFinished _).find? run)
    rw [RunTable.find?_enlist]
    split
    · next heq => exact .born rfl heq.symm
    -- any other record of the project may have made room for the new one
    · rcases ht.find?_prune project s.keepFinished run with hkept | ⟨old, hf, rfl, hover, hnone⟩
      · change Fate s e _ run _ ((e.table.prune project s.keepFinished).find? run)
        rw [hkept]
        exact .kept _
      · change Fate s e _ run _ ((e.table.prune old.record.projectId s.keepFinished).find? run)
        rw [hnone, hf]
        exact .pruned rfl hover
  | stopped hf ha => exact fate_put hf (.stopped _ ha) run
  | removed hf ha =>
    change Fate s e _ run _ (Fields.find? (Fields.erase e.table _) run)
    rw [Fields.find?_erase]
    split
    · next heq =>
      subst heq
      rw [hf]
      exact .removed rfl ha
    · exact .kept _
  | restored records =>
    change Fate s e _ run _ ((e.table.restore records).find? run)
    rcases RunTable.find?_restore e.table records run with hkept | ⟨r, hr, hid, hf⟩
    · rw [hkept]
      exact .kept _
    · rw [hf]
      exact .restored rfl hr hid
  | followed hf =>
    cases hf with
    | gone => exact .kept _
    | event => exact fate_observe ..
    | done => exact .kept _
    | beat => exact fate_beat ..
  | settled hs =>
    cases hs with
    | gone => exact .kept _
    | unknown => exact .kept _
    | known _ hf => exact fate_put hf (.settled ..) run
  | _ => exact .kept _

/-- Tables stay tidy. -/
theorem run_tidy {s : Settings} {e e₁ : Engine} {job : Job} {next : List Job}
    (h : job.run s e = some (next, e₁)) (ht : e.table.Tidy) : e₁.table.Tidy := by
  cases run_cases h with
  | aside _ ha _ =>
    rw [ha.table]
    exact ht
  | enrolled => exact ht.enlist ..
  | stopped hf _ =>
    have hid := ht.named hf
    exact ht.put hid
  | removed => exact ht.erase _
  | restored records => exact ht.restore records
  | followed hf =>
    cases hf with
    | gone => exact ht
    | event => exact ht.observe ..
    | done => exact ht
    | beat => exact ht.beat ..
  | settled hs =>
    cases hs with
    | gone => exact ht
    | unknown => exact ht
    | known _ hf => exact ht.put ((RunTable.settled_spec ..).1.trans (ht.named hf))
  | _ => exact ht

/-! ## Walks -/

/-- What may become of a walk at a moment. -/
inductive Onward (around : Surroundings) (now : Nat) : Walk → Walk → Prop
  /-- nothing -/
  | same (w : Walk) : Onward around now w w
  /-- one thing after the other -/
  | trans {w w' w'' : Walk} : Onward around now w w' → Onward around now w' w'' →
      Onward around now w w''
  /-- it goes a step -/
  | stepped {w : Walk} {told : Option Event} {r : Interpreter} :
      w.run.step around now = some (told, r) →
      Onward around now w { w with run := r, told := w.told ++ told.toList }
  /-- its driver sees an event -/
  | seen {w : Walk} {event : Event} {rest : List Event} : w.told = event :: rest →
      Onward around now w { w with told := rest }
  /-- its next sign of life is fixed -/
  | timed (w : Walk) (nextBeat : Nat) : Onward around now w { w with nextBeat := nextBeat }
  /-- it is told to stop -/
  | cancelled (w : Walk) : Onward around now w { w with run := w.run.cancel }
  /-- nobody can send to it any more -/
  | closed (w : Walk) : Onward around now w { w with run := w.run.close }
  /-- a message is sent to it -/
  | sent {w : Walk} (m : Control) : w.run.isOver = false →
      Onward around now w { w with run := w.run.send m }

/-- What becomes of the walk of a run when a job is done. -/
inductive Pace (s : Settings) (e : Engine) (job : Job) (run : String) :
    Option Walk → Option Walk → Prop
  /-- there is none -/
  | absent : Pace s e job run none none
  /-- it goes on -/
  | onward {w w' : Walk} : Onward (s.around.forRun run) e.now w w' → Pace s e job run (some w) (some w')
  /-- it begins -/
  | born {o : Option Walk} {w : Walk} {project : String} {definition : Definition} {vars : Vars} :
      job = .enrol project definition vars → run = e.newRun s project →
      Onward (s.around.forRun run) e.now (e.newWalk definition vars) w → Pace s e job run o (some w)
  /-- it is settled -/
  | settled {w : Walk} {project : String} : job = .settle project run →
      Pace s e job run (some w) none

theorem pace_same (s : Settings) (e : Engine) (job : Job) (run : String) (o : Option Walk) :
    Pace s e job run o o := by
  cases o with
  | none => exact .absent
  | some w => exact .onward (.same w)

/-- Setting the table closes the inboxes of the runs to which no message is passed on. -/
theorem setTable_walks (e : Engine) (t : RunTable) (run : String) :
    (e.setTable t).walks.find? run = (e.walks.find? run).map fun w =>
      if t.listens run then w else { w with run := w.run.close } := by
  have hmap := Fields.find?_map e.walks (fun k w =>
    if t.listens k then w else { w with run := w.run.close }) run
  refine Eq.trans (congrArg (Fields.find? · run) ?_) hmap
  refine List.map_congr_left fun x _ => ?_
  dsimp only
  split <;> rfl

/-- Setting the table closes inboxes at most. -/
theorem setTable_walk (e : Engine) (t : RunTable) (run : String) :
    ∃ f : Walk → Walk, (∀ around now w, Onward around now w (f w)) ∧
      (e.setTable t).walks.find? run = (e.walks.find? run).map f := by
  refine ⟨_, ?_, setTable_walks e t run⟩
  intro around now w
  split
  · exact .same w
  · exact .closed w

/-- A walk goes on although the table is set. -/
theorem Pace.setTable {s : Settings} {e e' : Engine} {job : Job} {run : String} {o : Option Walk}
    (t : RunTable) (hp : Pace s e job run o (e'.walks.find? run)) :
    Pace s e job run o ((e'.setTable t).walks.find? run) := by
  obtain ⟨f, hf, heq⟩ := e'.setTable_walk t run
  rw [heq]
  -- the walk after the job is a variable from here on, so that cases on its pace go through
  generalize e'.walks.find? run = o' at hp ⊢
  cases hp with
  | absent => exact .absent
  | onward ho => exact .onward (ho.trans (hf ..))
  | born hj hr ho => exact .born hj hr (ho.trans (hf ..))
  | settled hj => exact .settled hj

/-- A walk goes on where it is changed, and all others stay. -/
theorem pace_put {s : Settings} {e : Engine} {job : Job} {id : String} {w w' : Walk}
    (hw : e.walks.find? id = some w) (ho : Onward (s.around.forRun id) e.now w w') (run : String) :
    Pace s e job run (e.walks.find? run) ((e.walks.put id w').find? run) := by
  rw [Fields.find?_put]
  split
  · next heq =>
    subst heq
    rw [hw]
    exact .onward ho
  · exact pace_same ..

theorem pace_erase (s : Settings) (e : Engine) (project id run : String) :
    Pace s e (.settle project id) run (e.walks.find? run) ((e.walks.erase id).find? run) := by
  rw [Fields.find?_erase]
  split
  · next heq =>
    subst heq
    cases e.walks.find? id with
    | none => exact .absent
    | some w => exact .settled rfl
  · exact pace_same ..

/-- **The pace of a walk**: what becomes of it when a job is done. -/
theorem run_pace {s : Settings} {e e₁ : Engine} {job : Job} {next : List Job}
    (h : job.run s e = some (next, e₁)) (run : String) :
    Pace s e job run (e.walks.find? run) (e₁.walks.find? run) := by
  cases run_cases h with
  | aside _ ha _ =>
    rw [ha.walks]
    exact pace_same ..
  | enrolled project definition vars =>
    refine Pace.setTable _ ?_
    change Pace s e _ run _ ((e.walks.put _ _).find? run)
    rw [Fields.find?_put]
    split
    · next heq => exact .born rfl heq.symm (.same _)
    · exact pace_same ..
  | launched project id w hw => exact pace_put hw (.timed w _) run
  | stopped =>
    refine Pace.setTable _ ?_
    split
    · unfold cancel
      split
      · next w hw => exact pace_put (e := e) hw (.cancelled w) run
      · exact pace_same ..
    · exact pace_same ..
  | removed => exact (pace_same ..).setTable _
  | restored => exact (pace_same ..).setTable _
  | allCancelled =>
    have heq := Fields.find?_map e.walks (fun _ w => { w with run := w.run.cancel }) run
    refine heq ▸ ?_
    cases e.walks.find? run with
    | none => exact .absent
    | some w => exact .onward (.cancelled w)
  | posted m hw ho => exact pace_put hw (.sent m ho) run
  | walked hw hs => exact pace_put hw (.stepped hs) run
  | followed hf =>
    cases hf with
    | gone => exact pace_same ..
    | event hw ht => exact (pace_put (e := e) hw (.seen ht) run).setTable _
    | done => exact pace_same ..
    | beat hw => exact (pace_put (e := e) hw (.timed _ _) run).setTable _
  | settled hs =>
    cases hs with
    | gone => exact pace_same ..
    | unknown => exact pace_erase ..
    | known => exact (pace_erase ..).setTable _
  | _ => exact pace_same ..

/-- A new run is known, and on its way. -/
theorem enrolled_spec (s : Settings) (e : Engine) (project : String) (definition : Definition)
    (vars : Vars) :
    (e.enrolled s project definition vars).table.find? (e.newRun s project) =
        some { record := e.newRecord s project definition vars, isOwn := true, listens := true } ∧
      ∃ w, (e.enrolled s project definition vars).walks.find? (e.newRun s project) = some w := by
  refine ⟨(RunTable.find?_enlist ..).trans (if_pos rfl), ?_⟩
  obtain ⟨f, -, heq⟩ := Engine.setTable_walk
    { (e.readClock s).2 with
      started := (project, e.newRun s project) :: e.started
      walks := e.walks.put (e.newRun s project) (e.newWalk definition vars) }
    (e.table.enlist s.keepFinished (e.newRecord s project definition vars)) (e.newRun s project)
  refine ⟨f (e.newWalk definition vars), heq.trans ?_⟩
  dsimp only
  rw [Fields.find?_put_self]
  rfl

/-! ## Names -/

/-- A walk goes on until it is settled. -/
theorem walk_kept {s : Settings} {e e₁ : Engine} {job : Job} {next : List Job}
    (h : job.run s e = some (next, e₁)) {run : String} (hw : (e.walks.find? run).isSome = true)
    (hsettle : ∀ project, job ≠ .settle project run) : (e₁.walks.find? run).isSome = true := by
  have hpace := run_pace h run
  generalize e.walks.find? run = o at hpace hw
  generalize e₁.walks.find? run = o' at hpace ⊢
  cases hpace with
  | absent => cases hw
  | onward => rfl
  | born => rfl
  | settled hj => exact absurd hj (hsettle _)

/-- There is no walk before the run is enlisted. -/
theorem walk_absent {s : Settings} {e e₁ : Engine} {job : Job} {next : List Job}
    (h : job.run s e = some (next, e₁)) {run : String} (hw : e.walks.find? run = none)
    (hborn : ∀ project definition vars, job = .enrol project definition vars →
      run ≠ e.newRun s project) : e₁.walks.find? run = none := by
  have hpace := run_pace h run
  rw [hw] at hpace
  generalize e₁.walks.find? run = o at hpace ⊢
  cases hpace with
  | absent => rfl
  | born hj hr => exact absurd hr (hborn _ _ _ hj)

/-- A walk is gone when the run is settled. -/
theorem walk_settled {s : Settings} {e e₁ : Engine} {project run : String} {next : List Job}
    (h : (Job.settle project run).run s e = some (next, e₁)) : e₁.walks.find? run = none := by
  have herased : (e.walks.erase run).find? run = none := (Fields.find?_erase ..).trans (if_pos rfl)
  cases run_cases h with
  | aside ha => cases ha
  | settled hsettled =>
    cases hsettled with
    | gone hgone => exact hgone
    | unknown => exact herased
    | known =>
      rw [setTable_walks]
      exact congrArg (Option.map _) herased

/-- Names are given by enlisting alone. -/
theorem run_started {s : Settings} {e e₁ : Engine} {job : Job} {next : List Job}
    (h : job.run s e = some (next, e₁)) :
    e₁.started = e.started ∨ ∃ project definition vars, job = .enrol project definition vars ∧
      e₁.started = (project, e.newRun s project) :: e.started := by
  cases run_cases h with
  | aside _ ha _ => exact Or.inl ha.started
  | enrolled project definition vars => exact Or.inr ⟨project, definition, vars, rfl, rfl⟩
  | stopped =>
    refine Or.inl ?_
    split
    · obtain ⟨walks, heq⟩ := (e.readClock s).2.cancel_eq _
      rw [heq]
      rfl
    · rfl
  | followed hf => cases hf <;> exact Or.inl rfl
  | settled hs => cases hs <;> exact Or.inl rfl
  | _ => exact Or.inl rfl

theorem started_mono {s : Settings} {e e₁ : Engine} {job : Job} {next : List Job}
    (h : job.run s e = some (next, e₁)) : ∀ x ∈ e.started, x ∈ e₁.started := by
  intro x hx
  rcases run_started h with heq | ⟨_, _, _, -, heq⟩
  · exact heq ▸ hx
  · exact heq ▸ List.mem_cons_of_mem _ hx

end Workflow.Engine
