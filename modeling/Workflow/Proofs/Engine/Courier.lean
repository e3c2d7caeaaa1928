import Workflow.Proofs.Engine.Relay

/-!
# A run is published in order

How far what a run told has come (`Courier`): the run is not there yet, or one task serves
it and what was published, what that task has left to publish and what is in the queue are
together what the run told, in order, or all of it was published. No deed loses, repeats or
reorders anything (`courier_after`), and before all is published the end of the run is
not announced.
-/

namespace Workflow.Engine

open Engine.Job

/-! ## The law -/

/-- The end of a run was not announced, as its interpreter came to it, and is not about to
be. -/
structure Unclosed (run : String) (l : List Moment) (e : Engine) : Prop where
  /-- it is not about to be -/
  pending : ∀ j ∈ e.pending, j.closes run = false
  /-- it was not -/
  published : ∀ m ∈ l, ∀ subject event, m.published? subject = some event →
    event.closes run = false

/-- What was published for a run and what is on its way is what the run told. -/
def Balanced (s : Settings) (project run : String) (l : List Moment) (e : Engine)
    (left : List Job) : Prop :=
  ∀ subject, subject = run ∨ subject = project →
    relayed run subject l ++ relaying run subject left ++ e.unseen run =
      .runStarted run :: emitted s run l

/-- What happens at a moment keeps the balance if it does to what is on its way. -/
theorem Balanced.snoc {s : Settings} {project run : String} {l : List Moment} {e e' : Engine}
    {m : Moment} {left left' : List Job} (hb : Balanced s project run l e left)
    (h : ∀ subject, subject = run ∨ subject = project →
      (m.relayed? run subject).toList ++ relaying run subject left' ++ e'.unseen run =
        relaying run subject left ++ e.unseen run ++ (m.emitted? s run).toList) :
    Balanced s project run (l ++ [m]) e' left' := by
  intro subject hsubject
  rw [relayed_snoc, emitted_snoc, ← List.cons_append, ← hb subject hsubject]
  -- all that happens is behind what was published before
  calc relayed run subject l ++ (m.relayed? run subject).toList ++ relaying run subject left' ++
        e'.unseen run
    _ = relayed run subject l ++ ((m.relayed? run subject).toList ++ relaying run subject left' ++
        e'.unseen run) := by simp only [List.append_assoc]
    _ = relayed run subject l ++ (relaying run subject left ++ e.unseen run ++
        (m.emitted? s run).toList) := by rw [h subject hsubject]
    _ = _ := by simp only [List.append_assoc]

/-- **Couriers**: how far what a run told has come. -/
inductive Courier (s : Settings) (run : String) (l : List Moment) (e : Engine) : Prop
  /-- the run is not there yet -/
  | unborn : ¬ e.Named run → e.walks.find? run = none →
      (∀ j ∈ e.pending, j.serves run = false) → Unclosed run l e →
      (∀ subject, relayed run subject l = []) → emitted s run l = [] → Courier s run l e
  /-- one task serves it -/
  | served {project : String} {id : Nat} {t : Task} : (project, run) ∈ e.started →
      e.task? id = some t → t.left.any (Job.serves run) = true →
      e.pending.countP (Job.serves run) = 1 → (e.walks.find? run).isSome = true →
      Unclosed run l e → Balanced s project run l e t.left → Courier s run l e
  /-- all that it told is published -/
  | done {project : String} : (project, run) ∈ e.started →
      (∀ j ∈ e.pending, j.serves run = false) →
      (∀ w, e.walks.find? run = some w → w.run.isOver = true ∧ w.told = []) →
      (∀ subject, subject = run ∨ subject = project →
        relayed run subject l = .runStarted run :: emitted s run l) → Courier s run l e

section Work

variable {s : Settings} {e e₁ : Engine} {id : Nat} {job : Job} {rest next : List Job}
  {reply reply' : Option Reply} {run : String} {l : List Moment}

/-- Other jobs than its own services and its enlisting bring no service for a run. -/
theorem serves_next_none (h : job.run s e = some (next, e₁)) (hserves : job.serves run = false)
    (hborn : ∀ project definition vars, job = .enrol project definition vars →
      run ≠ e.newRun s project) :
    ∀ j, j ∈ next ∨ j ∈ (job.spawned e).flatten → j.serves run = false := by
  intro j hj
  refine Bool.eq_false_iff.mpr fun hj' => ?_
  rcases serves_next h hj hj' with hserves' | ⟨project, definition, vars, heq, hrun⟩
  · cases hserves.symm.trans hserves'
  · exact hborn project definition vars heq hrun

theorem countP_serves_work (hn : e.Numbered) (ht : e.task? id = some ⟨job :: rest, reply⟩)
    (h : job.run s e = some (next, e₁)) (hserves : job.serves run = false)
    (hfew : ∀ j, j ∈ next ∨ j ∈ (job.spawned e).flatten → j.serves run = false) :
    (e₁.setTask id ⟨next ++ rest, reply'⟩).pending.countP (Job.serves run) =
      e.pending.countP (Job.serves run) := by
  have hcount := countP_pending_work (Job.serves run) hn ht h reply'
  have hnext : next.countP (Job.serves run) = 0 :=
    countP_none.mpr fun j hj => hfew j (Or.inl hj)
  have hspawned : (job.spawned e).flatten.countP (Job.serves run) = 0 :=
    countP_none.mpr fun j hj => hfew j (Or.inr hj)
  rw [hserves, hnext, hspawned] at hcount
  exact hcount

/-- Only when the driver of a run is done is its end about to be announced. -/
theorem Unclosed.work (hu : Unclosed run l e) (hn : e.Numbered) (ho : Orderly s e)
    (ht : e.task? id = some ⟨job :: rest, reply⟩) (h : job.run s e = some (next, e₁))
    (hdone : ∀ project, job = .drive project run → .settle project run ∉ next)
    (reply' : Option Reply) :
    Unclosed run (l ++ [⟨e, .work id⟩]) (e₁.setTask id ⟨next ++ rest, reply'⟩) where
  pending := by
    refine forall_pending_work hn ht h hu.pending fun j hj => Bool.eq_false_iff.mpr fun hcloses => ?_
    rcases closes_next ho h hj hcloses with hjob | ⟨project, hjob, hsettle⟩
    · exact nomatch hjob.symm.trans (hu.pending job (mem_pending ht List.mem_cons_self))
    · exact hdone project hjob hsettle
  published := by
    refine List.forall_mem_append.mpr ⟨hu.published, List.forall_mem_singleton.mpr ?_⟩
    intro subject event hpublished
    have hjob := (job?_work ht).symm.trans (published?_eq_some hpublished)
    obtain rfl := Option.some.inj hjob
    exact hu.pending _ (mem_pending ht List.mem_cons_self)

/-- The courier of a run still serves it behind its next job. -/
theorem Courier.on {project : String} (hn : e.Numbered) (ht : e.task? id = some ⟨job :: rest, reply⟩)
    (h : job.run s e = some (next, e₁)) (hname : (project, run) ∈ e₁.started)
    (hserves : (next ++ rest).any (Job.serves run) = true)
    (hone : (e₁.setTask id ⟨next ++ rest, reply'⟩).pending.countP (Job.serves run) = 1)
    (hw : (e₁.walks.find? run).isSome = true)
    (hu : Unclosed run (l ++ [⟨e, .work id⟩]) (e₁.setTask id ⟨next ++ rest, reply'⟩))
    (hb : Balanced s project run (l ++ [⟨e, .work id⟩]) e₁ (next ++ rest)) :
    Courier s run (l ++ [⟨e, .work id⟩]) (e₁.setTask id ⟨next ++ rest, reply'⟩) := by
  have hleft : next ++ rest ≠ [] := by
    intro hnil
    rw [hnil] at hserves
    cases hserves
  have htask := task?_setTask_self (t := ⟨next ++ rest, reply'⟩) (run_numbered hn h)
    (task?_run ht h) (Or.inl hleft)
  exact .served hname htask hserves hone hw hu hb

/-- A new run gets a courier. -/
theorem courier_enrol {project : String} {definition : Definition} {vars : Vars}
    (hs : NamesApart s) (hn : e.Numbered) (ho : Orderly s e)
    (ht : e.task? id = some ⟨.enrol project definition vars :: rest, reply⟩)
    (h : (Job.enrol project definition vars).run s e = some (next, e₁))
    (hc : Courier s (e.newRun s project) l e) :
    Courier s (e.newRun s project) (l ++ [⟨e, .work id⟩])
      (e₁.setTask id ⟨next ++ rest, reply'⟩) := by
  -- the name is new, so nothing of the run can have been there
  have hfresh := ho.newRun_fresh hs project
  cases hc with
  | unborn _ _ hnone hu hrelayed hemitted =>
    have hrest : ∀ j ∈ rest, j.serves (e.newRun s project) = false := fun j hj =>
      hnone j (mem_pending ht (List.mem_cons_of_mem _ hj))
    have hnobody : e.pending.countP (Job.serves (e.newRun s project)) = 0 :=
      countP_none.mpr hnone
    have hcount := countP_pending_work (Job.serves (e.newRun s project)) hn ht h reply'
    have hunclosed := hu.work hn ho ht h nofun reply'
    have hname : (project, e.newRun s project) ∈ e₁.started := started_enrol h ▸ List.mem_cons_self
    cases run_cases h with
    | aside ha => cases ha
    | enrolled =>
      obtain ⟨w, hw⟩ := (enrolled_spec s e project definition vars).2
      have hserves : (e.enrolling s project definition vars ++ rest).any
          (Job.serves (e.newRun s project)) = true := by
        simp [enrolling, Job.serves]
      have hfront : (saving ++ (if s.journalLevel.isSome then
          [Job.keepJournal (e.newRun s project)] else []) ++ publishing project (e.newRun s project)
            (.runStarted (e.newRun s project))).countP (Job.serves (e.newRun s project)) = 0 :=
        countP_none.mpr fun j hj => Job.serves_of_relays (enrolling_relays s project _ j hj)
      have hlaunch : (e.enrolling s project definition vars).countP
          (Job.serves (e.newRun s project)) = 1 := by
        rw [enrolling, List.countP_append, hfront]
        simp [Job.serves]
      refine .on hn ht h hname hserves ?_ (by rw [hw]; rfl) hunclosed ?_
      · rw [hnobody, hlaunch] at hcount
        exact hcount
      · intro subject hsubject
        have hunseen : (e.enrolled s project definition vars).unseen (e.newRun s project) = [] := by
          rw [enrolled, unseen_setTable, unseen]
          dsimp only
          rw [Fields.find?_put_self]
          rfl
        rw [relayed_snoc, relayed?_work ht, relay?_none hrest, hrelayed, emitted_snoc,
          emitted?_work ht, hemitted, hunseen, relaying_enrolling s e project definition vars hrest
            hsubject]
        rfl
  | served hname => exact absurd ⟨_, hname⟩ hfresh
  | done hname => exact absurd ⟨_, hname⟩ hfresh

/-- The courier of a run does a job before its service. -/
theorem courier_relay {project : String} (hn : e.Numbered) (ho : Orderly s e)
    (hname : (project, run) ∈ e.started) (ht : e.task? id = some ⟨job :: rest, reply⟩)
    (h : job.run s e = some (next, e₁)) (hjob : job.relays project run = true)
    (hserves : rest.any (Job.serves run) = true)
    (hone : e.pending.countP (Job.serves run) = 1) (hw : (e.walks.find? run).isSome = true)
    (hu : Unclosed run l e) (hb : Balanced s project run l e (job :: rest)) :
    Courier s run (l ++ [⟨e, .work id⟩]) (e₁.setTask id ⟨next ++ rest, reply'⟩) := by
  have hnot : job.serves run = false := Job.serves_of_relays hjob
  have hsettle : ∀ project, job ≠ .settle project run := by
    rintro _ rfl
    cases hjob
  have hborn : ∀ project definition vars, job = .enrol project definition vars →
      run ≠ e.newRun s project := by
    rintro _ _ _ rfl
    cases hjob
  have hfew := serves_next_none h hnot hborn
  have hsilent : job.tells? s e run = none := by
    refine tells?_none ?_
    rintro rfl
    cases hjob
  have hunseen := unseen_run h hnot hsettle hborn
  rw [hsilent] at hunseen
  refine .on hn ht h (started_mono h _ hname) ?_ ?_ (walk_kept h hw hsettle) ?_ ?_
  · rw [List.any_append, hserves, Bool.or_true]
  · exact (countP_serves_work hn ht h hnot hfew).trans hone
  · refine hu.work hn ho ht h ?_ reply'
    rintro _ rfl
    cases hjob
  · refine hb.snoc fun subject _ => ?_
    have hnothing := handedOut_none (fun j hj => (relays_next h hjob j hj).2) subject
    rw [relayed?_work ht, emitted?_work ht, hsilent, relaying_append hserves, hnothing, hunseen,
      relaying]
    simp

/-- A run that is launched gets a driver as its courier. -/
theorem courier_launch {project : String} (hn : e.Numbered) (ho : Orderly s e)
    (hname : (project, run) ∈ e.started)
    (ht : e.task? id = some ⟨.launch project run :: rest, reply⟩)
    (h : (Job.launch project run).run s e = some (next, e₁))
    (hrest : ∀ j ∈ rest, j.serves run = false) (hone : e.pending.countP (Job.serves run) = 1)
    (hw : (e.walks.find? run).isSome = true) (hu : Unclosed run l e)
    (hb : Balanced s project run l e (.launch project run :: rest)) :
    Courier s run (l ++ [⟨e, .work id⟩]) (e₁.setTask id ⟨next ++ rest, reply'⟩) := by
  have hcount := countP_pending_work (Job.serves run) hn ht h reply'
  have hunclosed := hu.work hn ho ht h nofun reply'
  have hne : e.nextTask ≠ id := Nat.ne_of_gt (lt_nextTask hn ht)
  cases run_cases h with
  | aside ha => cases ha
  | strayed _ _ hnone =>
    rw [hnone] at hw
    cases hw
  | launched _ _ w hwalk =>
    have hput : (e.walks.put run { w with nextBeat := e.now + max s.heartbeat 1 }).find? run =
        some { w with nextBeat := e.now + max s.heartbeat 1 } := Fields.find?_put_self ..
    have hspawned : ((Job.launch project run).spawned e).flatten.countP (Job.serves run) = 1 := by
      simp [spawned, Job.serves]
    -- the first of the two tasks that are started is the driver
    have hdriver : ∀ e' : Engine, e'.Numbered → e'.nextTask = e.nextTask →
        (((e'.spawn [.drive project run]).spawn [.walk run]).setTask id ⟨[] ++ rest, reply'⟩).task?
          e.nextTask = some ⟨[.drive project run], none⟩ := by
      intro e' hn' hnext
      rw [task?_setTask_ne _ hne]
      exact task?_spawnAll (hnext ▸ task?_spawn hn' _) [[.walk run]]
    refine .served hname (hdriver _ ⟨hn.below, hn.distinct⟩ rfl) ?_ ?_ ?_ hunclosed ?_
    · simp [Job.serves]
    · rw [hone, hspawned] at hcount
      rw [Job.serves_launch] at hcount
      exact Nat.succ.inj hcount
    · exact (congrArg Option.isSome hput).trans rfl
    · refine hb.snoc fun subject _ => ?_
      rw [relayed?_work ht, relay?_none hrest, emitted?_work ht,
        relaying_server (Or.inl rfl) hrest, relaying_server (Or.inr rfl) (List.forall_mem_nil _),
        unseen_eq hwalk]
      refine Eq.trans ?_ (List.append_nil _).symm
      exact congrArg (fun o : Option Walk => (o.map (·.told)).getD []) hput

/-- The driver of a run publishes something, or nothing, and goes on. -/
theorem courier_driven {project : String} {front : List Job} (hn : e.Numbered) (ho : Orderly s e)
    (hname : (project, run) ∈ e.started)
    (ht : e.task? id = some ⟨.drive project run :: rest, reply⟩)
    (h : (Job.drive project run).run s e = some (front ++ [.drive project run], e₁))
    (hfront : ∀ j ∈ front, j.relays project run = true)
    (hrest : ∀ j ∈ rest, j.serves run = false) (hone : e.pending.countP (Job.serves run) = 1)
    (hw : (e.walks.find? run).isSome = true) (hu : Unclosed run l e)
    (hb : Balanced s project run l e (.drive project run :: rest))
    (hseen : ∀ subject, subject = run ∨ subject = project →
      front.filterMap (Job.handsOut? subject) ++ e₁.unseen run = e.unseen run) :
    Courier s run (l ++ [⟨e, .work id⟩])
      (e₁.setTask id ⟨front ++ [.drive project run] ++ rest, reply'⟩) := by
  have hcount := countP_pending_work (Job.serves run) hn ht h reply'
  have hnone : front.countP (Job.serves run) = 0 :=
    countP_none.mpr fun j hj => Job.serves_of_relays (hfront j hj)
  refine .on hn ht h (started_mono h _ hname) ?_ ?_ (walk_kept h hw nofun) ?_ ?_
  · simp [Job.serves]
  · rw [hone, List.countP_append, hnone, List.countP_singleton, Job.serves_drive] at hcount
    exact Nat.succ.inj hcount
  · refine hu.work hn ho ht h (fun project' _ hmem => ?_) reply'
    rcases List.mem_append.mp hmem with hmem | hmem
    · cases hfront _ hmem
    · cases List.mem_singleton.mp hmem
  · refine hb.snoc fun subject hsubject => ?_
    have hleft : front ++ [.drive project run] ++ rest = front ++ .drive project run :: rest :=
      List.append_assoc ..
    rw [relayed?_work ht, relay?_none hrest, emitted?_work ht, relaying_server (Or.inr rfl) hrest,
      hleft, relaying_courier (Or.inr rfl) hrest]
    exact (hseen subject hsubject).trans (List.append_nil _).symm

/-- The driver of a run publishes what it is told, or goes on, or is done. -/
theorem courier_drive {project : String} (hn : e.Numbered) (ho : Orderly s e)
    (hname : (project, run) ∈ e.started)
    (ht : e.task? id = some ⟨.drive project run :: rest, reply⟩)
    (h : (Job.drive project run).run s e = some (next, e₁))
    (hrest : ∀ j ∈ rest, j.serves run = false) (hone : e.pending.countP (Job.serves run) = 1)
    (hw : (e.walks.find? run).isSome = true) (hu : Unclosed run l e)
    (hb : Balanced s project run l e (.drive project run :: rest)) :
    Courier s run (l ++ [⟨e, .work id⟩]) (e₁.setTask id ⟨next ++ rest, reply'⟩) := by
  have hsaving : ∀ (b : Bool) (subject : String),
      (if b then saving else []).filterMap (Job.handsOut? subject) = [] := by
    intro b subject
    cases b <;> rfl
  cases run_cases h with
  | aside ha => cases ha
  | followed hf =>
    cases hf with
    | gone hnone =>
      rw [hnone] at hw
      cases hw
    | @event w event told hwalk htold =>
      have hnot := (ho.sound hwalk).told event (htold ▸ List.mem_cons_self)
      have hfront := List.forall_mem_append.mpr
        ⟨saving_relays project run (e.table.observe run event (e.readClock s).1).1,
          publishing_relays hnot⟩
      refine courier_driven hn ho hname ht h hfront hrest hone hw hu hb fun subject hsubject => ?_
      rw [List.filterMap_append, hsaving, handedOut_publishing event hsubject, unseen_setTable,
        unseen_setWalk, if_pos rfl, unseen_eq hwalk, htold]
      rfl
    | @done w hwalk htold hover =>
      have hcount := countP_pending_work (Job.serves run) hn ht h reply'
      have hunseen : e.unseen run = [] := (unseen_eq hwalk).trans htold
      rw [hone, Job.serves_drive] at hcount
      refine .done hname (countP_none.mp (Nat.succ.inj hcount)) ?_ fun subject hsubject => ?_
      · intro w' hw'
        obtain rfl := Option.some.inj (hwalk.symm.trans hw')
        exact ⟨hover, htold⟩
      · have hall := hb subject hsubject
        rw [relaying_server (Or.inr rfl) hrest, hunseen, List.append_nil, List.append_nil] at hall
        rw [relayed_snoc, relayed?_work ht, relay?_none hrest, hall, emitted_snoc, emitted?_work ht]
        rfl
    | @beat w hwalk htold hover =>
      refine courier_driven hn ho hname ht h (saving_relays project run _) hrest hone hw hu hb
        fun subject _ => ?_
      rw [hsaving, unseen_setTable, unseen_setWalk, if_pos rfl, unseen_eq hwalk]
      rfl

/-- A task that does not serve a run leaves it where it is. -/
theorem courier_other (hn : e.Numbered) (ho : Orderly s e)
    (ht : e.task? id = some ⟨job :: rest, reply⟩) (h : job.run s e = some (next, e₁))
    (hnot : ∀ j ∈ job :: rest, j.serves run = false)
    (hborn : ∀ project definition vars, job = .enrol project definition vars →
      run ≠ e.newRun s project)
    (hc : Courier s run l e) :
    Courier s run (l ++ [⟨e, .work id⟩]) (e₁.setTask id ⟨next ++ rest, reply'⟩) := by
  obtain ⟨hjob, hrest⟩ := List.forall_mem_cons.mp hnot
  have hfew := serves_next_none h hjob hborn
  have hdone : ∀ project, job = .drive project run → .settle project run ∉ next := by
    rintro _ rfl
    exact nomatch (Job.serves_drive _ run).symm.trans hjob
  have hrelayed : ∀ subject, relayed run subject (l ++ [⟨e, .work id⟩]) = relayed run subject l := by
    intro subject
    rw [relayed_snoc, relayed?_work ht, relay?_none hrest]
    exact List.append_nil _
  have hemitted : (∀ w, e.walks.find? run = some w → w.run.step (s.around.forRun run) e.now = none) →
      emitted s run (l ++ [⟨e, .work id⟩]) = emitted s run l := by
    intro hstill
    rw [emitted_snoc, emitted?_work ht, tells?_none fun _ => hstill]
    exact List.append_nil _
  cases hc with
  | unborn hname hw hnone hu hall hnothing =>
    have hstill : ∀ w, e.walks.find? run = some w → w.run.step (s.around.forRun run) e.now = none :=
      fun w hw' => nomatch hw.symm.trans hw'
    have habsent := walk_absent h hw hborn
    exact .unborn (mt (named_run_iff h run hborn).mp hname) habsent
      (forall_pending_work hn ht h hnone hfew) (hu.work hn ho ht h hdone reply')
      (fun subject => (hrelayed subject).trans (hall subject)) ((hemitted hstill).trans hnothing)
  | @served project i t hname ht' hserves hone hw hu hb =>
    -- the courier is another task, and keeps its jobs
    have hne : i ≠ id := by
      rintro rfl
      obtain rfl := Option.some.inj (ht.symm.trans ht')
      obtain ⟨j, hj, hj'⟩ := List.any_eq_true.mp hserves
      exact nomatch hj'.symm.trans (hnot j hj)
    have hsettle : ∀ project, job ≠ .settle project run := by
      rintro _ rfl
      have hcloses := hu.pending _ (mem_pending ht List.mem_cons_self)
      exact absurd (decide_eq_true rfl) (Bool.eq_false_iff.mp hcloses)
    have hwalk := walk_kept h hw hsettle
    have hunseen := unseen_run h hjob hsettle hborn
    refine .served (started_mono h _ hname) ((task?_setTask_ne _ hne _).trans (task?_run ht' h))
      hserves ((countP_serves_work hn ht h hjob hfew).trans hone) hwalk
      (hu.work hn ho ht h hdone reply') (hb.snoc fun subject _ => ?_)
    rw [relayed?_work ht, relay?_none hrest, emitted?_work ht,
      List.append_assoc (relaying run subject t.left), ← hunseen]
    rfl
  | done hname hnone hover hall =>
    have hstill : ∀ w, e.walks.find? run = some w → w.run.step (s.around.forRun run) e.now = none :=
      fun w hw => step_of_isOver (hover w hw).1
    refine .done (started_mono h _ hname) (forall_pending_work hn ht h hnone hfew) ?_ ?_
    · intro w hw
      rcases walk_from h hw with ⟨w₀, hw₀, honward⟩ | ⟨_, _, _, hj, hr, -⟩
      · obtain ⟨hover₀, htold₀⟩ := hover w₀ hw₀
        exact ⟨honward.isOver hover₀, honward.silent hover₀ htold₀⟩
      · exact absurd hr (hborn _ _ _ hj)
    · intro subject hsubject
      rw [hrelayed, hemitted hstill]
      exact hall subject hsubject

/-- The courier of a run does its next job. -/
theorem courier_self (hs : NamesApart s) (hn : e.Numbered) (ho : Orderly s e)
    (hd : Dutiful e.started (job :: rest)) (ht : e.task? id = some ⟨job :: rest, reply⟩)
    (h : job.run s e = some (next, e₁)) (hserves : (job :: rest).any (Job.serves run) = true)
    (hc : Courier s run l e) :
    Courier s run (l ++ [⟨e, .work id⟩]) (e₁.setTask id ⟨next ++ rest, reply'⟩) := by
  obtain ⟨j, hj, hj'⟩ := List.any_eq_true.mp hserves
  have hnobody : ¬ ∀ j ∈ e.pending, j.serves run = false := fun hnone =>
    nomatch hj'.symm.trans (hnone j (mem_pending ht hj))
  cases hc with
  | unborn _ _ hnone => exact absurd hnone hnobody
  | done _ hnone => exact absurd hnone hnobody
  | @served project i t hname ht' hserves' hone hw hu hb =>
    -- only one task serves the run, and this one does
    have hsame : id = i := Decidable.byContradiction fun hne =>
      nomatch hj'.symm.trans (serves_elsewhere hn hone ht' hserves' ht hne j hj)
    subst hsame
    obtain rfl := Option.some.inj (ht.symm.trans ht')
    obtain ⟨project', front, back, server, hleft, hname', hserver, hfront, hback⟩ :=
      hd.server hserves
    obtain rfl := ho.project_unique hs hname hname'
    have hback' : ∀ j ∈ back, j.serves run = false := fun j hj =>
      Job.serves_of_isApart (hback j hj)
    cases front with
    | cons j front =>
      obtain ⟨rfl, rfl⟩ := List.cons.inj hleft
      obtain ⟨hjob, hfront⟩ := List.forall_mem_cons.mp hfront
      have hbehind : (front ++ server :: back).any (Job.serves run) = true :=
        (any_serves hserver hfront hback run).trans (decide_eq_true rfl)
      exact courier_relay hn ho hname ht h hjob hbehind hone hw hu hb
    | nil =>
      obtain ⟨rfl, rfl⟩ := List.cons.inj hleft
      rcases hserver with rfl | rfl
      · exact courier_launch hn ho hname ht h hback' hone hw hu hb
      · exact courier_drive hn ho hname ht h hback' hone hw hu hb

/-- The work of a task brings what a run told on its way, and loses nothing. -/
theorem courier_work (hs : NamesApart s) (hn : e.Numbered) (ho : Orderly s e)
    (hd : Dutiful e.started (job :: rest)) (ht : e.task? id = some ⟨job :: rest, reply⟩)
    (h : job.run s e = some (next, e₁)) (hc : Courier s run l e) :
    Courier s run (l ++ [⟨e, .work id⟩]) (e₁.setTask id ⟨next ++ rest, reply'⟩) := by
  by_cases hborn : ∃ project definition vars, job = .enrol project definition vars ∧
      run = e.newRun s project
  · obtain ⟨project, definition, vars, rfl, rfl⟩ := hborn
    exact courier_enrol hs hn ho ht h hc
  by_cases hserves : (job :: rest).any (Job.serves run) = true
  · exact courier_self hs hn ho hd ht h hserves hc
  · refine courier_other hn ho ht h ?_ ?_ hc
    · exact fun j hj => Bool.eq_false_iff.mpr fun hj' =>
        hserves (List.any_eq_true.mpr ⟨j, hj, hj'⟩)
    · exact fun project definition vars hj hr => hborn ⟨project, definition, vars, hj, hr⟩

end Work

section Deeds

variable {s : Settings} {e e' : Engine} {d : Deed} {run : String} {l : List Moment}

/-- A deed that is no work of a task moves nothing. -/
theorem Courier.still (hn : e.Numbered) (h : e.after s d = some e') (hd : ∀ id, d ≠ .work id)
    (hstarted : e'.started = e.started) (hwalks : e'.walks = e.walks)
    (hserves : e'.pending.countP (Job.serves run) = e.pending.countP (Job.serves run))
    (hcloses : (∀ j ∈ e.pending, j.closes run = false) → ∀ j ∈ e'.pending, j.closes run = false)
    (hc : Courier s run l e) : Courier s run (l ++ [⟨e, d⟩]) e' := by
  have hrelayed : ∀ subject, relayed run subject (l ++ [⟨e, d⟩]) = relayed run subject l := by
    intro subject
    rw [relayed_snoc, relayed?_idle hd]
    exact List.append_nil _
  have hemitted : emitted s run (l ++ [⟨e, d⟩]) = emitted s run l := by
    rw [emitted_snoc, emitted?_idle hd]
    exact List.append_nil _
  have hpending : (∀ j ∈ e.pending, j.serves run = false) →
      ∀ j ∈ e'.pending, j.serves run = false := by
    intro hnone
    exact countP_none.mp (hserves.trans (countP_none.mpr hnone))
  have hunclosed : Unclosed run l e → Unclosed run (l ++ [⟨e, d⟩]) e' := by
    refine fun hu => ⟨hcloses hu.pending, List.forall_mem_append.mpr ⟨hu.published, ?_⟩⟩
    refine List.forall_mem_singleton.mpr fun subject event hpublished => ?_
    cases (published?_eq_some hpublished).symm.trans (job?_of_ne hd)
  cases hc with
  | unborn hname hw hnone hu hall hnothing =>
    refine .unborn ?_ (hwalks ▸ hw) (hpending hnone) (hunclosed hu)
      (fun subject => (hrelayed subject).trans (hall subject)) (hemitted.trans hnothing)
    rintro ⟨project, hmem⟩
    exact hname ⟨project, hstarted ▸ hmem⟩
  | @served project id t hname ht hany hone hw hu hb =>
    have hleft : t.left ≠ [] := by
      intro hnil
      rw [hnil] at hany
      cases hany
    refine .served (hstarted ▸ hname) (after_task? hn h (hd id) ht hleft) hany
      (hserves.trans hone) (hwalks ▸ hw) (hunclosed hu) fun subject hsubject => ?_
    rw [hrelayed, hemitted, unseen, hwalks]
    exact hb subject hsubject
  | done hname hnone hover hall =>
    refine .done (hstarted ▸ hname) (hpending hnone) (hwalks ▸ hover) fun subject hsubject => ?_
    rw [hrelayed, hemitted]
    exact hall subject hsubject

/-- **Every deed brings what a run told on its way, and loses nothing.** -/
theorem courier_after (hs : NamesApart s) (hn : e.Numbered) (ho : Orderly s e) (hduties : e.Duties)
    (h : e.after s d = some e') (hc : Courier s run l e) :
    Courier s run (l ++ [⟨e, d⟩]) e' := by
  cases after_cases hn h with
  | worked ht hrun => exact courier_work hs hn ho (hduties _ (task_mem ht)) ht hrun hc
  | @asked c =>
    have hnone : c.jobs.countP (Job.serves run) = 0 :=
      countP_none.mpr fun j hj => Job.serves_of_isApart (jobs_apart c j hj).1
    refine hc.still hn h nofun rfl rfl ?_ ?_
    · rw [pending_ask, List.countP_append, hnone, Nat.zero_add]
    · exact fun hold => List.forall_mem_append.mpr ⟨fun j hj => (jobs_apart c j hj).2 run, hold⟩
  | still _ hd hstill =>
    refine hc.still hn h hd hstill.started hstill.walks ?_ ?_
    · rw [hstill.pending]
    · rw [hstill.pending]
      exact fun hold => hold

end Deeds

/-- How far what a run told has come, whatever happens. -/
theorem Reached.courier {s : Settings} (hsandbox : s.around.IsSandboxed) (hs : NamesApart s)
    {l : List Moment} {e : Engine} (h : Reached s l e) (run : String) : Courier s run l e := by
  induction h using Reached.along with
  | start =>
    refine .unborn ?_ rfl (List.forall_mem_nil _) ?_ (fun _ => rfl) rfl
    · rintro ⟨_, hmem⟩
      cases hmem
    · exact ⟨List.forall_mem_nil _, List.forall_mem_nil _⟩
  | snoc hreached hd ih =>
    exact courier_after hs hreached.numbered (hreached.orderly hsandbox hs)
      (hreached.duties hsandbox hs) hd ih

/-! ## All of it, in order -/

/-- Where the end of a run was announced, as its interpreter came to it, or is about to be,
all that the run told was published. -/
theorem Courier.closed {s : Settings} {e : Engine} {run : String} {l : List Moment}
    (hc : Courier s run l e) (hclosed : ¬ Unclosed run l e) :
    ∃ project, (project, run) ∈ e.started ∧
      (∀ w, e.walks.find? run = some w → w.run.isOver = true) ∧
      ∀ subject, subject = run ∨ subject = project →
        relayed run subject l = .runStarted run :: emitted s run l := by
  cases hc with
  | unborn _ _ _ hu => exact absurd hu hclosed
  | served _ _ _ _ _ hu => exact absurd hu hclosed
  | @done project hname _ hover hall => exact ⟨project, hname, fun w hw => (hover w hw).1, hall⟩

/-- A run whose end was announced told nothing more, and all that it had told was published
before that. -/
theorem Reached.closed_last {s : Settings} (hsandbox : s.around.IsSandboxed) (hs : NamesApart s)
    {l₁ l₂ : List Moment} {m : Moment} {e : Engine} (h : Reached s (l₁ ++ m :: l₂) e)
    {run subject : String} {event : Event} (hpublished : m.published? subject = some event)
    (hcloses : event.closes run = true) :
    ∃ project, (project, run) ∈ e.started ∧ ∀ subject', subject' = run ∨ subject' = project →
      relayed run subject' l₁ = .runStarted run :: emitted s run (l₁ ++ m :: l₂) := by
  generalize hl : l₁ ++ m :: l₂ = l at h ⊢
  induction h using Reached.along generalizing l₂ with
  | start => exact absurd hl (by simp)
  | @snoc l e e' d hreached hd ih =>
    have hmore := started_after hreached.numbered hd
    have hsilent : (∀ w, e.walks.find? run = some w → w.run.isOver = true) →
        emitted s run (l ++ [⟨e, d⟩]) = emitted s run l := by
      intro hover
      have hnothing : (⟨e, d⟩ : Moment).emitted? s run = none :=
        Option.bind_eq_none_iff.mpr fun job _ =>
          tells?_none fun _ w hw => step_of_isOver (hover w hw)
      rw [emitted_snoc, hnothing]
      exact List.append_nil _
    rcases List.eq_nil_or_concat l₂ with rfl | ⟨l₂, x, rfl⟩
    -- the end is announced by the last deed, so it was due before
    · obtain ⟨rfl, hm⟩ := List.append_inj' hl rfl
      obtain rfl := (List.cons.inj hm).1
      have hclosed : ¬ Unclosed run l₁ e := by
        intro hu
        obtain ⟨id, rest, reply, -, ht⟩ := published?_task hpublished
        exact nomatch hcloses.symm.trans (hu.pending _ (mem_pending ht List.mem_cons_self))
      obtain ⟨project, hname, hover, hall⟩ :=
        (hreached.courier hsandbox hs run).closed hclosed
      refine ⟨project, hmore _ hname, fun subject' hsubject => ?_⟩
      rw [hsilent hover]
      exact hall subject' hsubject
    -- it was announced before, and a run that is over tells nothing more
    · rw [List.concat_eq_append, ← List.cons_append, ← List.append_assoc] at hl
      obtain ⟨rfl, hx⟩ := List.append_inj' hl rfl
      have hclosed : ¬ Unclosed run (l₁ ++ m :: l₂) e := fun hu =>
        nomatch hcloses.symm.trans (hu.published m (by simp) subject event hpublished)
      obtain ⟨-, -, hover, -⟩ := (hreached.courier hsandbox hs run).closed hclosed
      obtain ⟨project, hname, hall⟩ := ih rfl
      refine ⟨project, hmore _ hname, fun subject' hsubject => ?_⟩
      rw [hsilent hover]
      exact hall subject' hsubject

/-- **What a run tells is published in order.** Whatever tasks do and in whatever order, and
whatever becomes of the run: that it was started and then all events that its interpreter
told are published for it, on its own subject and on that of its project, each once and
in the order in which they were told, and what is not published yet is on its way.
Where no task serves the run any more all is published; and the end that its interpreter
came to is announced only after that.

All that is published on any subject is of one run each, the ends left out; so on a subject
that is of one run only, nothing else is published. -/
theorem Reached.relayed_in_order {s : Settings} (hsandbox : s.around.IsSandboxed)
    (hs : NamesApart s) {l : List Moment} {e : Engine} (h : Reached s l e) {project run : String}
    (hname : (project, run) ∈ e.started) :
    (∀ subject, subject = run ∨ subject = project →
        relayed run subject l ++ underway run subject e ++ e.unseen run =
            .runStarted run :: emitted s run l ∧
          ((∀ j ∈ e.pending, j.serves run = false) →
            relayed run subject l = .runStarted run :: emitted s run l)) ∧
      (∀ l₁ m l₂, l = l₁ ++ m :: l₂ → ∀ subject event, m.published? subject = some event →
        event.closes run = true → ∀ subject', subject' = run ∨ subject' = project →
          relayed run subject' l₁ = .runStarted run :: emitted s run l) ∧
      (∀ m ∈ l, ∀ subject event,
        (m.published? subject = some event → event.isTerminal = false →
          ∃ project' run', (project', run') ∈ e.started ∧
            (subject = run' ∨ subject = project') ∧
            ∀ other, m.relayed? other subject = if run' = other then some event else none) ∧
        ∀ other, m.relayed? other subject = some event →
          m.published? subject = some event ∧ event.isTerminal = false) ∧
      ∀ subject, (∀ project' run', (project', run') ∈ e.started →
          subject = run' ∨ subject = project' → run' = run) →
        (published subject l).filter (fun event => !event.isTerminal) =
          relayed run subject l := by
  have ho := h.orderly hsandbox hs
  refine ⟨fun subject hsubject => ?_, ?_, fun m hm subject event => ?_, fun subject honly => ?_⟩
  · cases h.courier hsandbox hs run with
    | unborn hnot => exact absurd ⟨project, hname⟩ hnot
    | @served project' id t hname' ht hserves hone _ _ hb =>
      obtain rfl := ho.project_unique hs hname hname'
      rw [underway_served h.numbered hone ht hserves]
      refine ⟨hb subject hsubject, fun hnone => ?_⟩
      exact absurd (hone.symm.trans (countP_none.mpr hnone)) Nat.one_ne_zero
    | @done project' hname' hnone hover hall =>
      obtain rfl := ho.project_unique hs hname hname'
      have hunseen : e.unseen run = [] := by
        cases hw : e.walks.find? run with
        | none =>
          rw [unseen, hw]
          rfl
        | some w => exact (unseen_eq hw).trans (hover w hw).2
      rw [underway_none hnone, hunseen, List.append_nil, List.append_nil]
      exact ⟨hall subject hsubject, fun _ => hall subject hsubject⟩
  · rintro l₁ m l₂ rfl subject event hpublished hcloses
    obtain ⟨project', hname', hall⟩ := h.closed_last hsandbox hs hpublished hcloses
    obtain rfl := ho.project_unique hs hname hname'
    exact hall
  · obtain ⟨⟨l', hreached⟩, hfewer⟩ := h.before hm
    have hd := hreached.duties hsandbox hs
    refine ⟨fun hpublished hnot => ?_, fun other => hd.published⟩
    obtain ⟨project', run', hmem, hrest⟩ := hd.relayed hpublished hnot
    exact ⟨project', run', hfewer _ hmem, hrest⟩
  · exact h.published_without_ends hsandbox hs honly

/-- A course to the end of a run: its interpreter tells that it visits the first node and
breaks down, and its driver is about to announce that on the run. -/
def towardsBreakdown : List Deed :=
  .ask trialStart :: List.replicate 14 (.work 0) ++ List.replicate 2 (.work 2) ++
    List.replicate 17 (.work 1)

/-- At the end of that course the driver is indeed about to announce the breakdown. -/
theorem towardsBreakdown_spec :
    ∃ l e e', (fresh .absent none 8 8).replay trial towardsBreakdown = some (l, e) ∧
      e.after trial (.work 1) = some e' ∧ e'.started = [("p", "#:p")] ∧
      (⟨e, .work 1⟩ : Moment).published? "#:p" = some (breakdown "#:p") ∧
      emitted trial "#:p" (l ++ [⟨e, .work 1⟩]) = [.nodeStart "a"] ∧
      e'.pending.any (Job.serves "#:p") = false := by
  have hsome : ((fresh .absent none 8 8).replay trial towardsBreakdown).isSome = true := rfl
  have hafter : ((Option.get _ hsome).2.after trial (.work 1)).isSome = true := rfl
  exact ⟨_, _, _, (Option.some_get hsome).symm, (Option.some_get hafter).symm, rfl, rfl, rfl,
    rfl⟩

/-- A run that breaks down fails after all that it told was published, and nothing comes
after that. -/
theorem published_before_breakdown :
    ∃ l e e', Reached trial (l ++ [⟨e, .work 1⟩]) e' ∧
      (⟨e, .work 1⟩ : Moment).published? "#:p" = some (breakdown "#:p") ∧
      relayed "#:p" "#:p" l = [.runStarted "#:p", .nodeStart "a"] ∧
      relayed "#:p" "p" l = [.runStarted "#:p", .nodeStart "a"] ∧
      (published "#:p" (l ++ [⟨e, .work 1⟩])).filter (fun event => !event.isTerminal) =
        [.runStarted "#:p", .nodeStart "a"] := by
  obtain ⟨l, e, e', hfront, hafter, hnames, hpublished, hemitted, hserves⟩ := towardsBreakdown_spec
  have hreached : Reached trial (l ++ [⟨e, .work 1⟩]) e' :=
    ⟨_, _, _, _, (replay_runs hfront).snoc hafter⟩
  have hname : ("p", "#:p") ∈ e'.started := hnames ▸ List.mem_cons_self
  obtain ⟨hall, hclosed, -, honly⟩ :=
    hreached.relayed_in_order trial_isSandboxed trial_namesApart hname
  rw [hemitted] at hall hclosed
  have hbefore := hclosed l _ [] rfl "#:p" _ hpublished rfl
  refine ⟨l, e, e', hreached, hpublished, hbefore _ (Or.inl rfl), hbefore _ (Or.inr rfl), ?_⟩
  refine (honly "#:p" fun project' run' hname' _ => ?_).trans
    ((hall "#:p" (Or.inl rfl)).2 (any_none.mp hserves))
  rw [hnames] at hname'
  exact (Prod.mk.inj (List.mem_singleton.mp hname')).2

end Workflow.Engine
