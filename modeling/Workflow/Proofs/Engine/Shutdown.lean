import Workflow.Proofs.Engine.Finishing
import Workflow.Proofs.Engine.Observed
import Workflow.Proofs.Engine.Relay
import Workflow.Proofs.Interpreter.Halt

/-!
# Shutting down

A shutdown looks for the active runs once, stops those it has found one by one, each as if somebody
had asked for that, and only then cancels all walks, those to come with them. Stopping a run takes
saving and publishing, and meanwhile anybody may start further ones, which are not among those that
were found.

So the runs end in two ways (`Roams.shut_down`):

* Those that were known when the shutdown was called are not active any more when it returns, since
  each of them was idle already or was stopped on the way (`Closing`).
* Those that came later are not stopped, but their walks are cancelled, with all others or from
  their beginning (`Shut`). Their records are active until their drivers are done
  (`Roams.idle_of_done`).

A walk that is cancelled starts no script and follows no edge, and has a step to go at any time
until it is over.
-/

namespace Workflow

/-- A step of a run that was stopped starts no script and follows no edge, and leaves it stopped. -/
theorem Interpreter.step_halted {around : Surroundings} (hs : around.IsSandboxed)
    {r r' : Interpreter} {now : Nat} {told : Option Event}
    (hstep : r.step around now = some (told, r')) (hc : r.cancelled = true) (hsound : r.Sound) :
    r'.cancelled = true ∧ ¬ (⟨r, .step now, told, r'⟩ : Stride).StartsScript ∧
      ∀ edge, told ≠ some (.edgeStart edge) := by
  have hunbroken : r.phase ≠ .broken := by
    intro hp
    rw [step, hp] at hstep
    cases hstep
  have hwalks : Walks around r [⟨r, .step now, told, r'⟩] r' := Walks.nil.snoc hstep
  have hhalted := hwalks.halted hs hc hunbroken hsound
  exact ⟨hhalted.cancelled, hhalted.quiet _ List.mem_cons_self⟩

namespace Engine

open Engine.Job

/-! ## Walks that are cancelled -/

section Walks

variable {s : Settings} {e e' e₁ : Engine} {job : Job} {next : List Job}

/-- A walk that was stopped stays so. -/
theorem Onward.still_cancelled {around : Surroundings} (hs : around.IsSandboxed) {now : Nat}
    {w w' : Walk} (ho : Onward around now w w') (hw : w.Sound) (hc : w.run.cancelled = true) :
    w'.run.cancelled = true := by
  induction ho with
  | trans ho₁ _ ih₁ ih₂ => exact ih₂ (ho₁.sound hs hw) (ih₁ hw hc)
  | stepped hstep => exact (Interpreter.step_halted hs hstep hc hw.run).1
  | cancelled => rfl
  | _ => exact hc

/-- Wherever an engine roams, what its walks have left to tell is of scripts. -/
theorem Roams.sound (hsandbox : s.around.IsSandboxed) {file : Stored}
    {source : Option (Option (Fields String))} {buffer busCapacity : Nat} {l : List Moment}
    (h : Roams s (fresh file source buffer busCapacity) l e) {run : String} {w : Walk}
    (hw : e.walks.find? run = some w) : w.Sound := by
  induction h generalizing w with
  | nil => cases hw
  | snoc hr hd ih =>
    cases roam_cases hr.enlisted.numbered hd with
    | asked => exact ih hw
    | worked _ hrun =>
      rcases walk_from hrun hw with ⟨w₀, hw₀, honward⟩ | ⟨_, definition, vars, -, -, honward⟩
      · exact honward.sound (hsandbox.forRun run) (ih hw₀)
      · exact honward.sound (hsandbox.forRun run) (newWalk_sound _ definition vars)
    | still _ hstill => exact ih (hstill.walks ▸ hw)

/-- What was shut stays so. -/
theorem isShut_run (h : job.run s e = some (next, e₁)) (hshut : e.isShut = true) :
    e₁.isShut = true := by
  by_cases hsignal : ∃ run, job = .signal run
  · obtain ⟨run, rfl⟩ := hsignal
    cases h
    exact hshut
  by_cases hcancel : job = .cancelAll
  · subst hcancel
    cases h
    rfl
  exact (run_marks h (fun run heq => hsignal ⟨run, heq⟩) hcancel).2.trans hshut

theorem newWalk_cancelled (hshut : e.isShut = true) (definition : Definition) (vars : Vars) :
    (e.newWalk definition vars).run.cancelled = true := by
  rw [newWalk, hshut]
  rfl

/-- **Shut**: all walks were cancelled, and those that begin from now on are. -/
structure Shut (e : Engine) : Prop where
  /-- what is enlisted is cancelled at once -/
  isShut : e.isShut = true
  /-- what is on its way was cancelled -/
  cancelled : ∀ {run w}, e.walks.find? run = some w → w.run.cancelled = true ∧ w.Sound

theorem shut_cancelAll (hsound : ∀ {run w}, e.walks.find? run = some w → w.Sound)
    (h : Job.cancelAll.run s e = some (next, e₁)) : Shut e₁ := by
  cases h
  refine ⟨rfl, fun {run w} hw => ?_⟩
  have hmap := Fields.find?_map e.walks (fun _ w => { w with run := w.run.cancel }) run
  obtain ⟨w₀, hw₀, rfl⟩ := Option.map_eq_some_iff.mp (hmap.symm.trans hw)
  obtain ⟨hleft, htold⟩ := hsound hw₀
  exact ⟨rfl, hleft, htold⟩

theorem Shut.work (hsandbox : s.around.IsSandboxed) (hc : Shut e)
    (h : job.run s e = some (next, e₁)) : Shut e₁ := by
  refine ⟨isShut_run h hc.isShut, fun {run w} hw => ?_⟩
  rcases walk_from h hw with ⟨w₀, hw₀, honward⟩ | ⟨_, definition, vars, -, -, honward⟩
  · obtain ⟨hcancelled, hsound⟩ := hc.cancelled hw₀
    exact ⟨honward.still_cancelled (hsandbox.forRun run) hsound hcancelled, honward.sound (hsandbox.forRun run) hsound⟩
  · have hsound := newWalk_sound e definition vars
    have hcancelled := newWalk_cancelled hc.isShut definition vars
    exact ⟨honward.still_cancelled (hsandbox.forRun run) hsound hcancelled, honward.sound (hsandbox.forRun run) hsound⟩

theorem Shut.step (hsandbox : s.around.IsSandboxed) (hc : Shut e) (hn : e.Numbered) {d : Deed}
    (hd : e.roam s d = some e') : Shut e' := by
  cases roam_cases hn hd with
  | asked => exact ⟨hc.isShut, hc.cancelled⟩
  | worked _ hrun =>
    obtain ⟨hshut, hcancelled⟩ := hc.work hsandbox hrun
    exact ⟨hshut, hcancelled⟩
  | still hwork hstill =>
    exact ⟨(roam_marks hwork hd).2.trans hc.isShut, fun hw => hc.cancelled (hstill.walks ▸ hw)⟩

/-- What was shut stays so, at every moment. -/
theorem Roams.shut (hsandbox : s.around.IsSandboxed) {l : List Moment} (h : Roams s e l e')
    (hn : e.Numbered) (hc : Shut e) : Shut e' ∧ ∀ m ∈ l, Shut m.before := by
  induction h with
  | nil => exact ⟨hc, List.forall_mem_nil _⟩
  | snoc hr hd ih =>
    obtain ⟨hshut, hbefore⟩ := ih
    refine ⟨hshut.step hsandbox (hr.numbered hn) hd, List.forall_mem_append.mpr ⟨hbefore, ?_⟩⟩
    exact List.forall_mem_singleton.mpr hshut

end Walks

/-! ## Scripts and edges -/

/-- Whether a run starts a script at a moment. -/
def Moment.StartsScript (s : Settings) (run : String) (m : Moment) : Prop :=
  ∃ w told r, m.job? = some (.walk run) ∧ m.before.walks.find? run = some w ∧
    w.run.step (s.around.forRun run) m.before.now = some (told, r) ∧
    (⟨w.run, .step m.before.now, told, r⟩ : Interpreter.Stride).StartsScript

/-- What a run tells at a moment is told by a step of its walk. -/
theorem emitted?_eq_some {s : Settings} {run : String} {event : Event} {m : Moment}
    (h : m.emitted? s run = some event) :
    ∃ w r, m.before.walks.find? run = some w ∧
      w.run.step (s.around.forRun run) m.before.now = some (some event, r) := by
  obtain ⟨job, -, htells⟩ := Option.bind_eq_some_iff.mp h
  cases job
  case walk id =>
    rw [tells?] at htells
    split at htells
    · obtain ⟨⟨told, r⟩, hgoes, rfl⟩ := Option.bind_eq_some_iff.mp htells
      obtain ⟨w, hw, hstep⟩ := Option.bind_eq_some_iff.mp hgoes
      exact ⟨w, r, hw, hstep⟩
    · cases htells
  all_goals cases htells

/-- After all was cancelled nobody starts a script or follows an edge. -/
theorem Shut.quiet {s : Settings} (hsandbox : s.around.IsSandboxed) {m : Moment}
    (hc : Shut m.before) (run : String) :
    ¬ m.StartsScript s run ∧ ∀ edge, m.emitted? s run ≠ some (.edgeStart edge) := by
  have hhalted : ∀ {w told r}, m.before.walks.find? run = some w →
      w.run.step (s.around.forRun run) m.before.now = some (told, r) →
      ¬ (⟨w.run, .step m.before.now, told, r⟩ : Interpreter.Stride).StartsScript ∧
        ∀ edge, told ≠ some (.edgeStart edge) := by
    intro w told r hw hstep
    obtain ⟨hcancelled, hsound⟩ := hc.cancelled hw
    exact (Interpreter.step_halted (hsandbox.forRun run) hstep hcancelled hsound.run).2
  constructor
  · rintro ⟨w, told, r, -, hw, hstep, hstarts⟩
    exact (hhalted hw hstep).1 hstarts
  · intro edge hemitted
    obtain ⟨w, r, hw, hstep⟩ := emitted?_eq_some hemitted
    exact (hhalted hw hstep).2 edge rfl

/-! ## Records that are closed -/

/-- Whether a run has no active record. -/
def Idle (e : Engine) (run : String) : Prop :=
  ∀ h, e.table.find? run = some h → h.record.status.isActive = false

section Records

variable {s : Settings} {e e' e₁ : Engine} {job : Job} {next : List Job} {run : String}

/-- The runs that a shutdown finds are those that are active. -/
theorem mem_activeIds {h : Handle} (hf : e.table.find? run = some h)
    (ha : h.record.status.isActive = true) : run ∈ e.table.activeIds :=
  List.mem_map.mpr ⟨(run, h), List.mem_filter.mpr ⟨Fields.mem_of_find? hf, ha⟩, rfl⟩

/-- A record that was closed is not opened again. -/
theorem Idle.work (hi : e.Idle run) (hs : NamesApart s) (he : Enlisted s e)
    (hname : e.Named run) (hj : job ∈ e.pending) (hrun : job.run s e = some (next, e₁)) :
    e₁.Idle run := by
  intro h hf
  refine Bool.eq_false_iff.mpr fun ha => ?_
  rcases he.origin hj hrun hf ha with ⟨old, hold, hactive, -⟩ | ⟨_, _, -, hnew, -⟩
  · have hnot := hi old hold
    exact nomatch hactive.symm.trans hnot
  · rw [hnew] at hname
    exact he.newRun_fresh hs _ hname

theorem Idle.step (hi : e.Idle run) (hs : NamesApart s) (he : Enlisted s e)
    (hname : e.Named run) {d : Deed} (hd : e.roam s d = some e') : e'.Idle run := by
  cases roam_cases he.numbered hd with
  | asked => exact hi
  | worked ht hrun =>
    have hidle := hi.work hs he hname (mem_pending ht List.mem_cons_self) hrun
    exact hidle
  | still _ hstill =>
    intro h hf
    exact hi h (hstill.table ▸ hf)

/-- A run that is settled is not active. -/
theorem settle_idle {project : String} (hrun : (Job.settle project run).run s e = some (next, e₁))
    (hw : (e.walks.find? run).isSome = true) : e₁.Idle run := by
  intro h hf
  cases run_cases hrun with
  | aside ha => cases ha
  | settled hsettled =>
    cases hsettled with
    | gone hgone =>
      rw [hgone] at hw
      cases hw
    | unknown _ hnone => cases hf.symm.trans hnone
    | known =>
      have hput : (Fields.put e.table run _).find? run = some h := hf
      rw [Fields.find?_put_self] at hput
      cases hput
      exact (RunTable.settled_spec ..).2.2

/-- A name that was given stays given. -/
theorem Roams.named {l : List Moment} (h : Roams s e l e') (hn : e.Numbered)
    (hname : e.Named run) : e'.Named run := by
  induction h with
  | nil => exact hname
  | snoc hr hd ih =>
    cases roam_cases (hr.numbered hn) hd with
    | asked => exact ih
    | worked _ hrun => exact named_run hrun ih
    | still _ hstill =>
      obtain ⟨project, hmem⟩ := ih
      exact ⟨project, hstill.started ▸ hmem⟩

/-- A record that was closed stays so. -/
theorem Roams.idle (hs : NamesApart s) {l : List Moment} (h : Roams s e l e') (he : Enlisted s e)
    (hname : e.Named run) (hi : e.Idle run) : e'.Idle run := by
  induction h with
  | nil => exact hi
  | snoc hr hd ih => exact ih.step hs (he.roams hr) (hr.named he.numbered hname) hd

end Records

/-! ## Runs whose driver is done -/

section Drivers

variable {s : Settings} {e e' e₁ : Engine} {id : Nat} {job : Job} {rest next : List Job}
  {reply reply' : Option Reply} {run : String} {l : List Moment}

/-- While a run is active, its driver has work to do after the work of any task if it had before. -/
theorem conducted_work (hs : NamesApart s) (he : Enlisted s e) (hc : Conduct run l e)
    (hbefore : e.pending.countP (Job.conducts run) = 0 → e.Idle run)
    (ht : e.task? id = some ⟨job :: rest, reply⟩) (hrun : job.run s e = some (next, e₁))
    (hnone : (e₁.setTask id ⟨next ++ rest, reply'⟩).pending.countP (Job.conducts run) = 0) :
    e₁.Idle run := by
  have hn := he.numbered
  have hmem := mem_pending ht List.mem_cons_self
  intro h hf
  refine Bool.eq_false_iff.mpr fun ha => ?_
  rcases he.origin hmem hrun hf ha with ⟨old, hold, hactive, -⟩ | ⟨definition, vars, rfl, rfl, -⟩
  · -- it was active before, so a job was left that is followed by another one
    have hsome : e.pending.countP (Job.conducts run) ≠ 0 := by
      intro hzero
      have hnot := hbefore hzero old hold
      exact nomatch hactive.symm.trans hnot
    obtain ⟨j, hj, hconducts⟩ := List.countP_pos_iff.mp (Nat.pos_of_ne_zero hsome)
    obtain ⟨-, hone, hw, -⟩ := hc.onWay hj hconducts
    by_cases hsettle : ∃ project, job = .settle project run
    · obtain ⟨project, rfl⟩ := hsettle
      have hnot := settle_idle hrun hw h hf
      exact nomatch ha.symm.trans hnot
    · have hborn : ∀ project definition vars, job = .enrol project definition vars →
          run ≠ e.newRun s project := fun project _ _ _ => he.newRun_ne hs hold hactive project
      have hbalance := conducts_balance hrun (fun _ => hw) hborn fun project heq =>
        hsettle ⟨project, heq⟩
      have hcount := countP_pending_work (Job.conducts run) hn ht hrun reply'
      omega
  · -- it was enlisted just now, and is to be launched
    cases run_cases hrun with
    | aside ha => cases ha
    | enrolled =>
      have hlaunch : Job.launch h.record.projectId (e.newRun s h.record.projectId) ∈
          e.enrolling s h.record.projectId definition vars :=
        List.mem_append_right _ List.mem_cons_self
      rcases mem_pending_work hn ht hrun reply' (Or.inr hlaunch) with heq | hleft
      · cases heq
      · have hnot := countP_none.mp hnone _ hleft
        exact nomatch hnot.symm.trans (decide_eq_true rfl)

/-- **A run whose driver is done is not active.** -/
theorem Roams.idle_of_done (hs : NamesApart s) {file : Stored}
    {source : Option (Option (Fields String))} {buffer busCapacity : Nat}
    (h : Roams s (fresh file source buffer busCapacity) l e)
    (hdone : e.pending.countP (Job.conducts run) = 0) : e.Idle run := by
  induction h with
  | nil =>
    intro h hf
    cases hf
  | snoc hr hd ih =>
    have he := hr.enlisted
    cases roam_cases he.numbered hd with
    | asked c =>
      rw [pending_ask, List.countP_append, Nat.add_eq_zero_iff] at hdone
      exact ih hdone.2
    | worked ht hrun =>
      have hidle := conducted_work hs he (hr.conduct hs run) ih ht hrun hdone
      exact hidle
    | still _ hstill =>
      intro h hf
      exact ih (hstill.pending ▸ hdone) h (hstill.table ▸ hf)

end Drivers

/-! ## The call -/

/-- **Closing**: how far the task has come that carries out a shutdown, and what has become of the
runs that were known when it was called. -/
inductive Closing (before : Engine) (id : Nat) (e : Engine) : Prop
  /-- it has yet to look for the active runs -/
  | called {reply : Option Reply} : e.task? id = some ⟨[.shutDown], reply⟩ → Closing before id e
  /-- it stops those that it has found, and all others are idle -/
  | stopping {front back : List Job} {reply : Option Reply} :
      e.task? id = some ⟨front ++ .cancelAll :: back, reply⟩ →
      (∀ run, before.Named run → e.Idle run ∨ .stop run ∈ front) → Closing before id e
  /-- it has cancelled all -/
  | shut : Shut e → (∀ run, before.Named run → e.Idle run) → Closing before id e

section Closing

variable {s : Settings} {before e e' : Engine} {id : Nat} {reply : Option Reply}

/-- When the call looks for the active runs, it finds all that are not idle. -/
theorem closing_called (hn : e.Numbered) (ht : e.task? id = some ⟨[.shutDown], reply⟩)
    (hd : e.roam s (.work id) = some e') : Closing before id e' := by
  obtain ⟨next, e₁, hrun, reply', heq, htask⟩ := roam_work hn ht hd
  cases hrun
  have hleft := htask (by simp)
  rw [List.append_nil] at hleft
  refine .stopping hleft fun run _ => ?_
  by_cases hfound : run ∈ e.table.activeIds
  · exact Or.inr (List.mem_map_of_mem hfound)
  · refine Or.inl fun h hf => Bool.eq_false_iff.mpr fun ha => hfound ?_
    subst heq
    exact mem_activeIds hf ha

/-- Each stop leaves one run less to stop, and after the last one all is cancelled. -/
theorem closing_stopping (hs : NamesApart s) (he : Enlisted s e)
    (hsound : ∀ {run w}, e.walks.find? run = some w → w.Sound)
    (hnamed : ∀ run, before.Named run → e.Named run) {front back : List Job}
    (ht : e.task? id = some ⟨front ++ .cancelAll :: back, reply⟩)
    (hstops : ∀ run, before.Named run → e.Idle run ∨ .stop run ∈ front)
    (hd : e.roam s (.work id) = some e') : Closing before id e' := by
  have hn := he.numbered
  have hkept : ∀ run, before.Named run → e.Idle run → e'.Idle run := fun run hname hi =>
    hi.step hs he (hnamed run hname) hd
  cases front with
  | nil =>
    have hidle : ∀ run, before.Named run → e'.Idle run := fun run hname =>
      hkept run hname ((hstops run hname).resolve_right List.not_mem_nil)
    obtain ⟨next, e₁, hrun, reply', rfl, -⟩ := roam_work hn ht hd
    obtain ⟨hshut, hcancelled⟩ := shut_cancelAll hsound hrun
    exact .shut ⟨hshut, hcancelled⟩ hidle
  | cons job front =>
    rw [List.cons_append] at ht
    obtain ⟨next, e₁, hrun, reply', heq, htask⟩ := roam_work hn ht hd
    have hleft := htask (by simp)
    rw [← List.append_assoc] at hleft
    refine .stopping hleft fun run hname => ?_
    rcases hstops run hname with hi | hstop
    · exact Or.inl (hkept run hname hi)
    · rcases List.mem_cons.mp hstop with rfl | hstop
      · subst heq
        exact Or.inl fun h hf => stop_inactive hrun hf
      · exact Or.inr (List.mem_append_right _ hstop)

/-- **Every deed keeps the call on its course.** -/
theorem Closing.step (hsandbox : s.around.IsSandboxed) (hs : NamesApart s) (he : Enlisted s e)
    (hsound : ∀ {run w}, e.walks.find? run = some w → w.Sound)
    (hnamed : ∀ run, before.Named run → e.Named run) (hc : Closing before id e) {d : Deed}
    (hd : e.roam s d = some e') : Closing before id e' := by
  have hn := he.numbered
  have hkept : ∀ run, before.Named run → e.Idle run → e'.Idle run := fun run hname hi =>
    hi.step hs he (hnamed run hname) hd
  cases hc with
  | called ht =>
    by_cases hown : d = .work id
    · subst hown
      exact closing_called hn ht hd
    · exact .called (roam_task? hn hd hown ht (List.cons_ne_nil _ _))
  | stopping ht hstops =>
    by_cases hown : d = .work id
    · subst hown
      exact closing_stopping hs he hsound hnamed ht hstops hd
    · exact .stopping (roam_task? hn hd hown ht (by simp)) fun run hname =>
        (hstops run hname).imp_left (hkept run hname)
  | shut hshut hidle =>
    exact .shut (hshut.step hsandbox hn hd) fun run hname => hkept run hname (hidle run hname)

/-- When the call has returned, all is cancelled and no run is active that was known before. -/
theorem Closing.returned (hc : Closing before id e) (hdone : e.isDone id = true) :
    Shut e ∧ ∀ run, before.Named run → e.Idle run := by
  cases hc with
  | called ht =>
    rw [isDone, ht] at hdone
    cases hdone
  | stopping ht =>
    rw [isDone, ht] at hdone
    simp at hdone
  | shut hshut hidle => exact ⟨hshut, hidle⟩

/-- From the call on, whatever else happens, it is on its course. -/
theorem Roams.closing (hsandbox : s.around.IsSandboxed) (hs : NamesApart s) {file : Stored}
    {source : Option (Option (Fields String))} {buffer busCapacity : Nat} {l l' : List Moment}
    (hbefore : Roams s (fresh file source buffer busCapacity) l before)
    (hduring : Roams s (before.ask Call.shutDown.jobs) l' e) :
    Closing before before.nextTask e := by
  induction hduring with
  | nil =>
    have htask : (before.ask Call.shutDown.jobs).task? before.nextTask =
        some ⟨Call.shutDown.jobs, none⟩ := by
      simp [task?, ask]
    exact .called htask
  | snoc hr hd ih =>
    have hroams := (hbefore.asked .shutDown).trans hr
    have hnamed : ∀ run, before.Named run → Named _ run := fun run hname =>
      hr.named (ask_numbered hbefore.enlisted.numbered _) hname
    exact ih.step hsandbox hs hroams.enlisted (hroams.sound hsandbox) hnamed hd

end Closing

/-- **After a shutdown.** Whatever tasks do and in whatever order, before a shutdown, while it goes
on and after it has returned, and whichever runs are started on the way:

* after it has returned no run starts a script or follows an edge, be it old or new;
* the runs that were known when it was called are not active;
* no run is active whose driver is done, whenever it was started;
* a run that is still on its way was cancelled, and can go a step at any time until it is over, so
  its driver need not wait for anybody. -/
theorem Roams.shut_down {s : Settings} (hsandbox : s.around.IsSandboxed) (hs : NamesApart s)
    {file : Stored} {source : Option (Option (Fields String))} {buffer busCapacity : Nat}
    {l₁ l₂ l₃ : List Moment} {before returned after : Engine}
    (hbefore : Roams s (fresh file source buffer busCapacity) l₁ before)
    (hduring : Roams s (before.ask Call.shutDown.jobs) l₂ returned)
    (hreturned : returned.isDone before.nextTask = true) (hafter : Roams s returned l₃ after) :
    (∀ m ∈ l₃, ∀ run, ¬ m.StartsScript s run ∧
        ∀ edge, m.emitted? s run ≠ some (.edgeStart edge)) ∧
      (∀ run, before.Named run → after.Idle run) ∧
      (∀ run, (∀ j ∈ after.pending, j.conducts run = false) → after.Idle run) ∧
      ∀ run w, after.walks.find? run = some w → w.run.cancelled = true ∧
        (w.run.isOver = false → ∀ now, (w.run.step (s.around.forRun run) now).isSome = true) := by
  have hroams := (hbefore.asked .shutDown).trans hduring
  have he := hroams.enlisted
  obtain ⟨hshut, hidle⟩ := (hbefore.closing hsandbox hs hduring).returned hreturned
  obtain ⟨hstill, hmoments⟩ := hafter.shut hsandbox he.numbered hshut
  refine ⟨fun m hm run => (hmoments m hm).quiet hsandbox run, fun run hname => ?_,
    fun run hdone => ?_, fun run w hw => ?_⟩
  · have hknown := hduring.named (ask_numbered hbefore.enlisted.numbered _) hname
    exact hafter.idle hs he hknown (hidle run hname)
  · exact (hroams.trans hafter).idle_of_done hs (countP_none.mpr hdone)
  · obtain ⟨hcancelled, -⟩ := hstill.cancelled hw
    exact ⟨hcancelled, fun hover now => Interpreter.step_of_cancelled _ now hcancelled hover⟩

/-- A call to start a project of two nodes. -/
def oneWayStart (project : String) : Call := .start project Interpreter.oneWay {}

/-- A course to a run on its way. -/
def towardsCall : List Deed := .ask (oneWayStart "p") :: works 0 14

/-- A shutdown that has stopped one run when another project is started, whose run enters its first
node before all is cancelled. -/
def towardsReturn : List Deed :=
  works 3 2 ++ .ask (oneWayStart "q") :: works 4 14 ++ works 6 1 ++ works 3 11

/-- The run that came late winds up and is settled. -/
def towardsClosed : List Deed := works 6 3 ++ works 5 16

theorem towardsClosed_spec :
    ∃ l₁ l₂ l₃ before returned after,
      (fresh .absent none 8 8).replay calm towardsCall = some (l₁, before) ∧
      (before.ask Call.shutDown.jobs).replay calm towardsReturn = some (l₂, returned) ∧
      returned.replay calm towardsClosed = some (l₃, after) ∧
      returned.isDone before.nextTask = true ∧ before.started = [("p", "#:p")] ∧
      returned.started = [("q", "#:q"), ("p", "#:p")] ∧
      ∀ j ∈ after.pending, j.conducts "#:q" = false := by
  have hall : ((fresh .absent none 8 8).replay calm towardsCall).any (fun x =>
      ((x.2.ask Call.shutDown.jobs).replay calm towardsReturn).any fun y =>
        (y.2.replay calm towardsClosed).any fun z =>
          y.2.isDone x.2.nextTask && x.2.started = [("p", "#:p")] &&
            y.2.started = [("q", "#:q"), ("p", "#:p")] &&
            z.2.pending.all fun j => !j.conducts "#:q") = true := by
    decide +kernel
  obtain ⟨⟨l₁, before⟩, hbefore, hall⟩ := (Option.any_eq_true _ _).mp hall
  obtain ⟨⟨l₂, returned⟩, hduring, hall⟩ := (Option.any_eq_true _ _).mp hall
  obtain ⟨⟨l₃, after⟩, hafter, hspec⟩ := (Option.any_eq_true _ _).mp hall
  simp only [Bool.and_eq_true, decide_eq_true_eq, List.all_eq_true, Bool.not_eq_true'] at hspec
  obtain ⟨⟨⟨hreturned, hearly⟩, hlate⟩, hdone⟩ := hspec
  exact ⟨l₁, l₂, l₃, before, returned, after, hbefore, hduring, hafter, hreturned, hearly, hlate,
    hdone⟩

/-- A run that is started while a shutdown stops another one starts no script after it, and is not
active in the end. -/
theorem latecomer_closed :
    ∃ l₁ l₂ l₃ before returned after, Roams calm (fresh .absent none 8 8) l₁ before ∧
      Roams calm (before.ask Call.shutDown.jobs) l₂ returned ∧
      returned.isDone before.nextTask = true ∧ Roams calm returned l₃ after ∧
      before.Named "#:p" ∧ ¬ before.Named "#:q" ∧ returned.Named "#:q" ∧
      (∀ m ∈ l₃, ∀ run, ¬ m.StartsScript calm run ∧
        ∀ edge, m.emitted? calm run ≠ some (.edgeStart edge)) ∧
      after.Idle "#:p" ∧ after.Idle "#:q" := by
  obtain ⟨l₁, l₂, l₃, before, returned, after, hbefore, hduring, hafter, hreturned, hearly, hlate,
    hdone⟩ := towardsClosed_spec
  have hapart : NamesApart calm := trial_namesApart
  have hroams₁ := (replay_runs hbefore).roams
  have hroams₂ := (replay_runs hduring).roams
  have hroams₃ := (replay_runs hafter).roams
  have hknown : before.Named "#:p" := ⟨"p", hearly ▸ List.mem_cons_self⟩
  obtain ⟨hquiet, hidle, hclosed, -⟩ :=
    hroams₁.shut_down Interpreter.quiet_isSandboxed hapart hroams₂ hreturned hroams₃
  refine ⟨l₁, l₂, l₃, before, returned, after, hroams₁, hroams₂, hreturned, hroams₃, hknown, ?_,
    ⟨"q", hlate ▸ List.mem_cons_self⟩, hquiet, hidle _ hknown, hclosed _ hdone⟩
  rintro ⟨project, hmem⟩
  rw [hearly] at hmem
  simp at hmem

end Engine

end Workflow
