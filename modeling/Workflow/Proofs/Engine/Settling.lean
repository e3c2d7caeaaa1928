import Workflow.Proofs.Engine.Order

/-!
# How runs come to an end

A run may be stopped while its interpreter still winds up, so two tasks come to settle
it. The one that stops it announces that; the other one, when the interpreter is done,
notices that the run was stopped before and says nothing, unless the interpreter broke
down: then it notes and announces the breakdown, although the run has been settled and
announced already. Such a moment is a *relapse* (`Moment.IsRelapse`).

A relapse is the only way in which the end of a run is announced twice, or in which a
run changes its status after it was over (`Reached.settled_once`). The invariant is a
ledger (`Standing`): it ties what was announced so far, together with what is about to
be, to the record of the run and to whether it is still on its way.
-/

namespace Workflow

/-! ## Announcements -/

/-- Whether an event announces the end of a run. -/
def Event.endsRun (run : String) : Event → Bool
  | runCompleted r | runError r _ | runStopped r => r = run
  | _ => false

theorem Event.endsRun_of_isTerminal {event : Event} (h : event.isTerminal = false) (run : String) :
    event.endsRun run = false := by
  cases event <;> first | rfl | cases h

theorem Event.endsRun_unique {event : Event} {run run' : String} (h : event.endsRun run = true)
    (h' : event.endsRun run' = true) : run = run' := by
  cases event
  case runCompleted => exact (of_decide_eq_true h).symm.trans (of_decide_eq_true h')
  case runError => exact (of_decide_eq_true h).symm.trans (of_decide_eq_true h')
  case runStopped => exact (of_decide_eq_true h).symm.trans (of_decide_eq_true h')
  all_goals cases h

namespace Engine

open Engine.Job

/-- The announcement of the end of a run that a job hands to its watchers. -/
def Job.endOf? (run : String) : Job → Option Event
  | deliver subject event => if subject = run ∧ event.endsRun run = true then some event else none
  | _ => none

/-- The announcements of the end of a run among some jobs. -/
def announcing (run : String) (jobs : List Job) : List Event := jobs.filterMap (Job.endOf? run)

/-- The announcements of the end of a run that were made. -/
def told (run : String) (l : List Moment) : List Event :=
  (published run l).filter (Event.endsRun run)

/-- The announcements of the end of a run, made or about to be made. -/
def ends (run : String) (l : List Moment) (e : Engine) : List Event :=
  told run l ++ announcing run e.pending

theorem announcing_append (run : String) (jobs jobs' : List Job) :
    announcing run (jobs ++ jobs') = announcing run jobs ++ announcing run jobs' :=
  List.filterMap_append

theorem announcing_none {run : String} {jobs : List Job}
    (h : ∀ j ∈ jobs, ∀ subject event, j ≠ .deliver subject event) : announcing run jobs = [] := by
  refine List.filterMap_eq_nil_iff.mpr fun j hj => ?_
  cases j
  case deliver subject event => exact absurd rfl (h _ hj subject event)
  all_goals rfl

/-- A publication on a run and its project is one announcement of its end. -/
theorem announcing_publishing_own {run : String} (project : String) {event : Event}
    (h : event.endsRun run = true) : announcing run (publishing project run event) = [event] := by
  unfold publishing
  split
  · simp [announcing, Job.endOf?, h]
  · next hne => simp [announcing, List.filterMap_cons, Job.endOf?, h, hne]

theorem told_snoc (run : String) (l : List Moment) (m : Moment) :
    told run (l ++ [m]) =
      told run l ++ ((m.published? run).filter (Event.endsRun run)).toList := by
  rw [told, published, List.filterMap_append, List.filter_append]
  cases hm : m.published? run with
  | none => simp [told, published, hm]
  | some event => cases hev : event.endsRun run <;> simp [told, published, hm, Option.filter, hev]

/-- What the work of a task announces is what its job hands out. -/
theorem told_work {e : Engine} {id : Nat} {job : Job} {rest : List Job} {reply : Option Reply}
    (ht : e.task? id = some ⟨job :: rest, reply⟩) (run : String) (l : List Moment) :
    told run (l ++ [⟨e, .work id⟩]) = told run l ++ (job.endOf? run).toList := by
  rw [told_snoc]
  congr 2
  rw [Moment.published?, job?_work ht]
  cases job
  case deliver subject event =>
    by_cases hto : subject = run
    · cases hev : event.endsRun run <;> simp [Job.endOf?, hto, hev]
    · simp [Job.endOf?, hto]
  all_goals rfl

/-- **The ledger**: to what was announced or about to be, the work of a task adds what its
job leaves to announce. -/
theorem ends_work {s : Settings} {e e₁ : Engine} (hn : e.Numbered) {id : Nat} {job : Job}
    {rest next : List Job} {reply : Option Reply}
    (ht : e.task? id = some ⟨job :: rest, reply⟩) (h : job.run s e = some (next, e₁))
    (reply' : Option Reply) (run : String) (l : List Moment) :
    (ends run (l ++ [⟨e, .work id⟩]) (e₁.setTask id ⟨next ++ rest, reply'⟩)).Perm
      (ends run l e ++ announcing run next) := by
  have hperm := (pending_advance hn ht h reply').filterMap (Job.endOf? run)
  have hspawned : announcing run (job.spawned e).flatten = [] := by
    cases job <;> rfl
  have hcons : announcing run (job :: (e₁.setTask id ⟨next ++ rest, reply'⟩).pending) =
      (job.endOf? run).toList ++
        announcing run (e₁.setTask id ⟨next ++ rest, reply'⟩).pending := by
    rw [announcing, List.filterMap_cons]
    cases job.endOf? run <;> rfl
  have hbalance : ((job.endOf? run).toList ++
      announcing run (e₁.setTask id ⟨next ++ rest, reply'⟩).pending).Perm
      (announcing run e.pending ++ announcing run next) := by
    rw [← hcons]
    refine hperm.trans (List.Perm.of_eq ?_)
    change announcing run (e.pending ++ (job.spawned e).flatten ++ next) = _
    rw [announcing_append, announcing_append, hspawned, List.append_nil]
  rw [ends, ends, told_work ht, List.append_assoc, List.append_assoc]
  exact hbalance.append_left (told run l)

/-- What is due when a record is settled announces the end of its run. -/
theorem dueAt_announces {h : Handle} {w : Walk} {clock : Instant} {event : Event}
    (hdue : dueAt h w clock = some event) : event.endsRun h.record.runId = true := by
  rw [dueAt] at hdue
  cases hr : w.result with
  | broken =>
    rw [hr] at hdue
    cases hdue
    exact decide_eq_true rfl
  | report report =>
    rw [hr, RunTable.settled] at hdue
    dsimp only at hdue
    split at hdue
    · cases hdue
    · split at hdue
      · cases hdue
        exact decide_eq_true rfl
      · cases hdue
        exact decide_eq_true rfl

/-- Only stopping and settling a run leave an announcement of its end to be made, on any subject. -/
theorem deliver_ends {s : Settings} {e e₁ : Engine} {job : Job} {next : List Job}
    (h : job.run s e = some (next, e₁)) (ho : Orderly s e) {run subject : String} {event : Event}
    (hj : .deliver subject event ∈ next) (hends : event.endsRun run = true) :
    job = .stop run ∨ ∃ project, job = .settle project run := by
  cases deliver_next h hj with
  | started => cases hends
  | stopped id =>
    obtain rfl : id = run := of_decide_eq_true hends
    exact Or.inl rfl
  | told hw ht =>
    -- what an interpreter tells is never the end of a run
    have hnot := (ho.sound hw).told event (ht ▸ List.mem_cons_self)
    exact nomatch hends.symm.trans (Event.endsRun_of_isTerminal hnot run)
  | @due project id _ _ _ hf hdue =>
    have hid := ho.single.tidy.named hf
    obtain rfl : id = run := hid.symm.trans (Event.endsRun_unique (dueAt_announces hdue) hends)
    exact Or.inr ⟨project, rfl⟩

/-- Only stopping and settling a run announce its end. -/
theorem run_silent {s : Settings} {e e₁ : Engine} {job : Job} {next : List Job}
    (h : job.run s e = some (next, e₁)) (ho : Orderly s e) {run : String}
    (hstop : job ≠ .stop run) (hsettle : ∀ project, job ≠ .settle project run) :
    announcing run next = [] := by
  refine List.filterMap_eq_nil_iff.mpr fun j hj => ?_
  cases j
  case deliver subject event =>
    refine if_neg fun ⟨_, hends⟩ => ?_
    rcases deliver_ends h ho hj hends with hjob | ⟨project, hjob⟩
    · exact hstop hjob
    · exact hsettle project hjob
  all_goals rfl

/-! ## Relapses -/

/-- A run relapses: it was stopped, and now its interpreter turns out to be broken. -/
def Moment.IsRelapse (run : String) (m : Moment) : Prop :=
  ∃ project w h, m.job? = some (.settle project run) ∧ m.before.walks.find? run = some w ∧
    w.run.phase = .broken ∧ m.before.table.find? run = some h ∧ h.record.status = .stopped

theorem none_snoc {run : String} {l : List Moment} {m : Moment}
    (hl : ∀ m' ∈ l, ¬ m'.IsRelapse run) (hm : ¬ m.IsRelapse run) :
    ∀ m' ∈ l ++ [m], ¬ m'.IsRelapse run := by
  intro m' hm'
  rcases List.mem_append.mp hm' with hm' | hm'
  · exact hl m' hm'
  · obtain rfl := List.mem_singleton.mp hm'
    exact hm

/-- The announcement of a breakdown. -/
def breakdown (run : String) : Event := .runError run WalkResult.failure.message

/-- What settling comes to: a breakdown is always noted and announced; the end of a run
that was stopped before is not announced again; any other end is. -/
theorem settledAt_cases (h : Handle) {w : Walk} (clock : Instant) (hover : w.run.isOver = true) :
    (w.run.phase = .broken ∧ (settledAt h w clock).record.status = .error ∧
        dueAt h w clock = some (breakdown h.record.runId)) ∨
      (w.run.phase ≠ .broken ∧ h.record.status = .stopped ∧
        (settledAt h w clock).record.status = .stopped ∧ dueAt h w clock = none) ∨
      (w.run.phase ≠ .broken ∧ h.record.status ≠ .stopped ∧
        ∃ event, dueAt h w clock = some event) := by
  rw [Interpreter.isOver] at hover
  split at hover
  · next ending hp =>
    have hunbroken : w.run.phase ≠ .broken := by
      intro hbroken
      cases hp.symm.trans hbroken
    have hresult : w.result = .report ⟨ending, w.run.vars, w.run.lastNode, w.run.steps⟩ := by
      rw [Walk.result, Interpreter.report?, hp]
    by_cases hs : h.record.status = .stopped
    · refine Or.inr (Or.inl ⟨hunbroken, hs, ?_, ?_⟩)
      · rw [settledAt, hresult]
        simp [RunTable.settled, RunRecord.touch, hs]
      · rw [dueAt, hresult]
        simp [RunTable.settled, RunRecord.touch, hs]
    · refine Or.inr (Or.inr ⟨hunbroken, hs, ?_⟩)
      rw [dueAt, hresult]
      cases ending with
      | completed =>
        exact ⟨.runCompleted h.record.runId, by simp [RunTable.settled, RunRecord.touch, hs]⟩
      | aborted =>
        exact ⟨.runStopped h.record.runId, by simp [RunTable.settled, RunRecord.touch, hs]⟩
  · next hp =>
    have hresult : w.result = .broken := by
      rw [Walk.result, Interpreter.report?, hp]
    refine Or.inl ⟨hp, ?_, ?_⟩
    · rw [settledAt, hresult]
      rfl
    · rw [dueAt, hresult]
      rfl
  · cases hover

/-- What settling a run leaves to do announces what is due. -/
theorem announcing_settled {run project : String} {h : Handle} (hid : h.record.runId = run)
    {w : Walk} {clock : Instant} :
    announcing run (saving ++ ((dueAt h w clock).map (publishing project run)).getD [] ++
      (if h.isOwn then [.signal run] else [])) = (dueAt h w clock).toList := by
  have hsignal : announcing run (if h.isOwn then [Job.signal run] else []) = [] := by
    split <;> rfl
  rw [announcing_append, announcing_append, hsignal, List.append_nil]
  cases hdue : dueAt h w clock with
  | none => rfl
  | some event => exact announcing_publishing_own project (hid ▸ dueAt_announces hdue)

/-- A settled run is not active. -/
theorem settledAt_isActive (h : Handle) (w : Walk) (clock : Instant) :
    (settledAt h w clock).record.status.isActive = false :=
  (RunTable.settled_spec (h.record.touch clock) w.result).2.2

/-! ## The ledger -/

/-- **Standing**: how the announcements of the end of a run, made or about to be made, go
with its record and its walk. -/
inductive Standing (run : String) (l : List Moment) (e : Engine) : Prop
  /-- the run is not there yet; there may be one of that name from an earlier process -/
  | unborn : ¬ e.Named run → e.walks.find? run = none →
      (∀ h, e.table.find? run = some h → h.record.status.isActive = false) →
      ends run l e = [] → (∀ m ∈ l, ¬ m.IsRelapse run) → Standing run l e
  /-- the run is on its way -/
  | active {w : Walk} {h : Handle} : e.Named run → e.walks.find? run = some w →
      e.table.find? run = some h → h.record.status.isActive = true →
      ends run l e = [] → (∀ m ∈ l, ¬ m.IsRelapse run) → Standing run l e
  /-- the run was stopped, and possibly forgotten, and still winds up -/
  | stopped {w : Walk} : e.Named run → e.walks.find? run = some w →
      (∀ h, e.table.find? run = some h → h.record.status = .stopped) →
      ends run l e = [.runStopped run] → (∀ m ∈ l, ¬ m.IsRelapse run) → Standing run l e
  /-- the run is over -/
  | ended : e.Named run → e.walks.find? run = none →
      (∀ h, e.table.find? run = some h → h.record.status.isActive = false) →
      (ends run l e).length = 1 → (∀ m ∈ l, ¬ m.IsRelapse run) → Standing run l e
  /-- the run was over and broke down after that -/
  | relapsed : e.Named run → e.walks.find? run = none →
      (∀ h, e.table.find? run = some h → h.record.status = .error) →
      (ends run l e).Perm [.runStopped run, breakdown run] → (∃ m ∈ l, m.IsRelapse run) →
      Standing run l e

/-- A run keeps its standing when its record stays or is forgotten after its end, and
nothing is announced. -/
theorem Standing.carry {run : String} {l : List Moment} {e e' : Engine} {m : Moment}
    (h : Standing run l e) (hnamed : e'.Named run ↔ e.Named run)
    (hwalk : ∀ w, e.walks.find? run = some w → (e'.walks.find? run).isSome = true)
    (hgone : e.walks.find? run = none → e'.walks.find? run = none)
    (hback : ∀ h', e'.table.find? run = some h' →
      ∃ h, e.table.find? run = some h ∧ h'.record.status = h.record.status)
    (hactive : ∀ h, e.table.find? run = some h → h.record.status.isActive = true →
      (e'.table.find? run).isSome = true)
    (hends : (ends run (l ++ [m]) e').Perm (ends run l e)) (hm : ¬ m.IsRelapse run) :
    Standing run (l ++ [m]) e' := by
  have hstatus : ∀ q : RunStatus → Prop, (∀ h, e.table.find? run = some h → q h.record.status) →
      ∀ h', e'.table.find? run = some h' → q h'.record.status := by
    intro q hq h' hf
    obtain ⟨h, hf', heq⟩ := hback h' hf
    rw [heq]
    exact hq h hf'
  cases h with
  | unborn hn hw hs he hr =>
    rw [he] at hends
    exact .unborn (mt hnamed.mp hn) (hgone hw) (hstatus (·.isActive = false) hs) hends.eq_nil
      (none_snoc hr hm)
  | active hn hw ht ha he hr =>
    rw [he] at hends
    obtain ⟨w', hw'⟩ := Option.isSome_iff_exists.mp (hwalk _ hw)
    obtain ⟨h', ht'⟩ := Option.isSome_iff_exists.mp (hactive _ ht ha)
    obtain ⟨h₀, ht₀, heq⟩ := hback h' ht'
    obtain rfl := Option.some.inj (ht.symm.trans ht₀)
    exact .active (hnamed.mpr hn) hw' ht' (heq ▸ ha) hends.eq_nil (none_snoc hr hm)
  | stopped hn hw hs he hr =>
    rw [he] at hends
    obtain ⟨w', hw'⟩ := Option.isSome_iff_exists.mp (hwalk _ hw)
    exact .stopped (hnamed.mpr hn) hw' (hstatus (· = .stopped) hs) (List.perm_singleton.mp hends)
      (none_snoc hr hm)
  | ended hn hw hs he hr =>
    exact .ended (hnamed.mpr hn) (hgone hw) (hstatus (·.isActive = false) hs)
      (hends.length_eq.trans he) (none_snoc hr hm)
  | relapsed hn hw hs he hr =>
    obtain ⟨m', hm', hrel⟩ := hr
    exact .relapsed (hnamed.mpr hn) (hgone hw) (hstatus (· = .error) hs) (hends.trans he)
      ⟨m', List.mem_append_left _ hm', hrel⟩

/-- A run keeps its standing when nothing happens to runs and nothing is announced. -/
theorem Standing.still {run : String} {l : List Moment} {e e' : Engine} {m : Moment}
    (h : Standing run l e) (hstarted : e'.started = e.started) (htable : e'.table = e.table)
    (hwalks : e'.walks = e.walks) (hends : (ends run (l ++ [m]) e').Perm (ends run l e))
    (hm : ¬ m.IsRelapse run) : Standing run (l ++ [m]) e' := by
  have hnamed : e'.Named run ↔ e.Named run := by
    unfold Named
    rw [hstarted]
  refine h.carry hnamed ?_ ?_ ?_ ?_ hends hm
  · intro w hw
    rw [hwalks, hw]
    rfl
  · intro hw
    rw [hwalks, hw]
  · intro h' hf
    rw [htable] at hf
    exact ⟨h', hf, rfl⟩
  · intro h' hf _
    rw [htable, hf]
    rfl

/-! ## The end of a run -/

section Settled

variable {run : String} {l : List Moment} {e e' : Engine} {m : Moment} {w : Walk} {old : Handle}
  {clock : Instant}

/-- The end of a run that was on its way is its one end. -/
theorem standing_ended (hnamed : e'.Named run) (hgone : e'.walks.find? run = none)
    (hput : e'.table.find? run = some (settledAt old w clock)) (hover : w.run.isOver = true)
    (ha : old.record.status.isActive = true) (he : ends run l e = [])
    (hr : ∀ m ∈ l, ¬ m.IsRelapse run)
    (hm : m.IsRelapse run → w.run.phase = .broken ∧ old.record.status = .stopped)
    (hends : (ends run (l ++ [m]) e').Perm (ends run l e ++ (dueAt old w clock).toList)) :
    Standing run (l ++ [m]) e' := by
  have hnot : old.record.status ≠ .stopped := by
    intro hs
    rw [hs] at ha
    cases ha
  have hone : (dueAt old w clock).toList.length = 1 := by
    rcases settledAt_cases old clock hover with ⟨-, -, hdue⟩ | ⟨-, hs, -⟩ | ⟨-, -, event, hdue⟩
    · rw [hdue]
      rfl
    · exact absurd hs hnot
    · rw [hdue]
      rfl
  rw [he, List.nil_append] at hends
  refine .ended hnamed hgone (fun h' hf' => ?_) (hends.length_eq.trans hone)
    (none_snoc hr fun hrel => hnot (hm hrel).2)
  obtain rfl := Option.some.inj (hput.symm.trans hf')
  exact settledAt_isActive old w clock

/-- The end of a run that was stopped is announced already, unless its interpreter broke
down: then it relapses. -/
theorem standing_ended_stopped (hnamed : e'.Named run) (hgone : e'.walks.find? run = none)
    (hput : e'.table.find? run = some (settledAt old w clock)) (hover : w.run.isOver = true)
    (hid : old.record.runId = run) (hs : old.record.status = .stopped)
    (he : ends run l e = [.runStopped run]) (hr : ∀ m ∈ l, ¬ m.IsRelapse run)
    (hm : m.IsRelapse run ↔ w.run.phase = .broken ∧ old.record.status = .stopped)
    (hends : (ends run (l ++ [m]) e').Perm (ends run l e ++ (dueAt old w clock).toList)) :
    Standing run (l ++ [m]) e' := by
  rw [he] at hends
  rcases settledAt_cases old clock hover with
    ⟨hp, hstatus, hdue⟩ | ⟨hp, -, hstatus, hdue⟩ | ⟨-, hnot, -⟩
  · rw [hdue, hid] at hends
    refine .relapsed hnamed hgone (fun h' hf' => ?_) hends
      ⟨m, List.mem_append_right _ List.mem_cons_self, hm.mpr ⟨hp, hs⟩⟩
    obtain rfl := Option.some.inj (hput.symm.trans hf')
    exact hstatus
  · rw [hdue] at hends
    refine .ended hnamed hgone (fun h' hf' => ?_) hends.length_eq
      (none_snoc hr fun hrel => hp (hm.mp hrel).1)
    obtain rfl := Option.some.inj (hput.symm.trans hf')
    exact settledAt_isActive old w clock
  · exact absurd hs hnot

end Settled

/-! ## How standings change -/

/-- A record that is neither enlisted, taken up, stopped nor settled keeps its status, or
is forgotten after its end. -/
theorem Fate.status {s : Settings} {e : Engine} {job : Job} {run : String} {o o' : Option Handle}
    (hf : Fate s e job run o o')
    (hborn : ∀ project definition vars, job = .enrol project definition vars →
      run ≠ e.newRun s project)
    (hstop : job ≠ .stop run) (hsettle : ∀ project, job ≠ .settle project run)
    (hrestore : ∀ records, job ≠ .restore records) :
    (∀ h', o' = some h' → ∃ h, o = some h ∧ h'.record.status = h.record.status) ∧
      ∀ h, o = some h → h.record.status.isActive = true → o'.isSome = true := by
  cases hf with
  | kept =>
    refine ⟨fun h' ho => ⟨h', ho, rfl⟩, ?_⟩
    rintro h rfl -
    rfl
  | born hj hr => exact absurd hr (hborn _ _ _ hj)
  | pruned _ hover =>
    refine ⟨?_, ?_⟩
    · intro h' ho
      cases ho
    · rintro h ⟨⟩ ha
      exact nomatch ha.symm.trans (RunStatus.isActive_of_isTerminal hover)
  | changed hc =>
    refine ⟨?_, fun _ _ _ => rfl⟩
    rintro h' ⟨⟩
    cases hc with
    | stopped => exact absurd rfl hstop
    | noted => exact ⟨_, rfl, RunTable.noted_status ..⟩
    | beaten => exact ⟨_, rfl, rfl⟩
    | settled project => exact absurd rfl (hsettle project)
  | removed _ hn =>
    refine ⟨?_, ?_⟩
    · intro h' ho
      cases ho
    · rintro h ⟨⟩ ha
      exact nomatch ha.symm.trans hn
  | restored hj => exact absurd hj (hrestore _)

section Work

variable {s : Settings} {e e₁ : Engine} {id : Nat} {job : Job} {rest next : List Job}
  {reply reply' : Option Reply} {run : String} {l : List Moment}

/-- Nothing relapses but by being settled. -/
theorem not_isRelapse (ht : e.task? id = some ⟨job :: rest, reply⟩) (run : String)
    (hsettle : ∀ project, job ≠ .settle project run) :
    ¬ (⟨e, .work id⟩ : Moment).IsRelapse run := by
  rintro ⟨project, w, h, hjob, -⟩
  exact hsettle project (Option.some.inj ((job?_work ht).symm.trans hjob))

/-- What other jobs do changes no standing. -/
theorem standing_other (hn : e.Numbered) (ho : Orderly s e)
    (ht : e.task? id = some ⟨job :: rest, reply⟩) (h : job.run s e = some (next, e₁))
    (hst : Standing run l e)
    (hborn : ∀ project definition vars, job = .enrol project definition vars →
      run ≠ e.newRun s project)
    (hstop : job ≠ .stop run) (hsettle : ∀ project, job ≠ .settle project run)
    (hrestore : ∀ records, job ≠ .restore records) :
    Standing run (l ++ [⟨e, .work id⟩]) (e₁.setTask id ⟨next ++ rest, reply'⟩) := by
  obtain ⟨hback, hactive⟩ :=
    (run_fate h ho.single.tidy run).status hborn hstop hsettle hrestore
  have hnamed := named_run_iff h run hborn
  have hends := ends_work hn ht h reply' run l
  rw [run_silent h ho hstop hsettle, List.append_nil] at hends
  refine hst.carry hnamed ?_ ?_ hback hactive hends (not_isRelapse ht run hsettle)
  · intro w hw
    have hkept := walk_kept h (hw ▸ rfl) hsettle
    exact hkept
  · intro hw
    have habsent := walk_absent h hw hborn
    exact habsent

/-- A run that is enlisted is on its way. -/
theorem standing_enrol {project : String} {definition : Definition} {vars : Vars}
    (hs : NamesApart s) (hn : e.Numbered) (ho : Orderly s e)
    (ht : e.task? id = some ⟨.enrol project definition vars :: rest, reply⟩)
    (h : (Job.enrol project definition vars).run s e = some (next, e₁))
    (hst : Standing (e.newRun s project) l e) :
    Standing (e.newRun s project) (l ++ [⟨e, .work id⟩])
      (e₁.setTask id ⟨next ++ rest, reply'⟩) := by
  have hfresh := ho.newRun_fresh hs project
  have hstarted := started_enrol h
  have hends := ends_work hn ht h reply' (e.newRun s project) l
  rw [run_silent h ho nofun nofun, List.append_nil] at hends
  have hm := not_isRelapse ht (e.newRun s project) nofun
  cases run_cases h with
  | aside ha => cases ha
  | enrolled =>
    cases hst with
    | unborn _ _ _ he hr =>
      rw [he] at hends
      obtain ⟨hrecord, w, hwalk⟩ := enrolled_spec s e project definition vars
      refine .active ⟨project, hstarted ▸ List.mem_cons_self⟩ hwalk hrecord rfl hends.eq_nil ?_
      exact none_snoc hr hm
    | active hn => exact absurd hn hfresh
    | stopped hn => exact absurd hn hfresh
    | ended hn => exact absurd hn hfresh
    | relapsed hn => exact absurd hn hfresh

/-- A run that is stopped gets its one announcement. -/
theorem standing_stop (hn : e.Numbered) (ht : e.task? id = some ⟨.stop run :: rest, reply⟩)
    (h : (Job.stop run).run s e = some (next, e₁)) (hst : Standing run l e) :
    Standing run (l ++ [⟨e, .work id⟩]) (e₁.setTask id ⟨next ++ rest, reply'⟩) := by
  have hends := ends_work hn ht h reply' run l
  have hm := not_isRelapse ht run nofun
  have hpace := run_pace h run
  have hnamed := named_run_iff h run nofun
  cases run_cases h with
  | aside ha => cases ha
  | notStopped =>
    rw [show announcing run (replying _) = [] from rfl, List.append_nil] at hends
    exact hst.still rfl rfl rfl hends hm
  | @stopped _ old hf ha =>
    have hown : (Event.runStopped run).endsRun run = true := decide_eq_true rfl
    have hannounced : announcing run (saving ++ publishing old.record.projectId run
        (.runStopped run) ++ replying (.record (stoppedAt old (e.readClock s).1).record)) =
        [.runStopped run] := by
      rw [announcing_append, announcing_append,
        announcing_publishing_own _ hown]
      rfl
    rw [hannounced] at hends
    cases hst with
    -- to be stopped a run must be active, so all other standings are out of the question
    | active hname hw _ _ he hr =>
      rw [hw] at hpace
      rw [he, List.nil_append] at hends
      generalize hw' : Fields.find? _ run = o at hpace
      cases hpace with
      | onward =>
        refine .stopped (hnamed.mpr hname) hw' ?_ (List.perm_singleton.mp hends) (none_snoc hr hm)
        intro h' hf'
        have hput := Fields.find?_put_self e.table run (stoppedAt old (e.readClock s).1)
        obtain rfl := Option.some.inj (hput.symm.trans hf')
        rfl
      | born hj => cases hj
      | settled hj => cases hj
    | unborn _ _ hs => exact nomatch ha.symm.trans (hs old hf)
    | stopped _ _ hs =>
      rw [hs old hf] at ha
      cases ha
    | ended _ _ hs => exact nomatch ha.symm.trans (hs old hf)
    | relapsed _ _ hs =>
      rw [hs old hf] at ha
      cases ha

/-- While the registry is read back no run was born. -/
theorem standing_restore {records : List RunRecord} (hn : e.Numbered) (ho : Orderly s e)
    (ht : e.task? id = some ⟨.restore records :: rest, reply⟩)
    (h : (Job.restore records).run s e = some (next, e₁)) (hst : Standing run l e) :
    Standing run (l ++ [⟨e, .work id⟩]) (e₁.setTask id ⟨next ++ rest, reply'⟩) := by
  have hmem : Job.restore records ∈ e.pending := mem_pending ht List.mem_cons_self
  have hnobody : ¬ e.Named run := by
    rintro ⟨project, hin⟩
    rw [(ho.admitted hmem rfl).1] at hin
    cases hin
  have hends := ends_work hn ht h reply' run l
  rw [run_silent h ho nofun nofun, List.append_nil] at hends
  have hm := not_isRelapse ht run nofun
  have hnamed := named_run_iff h run nofun
  have hfate := run_fate h ho.single.tidy run
  have hpace := run_pace h run
  cases hst with
  | unborn _ hw hs he hr =>
    rw [he] at hends
    refine .unborn (mt hnamed.mp hnobody) ?_ (fun h' hf' => ?_) hends.eq_nil (none_snoc hr hm)
    · rw [hw] at hpace
      change e₁.walks.find? run = none
      generalize e₁.walks.find? run = o at hpace ⊢
      cases hpace with
      | absent => rfl
      | born hj => cases hj
    · rw [show e₁.table.find? run = some h' from hf'] at hfate
      refine Bool.eq_false_iff.mpr fun ha => ?_
      rcases hfate.isActive (ho.single.rested_job hmem) ha with ⟨old, hold, hactive, -⟩ | ⟨_, _, hj, -⟩
      · exact nomatch hactive.symm.trans (hs old hold)
      · cases hj
  | active hname => exact absurd hname hnobody
  | stopped hname => exact absurd hname hnobody
  | ended hname => exact absurd hname hnobody
  | relapsed hname => exact absurd hname hnobody

/-- A relapse needs a walk that broke down and a record that was stopped. -/
theorem relapse_iff {project : String}
    (ht : e.task? id = some ⟨.settle project run :: rest, reply⟩) :
    (⟨e, .work id⟩ : Moment).IsRelapse run ↔ ∃ w h, e.walks.find? run = some w ∧
      w.run.phase = .broken ∧ e.table.find? run = some h ∧ h.record.status = .stopped := by
  constructor
  · rintro ⟨_, w, h, -, hw, hp, hf, hs⟩
    exact ⟨w, h, hw, hp, hf, hs⟩
  · rintro ⟨w, h, hw, hp, hf, hs⟩
    exact ⟨project, w, h, job?_work ht, hw, hp, hf, hs⟩

/-- A run that was forgotten is over when its walk is. -/
theorem standing_forgotten {e' : Engine} {m : Moment} {w : Walk} (hst : Standing run l e)
    (hw : e.walks.find? run = some w) (hf : e.table.find? run = none)
    (hnamed : e'.Named run ↔ e.Named run) (hgone : e'.walks.find? run = none)
    (htable : e'.table.find? run = none) (hends : (ends run (l ++ [m]) e').Perm (ends run l e))
    (hm : ¬ m.IsRelapse run) : Standing run (l ++ [m]) e' := by
  cases hst with
  | stopped hname _ _ he hr =>
    rw [he] at hends
    refine .ended (hnamed.mpr hname) hgone (fun h' hf' => ?_) hends.length_eq (none_snoc hr hm)
    cases htable.symm.trans hf'
  | active _ _ hf' => cases hf.symm.trans hf'
  | unborn _ hw' => cases hw.symm.trans hw'
  | ended _ hw' => cases hw.symm.trans hw'
  | relapsed _ hw' => cases hw.symm.trans hw'

/-- A run that is settled is over; it relapses if it was stopped and turns out to be
broken. -/
theorem standing_settle {project : String} (hn : e.Numbered) (ho : Orderly s e)
    (ht : e.task? id = some ⟨.settle project run :: rest, reply⟩)
    (h : (Job.settle project run).run s e = some (next, e₁)) (hst : Standing run l e) :
    Standing run (l ++ [⟨e, .work id⟩]) (e₁.setTask id ⟨next ++ rest, reply'⟩) := by
  have hends := ends_work hn ht h reply' run l
  have hnamed := named_run_iff h run nofun
  have hrelapse := relapse_iff ht
  have herased : (e.walks.erase run).find? run = none := (Fields.find?_erase ..).trans (if_pos rfl)
  cases run_cases h with
  | aside ha => cases ha
  | settled hs =>
    cases hs with
    | gone hw =>
      rw [show announcing run [] = [] from rfl, List.append_nil] at hends
      refine hst.still rfl rfl rfl hends fun hrel => ?_
      obtain ⟨w, _, hw', -⟩ := hrelapse.mp hrel
      cases hw.symm.trans hw'
    | unknown hw hf =>
      rw [show announcing run [] = [] from rfl, List.append_nil] at hends
      refine standing_forgotten hst hw hf hnamed herased hf hends fun hrel => ?_
      obtain ⟨_, h', -, -, hf', -⟩ := hrelapse.mp hrel
      cases hf.symm.trans hf'
    | @known w old hw hf =>
      have hid := ho.single.tidy.named hf
      have hover := (ho.settles (mem_pending ht List.mem_cons_self)).2 hw
      have hput := Fields.find?_put_self e.table run (settledAt old w (e.readClock s).1)
      obtain ⟨f, -, hwalk⟩ := Engine.setTable_walk
        { (e.readClock s).2 with walks := e.walks.erase run }
        (Fields.put e.table run (settledAt old w (e.readClock s).1)) run
      have hgone := hwalk.trans (congrArg (Option.map f) herased)
      rw [announcing_settled hid] at hends
      have hm : (⟨e, .work id⟩ : Moment).IsRelapse run ↔
          w.run.phase = .broken ∧ old.record.status = .stopped := by
        rw [hrelapse, hw, hf]
        constructor
        · rintro ⟨_, _, ⟨⟩, hp, ⟨⟩, hs⟩
          exact ⟨hp, hs⟩
        · rintro ⟨hp, hs⟩
          exact ⟨w, old, rfl, hp, rfl, hs⟩
      cases hst with
      | active hname _ hf' ha he hr =>
        obtain rfl := Option.some.inj (hf.symm.trans hf')
        exact standing_ended (hnamed.mpr hname) hgone hput hover ha he hr hm.mp hends
      | stopped hname _ hstopped he hr =>
        exact standing_ended_stopped (hnamed.mpr hname) hgone hput hover hid (hstopped old hf) he
          hr hm hends
      | unborn _ hw' => cases hw.symm.trans hw'
      | ended _ hw' => cases hw.symm.trans hw'
      | relapsed _ hw' => cases hw.symm.trans hw'

/-- The work of a task keeps the ledger. -/
theorem standing_work (hs : NamesApart s) (hn : e.Numbered) (ho : Orderly s e)
    (ht : e.task? id = some ⟨job :: rest, reply⟩) (h : job.run s e = some (next, e₁))
    (hst : Standing run l e) :
    Standing run (l ++ [⟨e, .work id⟩]) (e₁.setTask id ⟨next ++ rest, reply'⟩) := by
  by_cases hborn : ∃ project definition vars, job = .enrol project definition vars ∧
      run = e.newRun s project
  · obtain ⟨project, definition, vars, rfl, rfl⟩ := hborn
    exact standing_enrol hs hn ho ht h hst
  by_cases hstop : job = .stop run
  · subst hstop
    exact standing_stop hn ht h hst
  by_cases hsettle : ∃ project, job = .settle project run
  · obtain ⟨project, rfl⟩ := hsettle
    exact standing_settle hn ho ht h hst
  by_cases hrestore : ∃ records, job = .restore records
  · obtain ⟨records, rfl⟩ := hrestore
    exact standing_restore hn ho ht h hst
  · refine standing_other hn ho ht h hst ?_ hstop ?_ ?_
    · exact fun project definition vars hj hr => hborn ⟨project, definition, vars, hj, hr⟩
    · exact fun project hj => hsettle ⟨project, hj⟩
    · exact fun records hj => hrestore ⟨records, hj⟩

end Work

theorem not_isRelapse_of_job? {m : Moment} (hm : m.job? = none) (run : String) :
    ¬ m.IsRelapse run := by
  rintro ⟨_, _, _, hjob, -⟩
  cases hm.symm.trans hjob

/-- A deed that is no work of a task announces nothing. -/
theorem told_idle {m : Moment} (hm : m.job? = none) (run : String) (l : List Moment) :
    told run (l ++ [m]) = told run l := by
  rw [told_snoc, Moment.published?, hm]
  exact List.append_nil _

/-- A call announces nothing by itself. -/
theorem announcing_jobs (run : String) (c : Call) : announcing run c.jobs = [] := by
  refine announcing_none fun j hj subject event heq => ?_
  subst heq
  cases c with
  | send id m => cases m <;> cases List.mem_singleton.mp hj
  | pass =>
    simp only [Call.jobs, passing, List.mem_cons, List.not_mem_nil, or_false] at hj
    rcases hj with heq | heq | heq <;> cases heq
  | _ => cases List.mem_singleton.mp hj

/-- **Every deed keeps the ledger.** -/
theorem standing_after {s : Settings} (hs : NamesApart s) {e e' : Engine} {d : Deed}
    (hn : e.Numbered) (ho : Orderly s e) (h : e.after s d = some e') {run : String}
    {l : List Moment} (hst : Standing run l e) : Standing run (l ++ [⟨e, d⟩]) e' := by
  cases after_cases hn h with
  | worked ht hrun => exact standing_work hs hn ho ht hrun hst
  | @asked c =>
    have hjob : (⟨e, .ask c⟩ : Moment).job? = none := rfl
    refine hst.still rfl rfl rfl ?_ (not_isRelapse_of_job? hjob run)
    rw [ends, ends, told_idle hjob, pending_ask, announcing_append, announcing_jobs]
    rfl
  | still _ hd hstill =>
    have hjob := job?_of_ne (e := e) hd
    refine hst.still hstill.started hstill.table hstill.walks ?_ (not_isRelapse_of_job? hjob run)
    rw [ends, ends, told_idle hjob, hstill.pending]

/-- The ledger holds of every run, whatever happens. -/
theorem Reached.standing {s : Settings} (hsandbox : s.around.IsSandboxed) (hs : NamesApart s)
    {l : List Moment} {e : Engine} (h : Reached s l e) (run : String) : Standing run l e := by
  induction h using Reached.along with
  | start =>
    refine .unborn ?_ rfl ?_ rfl ?_
    · rintro ⟨_, hmem⟩
      cases hmem
    · intro h hf
      cases hf
    · intro m hm
      cases hm
  | snoc hreached hd ih =>
    exact standing_after hs hreached.numbered (hreached.orderly hsandbox hs) hd ih

/-! ## Once and for all -/

/-- What a deed makes of the status of a run that is over: nothing, unless it is a
relapse, by which a run that was stopped is one that failed. -/
def Follows (run : String) (m : Moment) (before after : RunStatus) : Prop :=
  (¬ m.IsRelapse run ∧ after = before) ∨
    (m.IsRelapse run ∧ before = .stopped ∧ after = .error)

section Work

variable {s : Settings} {e e₁ : Engine} {id : Nat} {job : Job} {rest next : List Job}
  {reply : Option Reply} {run : String} {l : List Moment}

/-- What settling makes of the status of a run that is over. -/
theorem follows_settle {project : String} (ho : Orderly s e) (hst : Standing run l e)
    (ht : e.task? id = some ⟨.settle project run :: rest, reply⟩)
    (h : (Job.settle project run).run s e = some (next, e₁)) {h' : Handle}
    (hf' : e₁.table.find? run = some h') :
    ∃ h₀, e.table.find? run = some h₀ ∧ (h₀.record.status.isActive = false →
      Follows run ⟨e, .work id⟩ h₀.record.status h'.record.status) := by
  cases run_cases h with
  | aside ha => cases ha
  | settled hs =>
    cases hs with
    | gone hw =>
      refine ⟨h', hf', fun _ => Or.inl ⟨?_, rfl⟩⟩
      rintro ⟨_, w, _, -, hw', -⟩
      cases hw.symm.trans hw'
    | unknown _ hf => cases hf.symm.trans hf'
    | @known w old hw hf =>
      have hput := Fields.find?_put_self e.table run (settledAt old w (e.readClock s).1)
      obtain rfl := Option.some.inj (hput.symm.trans hf')
      refine ⟨old, hf, fun hidle => ?_⟩
      have hover := (ho.settles (mem_pending ht List.mem_cons_self)).2 hw
      -- a run that is over but still on its way was stopped
      have hstopped : old.record.status = .stopped := by
        cases hst with
        | stopped _ _ hs => exact hs old hf
        | active _ _ hf₀ ha =>
          obtain rfl := Option.some.inj (hf.symm.trans hf₀)
          exact nomatch ha.symm.trans hidle
        | unborn _ hw' => cases hw.symm.trans hw'
        | ended _ hw' => cases hw.symm.trans hw'
        | relapsed _ hw' => cases hw.symm.trans hw'
      rcases settledAt_cases old (e.readClock s).1 hover with
        ⟨hp, hstatus, -⟩ | ⟨hp, -, hstatus, -⟩ | ⟨-, hnot, -⟩
      · exact Or.inr ⟨⟨project, w, old, job?_work ht, hw, hp, hf, hstopped⟩, hstopped, hstatus⟩
      · refine Or.inl ⟨?_, hstatus.trans hstopped.symm⟩
        rintro ⟨_, w', _, -, hw', hp', -⟩
        obtain rfl := Option.some.inj (hw.symm.trans hw')
        exact hp hp'
      · exact absurd hstopped hnot

/-- What the work of a task makes of the status of a run that is over. -/
theorem follows_work (hs : NamesApart s) (ho : Orderly s e) (hst : Standing run l e)
    (hname : e.Named run) (ht : e.task? id = some ⟨job :: rest, reply⟩)
    (h : job.run s e = some (next, e₁)) {h' : Handle} (hf' : e₁.table.find? run = some h') :
    ∃ h₀, e.table.find? run = some h₀ ∧ (h₀.record.status.isActive = false →
      Follows run ⟨e, .work id⟩ h₀.record.status h'.record.status) := by
  by_cases hsettle : ∃ project, job = .settle project run
  · obtain ⟨project, rfl⟩ := hsettle
    exact follows_settle ho hst ht h hf'
  have hm := not_isRelapse ht run fun project hj => hsettle ⟨project, hj⟩
  by_cases hstop : job = .stop run
  · subst hstop
    cases run_cases h with
    | aside ha => cases ha
    | notStopped => exact ⟨h', hf', fun _ => Or.inl ⟨hm, rfl⟩⟩
    | stopped hf ha => exact ⟨_, hf, fun hidle => nomatch ha.symm.trans hidle⟩
  · have hborn : ∀ project definition vars, job = .enrol project definition vars →
        run ≠ e.newRun s project := by
      rintro project _ _ - rfl
      exact ho.newRun_fresh hs project hname
    have hrestore : ∀ records, job ≠ .restore records := by
      rintro records rfl
      obtain ⟨project, hmem⟩ := hname
      rw [(ho.admitted (mem_pending ht List.mem_cons_self) rfl).1] at hmem
      cases hmem
    obtain ⟨hback, -⟩ := (run_fate h ho.single.tidy run).status hborn hstop
      (fun project hj => hsettle ⟨project, hj⟩) hrestore
    obtain ⟨h₀, hf₀, heq⟩ := hback h' hf'
    exact ⟨h₀, hf₀, fun _ => Or.inl ⟨hm, heq⟩⟩

end Work

/-- What any deed makes of the status of a run that is over. -/
theorem follows_after {s : Settings} (hs : NamesApart s) {e e' : Engine} {d : Deed}
    (hn : e.Numbered) (ho : Orderly s e) {run : String} {l : List Moment}
    (hst : Standing run l e) (hname : e.Named run) (h : e.after s d = some e') {h' : Handle}
    (hf' : e'.table.find? run = some h') :
    ∃ h₀, e.table.find? run = some h₀ ∧ (h₀.record.status.isActive = false →
      Follows run ⟨e, d⟩ h₀.record.status h'.record.status) := by
  cases after_cases hn h with
  | worked ht hrun => exact follows_work hs ho hst hname ht hrun hf'
  | asked => exact ⟨h', hf', fun _ => Or.inl ⟨not_isRelapse_of_job? rfl run, rfl⟩⟩
  | still _ hd hstill =>
    rw [hstill.table] at hf'
    exact ⟨h', hf', fun _ => Or.inl ⟨not_isRelapse_of_job? (job?_of_ne hd) run, rfl⟩⟩

theorem named_after {s : Settings} {e e' : Engine} {d : Deed} (hn : e.Numbered)
    (h : e.after s d = some e') {run : String} (hname : e.Named run) : e'.Named run := by
  obtain ⟨project, hmem⟩ := hname
  exact ⟨project, started_after hn h _ hmem⟩

/-- A run that is over keeps its status as long as it is known, unless it relapses. -/
theorem Reached.status_kept {s : Settings} (hsandbox : s.around.IsSandboxed)
    (hs : NamesApart s) {l l' : List Moment} {e e' : Engine} (h : Reached s l e)
    (h' : Runs s e l' e') {run : String} (hname : e.Named run) {old : Handle}
    (hold : e.table.find? run = some old) (hover : old.record.status.isActive = false) :
    e'.Named run ∧ ∀ new, e'.table.find? run = some new →
      ((∀ m ∈ l', ¬ m.IsRelapse run) ∧ new.record.status = old.record.status) ∨
        ((∃ m ∈ l', m.IsRelapse run) ∧ old.record.status = .stopped ∧
          new.record.status = .error) := by
  induction h' with
  | nil =>
    refine ⟨hname, fun new hnew => Or.inl ⟨?_, ?_⟩⟩
    · intro m hm
      cases hm
    · obtain rfl := Option.some.inj (hold.symm.trans hnew)
      rfl
  | @snoc l' e₁ e₂ d hr hd ih =>
    have hreached := h.trans hr
    obtain ⟨hname₁, hkept⟩ := ih
    refine ⟨named_after hreached.numbered hd hname₁, fun new hnew => ?_⟩
    obtain ⟨mid, hmid, hfollows⟩ := follows_after hs hreached.numbered
      (hreached.orderly hsandbox hs) (hreached.standing hsandbox hs run) hname₁ hd hnew
    rcases hkept mid hmid with ⟨hnone, heq⟩ | ⟨⟨m, hm, hrel⟩, hstopped, herror⟩
    · rcases hfollows (heq ▸ hover) with ⟨hnot, hsame⟩ | ⟨hrel, hstopped, herror⟩
      · exact Or.inl ⟨none_snoc hnone hnot, hsame.trans heq⟩
      · exact Or.inr ⟨⟨_, List.mem_append_right _ List.mem_cons_self, hrel⟩,
          heq.symm.trans hstopped, herror⟩
    -- a run that failed cannot relapse again, since only one that was stopped can
    · have hidle : mid.record.status.isActive = false := by
        rw [herror]
        rfl
      rcases hfollows hidle with ⟨-, hsame⟩ | ⟨-, hagain, -⟩
      · exact Or.inr ⟨⟨m, List.mem_append_left _ hm, hrel⟩, hstopped, hsame.trans herror⟩
      · cases herror.symm.trans hagain

/-- **A run is settled once, unless it relapses.** Whatever tasks do and in whatever
order: without a relapse at most one end of a run is announced on it, or about to be;
with one, exactly two are, that it was stopped and that it failed. And the status of a
run that is over changes, as long as the run is known, if and only if it relapses: it was
stopped then, and failed after. -/
theorem Reached.settled_once {s : Settings} (hsandbox : s.around.IsSandboxed)
    (hs : NamesApart s) {l : List Moment} {e : Engine} (h : Reached s l e) (run : String) :
    ((∀ m ∈ l, ¬ m.IsRelapse run) → (told run l ++ announcing run e.pending).length ≤ 1) ∧
      ((∃ m ∈ l, m.IsRelapse run) →
        (told run l ++ announcing run e.pending).Perm [.runStopped run, breakdown run]) ∧
      (e.Named run → ∀ old, e.table.find? run = some old →
        old.record.status.isTerminal = true → ∀ l' e', Runs s e l' e' →
        ∀ new, e'.table.find? run = some new →
          (new.record.status ≠ old.record.status ↔ ∃ m ∈ l', m.IsRelapse run) ∧
            (new.record.status ≠ old.record.status →
              old.record.status = .stopped ∧ new.record.status = .error)) := by
  refine ⟨fun hnone => ?_, fun hex => ?_, ?_⟩
  · change (ends run l e).length ≤ 1
    cases h.standing hsandbox hs run with
    | unborn _ _ _ he => exact he ▸ Nat.zero_le 1
    | active _ _ _ _ he => exact he ▸ Nat.zero_le 1
    | stopped _ _ _ he => exact he ▸ Nat.le_refl 1
    | ended _ _ _ he => exact Nat.le_of_eq he
    | relapsed _ _ _ _ hr =>
      obtain ⟨m, hm, hrel⟩ := hr
      exact absurd hrel (hnone m hm)
  · obtain ⟨m, hm, hrel⟩ := hex
    cases h.standing hsandbox hs run with
    | relapsed _ _ _ he => exact he
    | unborn _ _ _ _ hr => exact absurd hrel (hr m hm)
    | active _ _ _ _ _ hr => exact absurd hrel (hr m hm)
    | stopped _ _ _ _ hr => exact absurd hrel (hr m hm)
    | ended _ _ _ _ hr => exact absurd hrel (hr m hm)
  · intro hname old hold hover l' e' hruns new hnew
    have hidle := RunStatus.isActive_of_isTerminal hover
    obtain ⟨-, hkept⟩ := h.status_kept hsandbox hs hruns hname hold hidle
    rcases hkept new hnew with ⟨hnone, heq⟩ | ⟨hex, hstopped, herror⟩
    · refine ⟨⟨fun hne => absurd heq hne, ?_⟩, fun hne => absurd heq hne⟩
      rintro ⟨m, hm, hrel⟩
      exact absurd hrel (hnone m hm)
    · have hne : new.record.status ≠ old.record.status := by
        rw [hstopped, herror]
        exact nofun
      exact ⟨⟨fun _ => hex, fun _ => hne⟩, fun _ => ⟨hstopped, herror⟩⟩

/-- A course to a relapse: the search for the script of the first node has broken down,
the run is stopped, and its driver is about to settle it. -/
def towardsRelapse : List Deed :=
  .ask trialStart :: List.replicate 14 (.work 0) ++ List.replicate 2 (.work 2) ++
    [.ask (.stop "#:p"), .work 3] ++ List.replicate 10 (.work 1)

/-- At the end of that course the driver is indeed about to settle a run that was stopped
and whose interpreter is broken. -/
theorem towardsRelapse_spec :
    ∃ l e e' w old new, (fresh .absent none 8 8).replay trial towardsRelapse = some (l, e) ∧
      e.nextJob? 1 = some (.settle "p" "#:p") ∧ e.walks.find? "#:p" = some w ∧
      w.run.phase = .broken ∧ e.started = [("p", "#:p")] ∧ e.table.find? "#:p" = some old ∧
      old.record.status = .stopped ∧ e.after trial (.work 1) = some e' ∧
      e'.table.find? "#:p" = some new := by
  have hsome : ((fresh .absent none 8 8).replay trial towardsRelapse).isSome = true := rfl
  have hw : ((Option.get _ hsome).2.walks.find? "#:p").isSome = true := rfl
  have hold : ((Option.get _ hsome).2.table.find? "#:p").isSome = true := rfl
  have hafter : ((Option.get _ hsome).2.after trial (.work 1)).isSome = true := rfl
  have hnew : ((Option.get _ hafter).table.find? "#:p").isSome = true := rfl
  exact ⟨_, _, _, _, _, _, (Option.some_get hsome).symm, rfl, (Option.some_get hw).symm, rfl, rfl,
    (Option.some_get hold).symm, rfl, (Option.some_get hafter).symm, (Option.some_get hnew).symm⟩

/-- A run that was stopped fails, and both is announced. -/
theorem stopped_then_failed :
    ∃ l e e' old new, Reached trial l e ∧ Runs trial e [⟨e, .work 1⟩] e' ∧
      e.table.find? "#:p" = some old ∧ e'.table.find? "#:p" = some new ∧
      old.record.status = .stopped ∧ new.record.status = .error ∧
      (told "#:p" (l ++ [⟨e, .work 1⟩]) ++ announcing "#:p" e'.pending).Perm
        [.runStopped "#:p", breakdown "#:p"] := by
  obtain ⟨l, e, e', w, old, new, hfront, hjob, hw, hp, hnames, hold, hs, hafter, hnew⟩ :=
    towardsRelapse_spec
  have hrel : (⟨e, .work 1⟩ : Moment).IsRelapse "#:p" :=
    ⟨"p", w, old, hjob, hw, hp, hold, hs⟩
  have hreached : Reached trial l e := ⟨_, _, _, _, replay_runs hfront⟩
  have hreached' : Reached trial (l ++ [⟨e, .work 1⟩]) e' :=
    ⟨_, _, _, _, (replay_runs hfront).snoc hafter⟩
  have hover : old.record.status.isTerminal = true := by
    rw [hs]
    rfl
  have hnamed : e.Named "#:p" := ⟨"p", hnames ▸ List.mem_cons_self⟩
  obtain ⟨hiff, hend⟩ := (hreached.settled_once trial_isSandboxed trial_namesApart "#:p").2.2 hnamed old
    hold hover _ e' (Runs.one hafter) new hnew
  have herror := (hend (hiff.mpr ⟨_, List.mem_cons_self, hrel⟩)).2
  exact ⟨l, e, e', old, new, hreached, Runs.one hafter, hold, hnew, hs, herror,
    (hreached'.settled_once trial_isSandboxed trial_namesApart "#:p").2.1
      ⟨_, List.mem_append_right l List.mem_cons_self, hrel⟩⟩

end Engine

end Workflow
