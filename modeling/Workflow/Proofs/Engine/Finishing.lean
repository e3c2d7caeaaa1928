import Workflow.Proofs.Engine.Enlisted
import Workflow.Proofs.Watch.Journal

/-!
# When a journal is let go

The driver of a run settles it when its interpreter is done. Where it finds the record that was made
for the run, it signals after that that nothing more will come, and the journal of the run ends at
that signal, whatever was lost to its queue. But a run that was stopped may be forgotten while it
still winds up, by request or to make room for a new run of its project. Its driver then misses the
record (`Moment.Misses`) and ends without the signal, and nobody else gives it.

So of a run whose driver is done the signal was given if and only if its record was not missed
(`Roams.signalled_iff`). The invariant (`Conduct`) follows the one driver of a run from job to job.

The task of a journal reads all that is in its mailbox at once, where the journal goes step by step;
they come to the same (`writeJournal_as_run`).
-/

namespace Workflow

/-- After the signal every turn of a journal is its last. -/
theorem Journal.ended_turn (level : Nat) (room : Option Nat) (items : List Envelope) :
    (turn level true room items).ended = true := rfl

namespace Engine

open Engine.Job

/-! ## The jobs of a driver -/

/-- Whether a job is one that brings a run to its end: its driver is to come of it, follows the run
or settles it. -/
def Job.conducts (run : String) : Job → Bool
  | launch _ id | drive _ id | settle _ id => id = run
  | _ => false

theorem Job.conducts_of_isChore {run : String} {j : Job} (h : j.isChore = true) :
    j.conducts run = false := by
  cases j <;> first | rfl | cases h

section Jobs

variable {s : Settings} {e e' e₁ : Engine} {job : Job} {next : List Job} {run : String}

/-- What brings a run to its end comes of such a job, or of enlisting the run. -/
theorem conducts_next (h : job.run s e = some (next, e₁)) {j : Job}
    (hj : j ∈ next ∨ j ∈ (job.spawned e).flatten) (hconducts : j.conducts run = true) :
    job.conducts run = true ∨
      ∃ project definition vars, job = .enrol project definition vars ∧ run = e.newRun s project := by
  rcases hj.elim (mem_next h) mem_spawned with hchore | hleads
  · exact nomatch hconducts.symm.trans (Job.conducts_of_isChore hchore)
  · cases hleads with
    | launch project definition vars =>
      exact Or.inr ⟨project, definition, vars, rfl, (of_decide_eq_true hconducts).symm⟩
    | drive => exact Or.inl hconducts
    | driveOn => exact Or.inl hconducts
    | settle => exact Or.inl hconducts
    | _ => cases hconducts

/-- What settling leaves to do before the signal is no signal. -/
theorem signal_not_mem (project id run : String) (due : Option Event) :
    .signal run ∉ saving ++ (due.map (publishing project id)).getD [] := by
  intro hmem
  rcases List.mem_append.mp hmem with hmem | hmem
  · simp [saving] at hmem
  · cases due with
    | none => cases hmem
    | some event => obtain ⟨_, _, heq | heq⟩ := mem_publishing hmem <;> cases heq

/-- The signal is left to do by settling alone. -/
theorem signal_next (h : job.run s e = some (next, e₁)) (hj : .signal run ∈ next) :
    ∃ project, job = .settle project run := by
  have hpublishing : ∀ {project id : String} {event : Event},
      .signal run ∉ publishing project id event := by
    intro project id event hmem
    obtain ⟨_, _, heq | heq⟩ := mem_publishing hmem <;> cases heq
  cases job
  case settle project id =>
    cases run_cases h with
    | aside ha => cases ha
    | settled hs =>
      cases hs with
      | gone => cases hj
      | unknown => cases hj
      | known =>
        rcases List.mem_append.mp hj with hj | hj
        · exact (signal_not_mem _ _ _ _ hj).elim
        · split at hj
          · cases List.mem_singleton.mp hj
            exact ⟨project, rfl⟩
          · cases hj
  case plan =>
    cases h
    obtain ⟨decision, -, hj⟩ := List.mem_flatMap.mp hj
    cases decision <;> simp [ofDecision] at hj
  -- all others leave saving, publishing and further jobs of their own to do
  all_goals exfalso
  all_goals
    simp only [Job.run, enrolRun, goOn, follow, postMessage, writeDown] at h
    repeat' split at h
  all_goals
    cases h
  all_goals
    simp [hpublishing, saving, replying] at hj

/-- No other jobs than the signal of a run and the cancelling of all do what nothing takes back. -/
theorem run_marks (h : job.run s e = some (next, e₁)) (hsignal : ∀ run, job ≠ .signal run)
    (hcancel : job ≠ .cancelAll) : e₁.finished = e.finished ∧ e₁.isShut = e.isShut := by
  cases job
  case signal run => exact absurd rfl (hsignal run)
  case cancelAll => exact absurd rfl hcancel
  case stop run =>
    cases run_cases h with
    | aside ha => cases ha
    | notStopped => exact ⟨rfl, rfl⟩
    | @stopped _ old =>
      cases old.isOwn with
      | false => exact ⟨rfl, rfl⟩
      | true =>
        obtain ⟨walks, heq⟩ := (e.readClock s).2.cancel_eq run
        rw [if_pos rfl, heq]
        exact ⟨rfl, rfl⟩
  case drive project run =>
    cases run_cases h with
    | aside ha => cases ha
    | followed hf => cases hf <;> exact ⟨rfl, rfl⟩
  case settle project run =>
    cases run_cases h with
    | aside ha => cases ha
    | settled hs => cases hs <;> exact ⟨rfl, rfl⟩
  all_goals
    simp only [Job.run, goOn, postMessage, writeDown] at h
    repeat' split at h
  all_goals cases h
  all_goals exact ⟨rfl, rfl⟩

theorem roam_marks {d : Deed} (hwork : ∀ id, d ≠ .work id) (h : e.roam s d = some e') :
    e'.finished = e.finished ∧ e'.isShut = e.isShut := by
  cases d
  case work id => exact absurd rfl (hwork id)
  all_goals
    simp only [roam, after] at h
    repeat' split at h
  all_goals cases h
  all_goals exact ⟨rfl, rfl⟩

/-- The signal is given by nothing else. -/
theorem finished_run (h : job.run s e = some (next, e₁)) :
    e₁.finished = e.finished ∨ ∃ run, job = .signal run ∧ e₁.finished = run :: e.finished := by
  by_cases hsignal : ∃ run, job = .signal run
  · obtain ⟨run, rfl⟩ := hsignal
    cases h
    exact Or.inr ⟨run, rfl, rfl⟩
  by_cases hcancel : job = .cancelAll
  · subst hcancel
    cases h
    exact Or.inl rfl
  exact Or.inl (run_marks h (fun run heq => hsignal ⟨run, heq⟩) hcancel).1

end Jobs

/-! ## Records that are gone -/

/-- Whether a run has the record that was made for it. -/
def Owned (e : Engine) (run : String) : Prop :=
  ∃ h, e.table.find? run = some h ∧ h.isOwn = true

/-- The driver of a run comes to settle it, and its record is gone. -/
def Moment.Misses (run : String) (m : Moment) : Prop :=
  ∃ project, m.job? = some (.settle project run) ∧ ¬ m.before.Owned run

/-- The record of a run goes: the run is over and is forgotten or makes room for a new one of its
project, or what is read from disk takes its place. -/
def Moment.Forgets (run : String) (m : Moment) : Prop :=
  ∃ h, m.before.table.find? run = some h ∧ h.isOwn = true ∧
    ((h.record.status.isActive = false ∧ (m.job? = some (.remove run) ∨
        ∃ definition vars, m.job? = some (.enrol h.record.projectId definition vars))) ∨
      ∃ records, m.job? = some (.restore records))

section Work

variable {s : Settings} {e e' e₁ : Engine} {id : Nat} {job : Job} {rest next : List Job}
  {reply reply' : Option Reply} {run : String} {l : List Moment}

/-- A run keeps its record unless that is forgotten now. -/
theorem owned_next (ht : e.task? id = some ⟨job :: rest, reply⟩)
    (h : job.run s e = some (next, e₁)) (htidy : e.table.Tidy) (ho : e.Owned run) :
    e₁.Owned run ∨ (⟨e, .work id⟩ : Moment).Forgets run := by
  obtain ⟨old, hf, hown⟩ := ho
  have hjob := job?_work ht
  have hfate := run_fate h htidy run
  rw [hf] at hfate
  generalize hnew : e₁.table.find? run = o at hfate
  cases hfate with
  | kept => exact Or.inl ⟨old, hnew, hown⟩
  | born => exact Or.inl ⟨_, hnew, rfl⟩
  | changed hc => exact Or.inl ⟨_, hnew, hc.isOwn.trans hown⟩
  | pruned heq hover =>
    subst heq
    have hidle := RunStatus.isActive_of_isTerminal hover
    exact Or.inr ⟨old, hf, hown, Or.inl ⟨hidle, Or.inr ⟨_, _, hjob⟩⟩⟩
  | removed heq hidle =>
    subst heq
    exact Or.inr ⟨old, hf, hown, Or.inl ⟨hidle, Or.inl hjob⟩⟩
  | restored heq =>
    subst heq
    exact Or.inr ⟨old, hf, hown, Or.inr ⟨_, hjob⟩⟩

end Work

/-! ## The driver of a run -/

/-- **Conduct**: how far the driver of a run has come. -/
inductive Conduct (run : String) (l : List Moment) (e : Engine) : Prop
  /-- the run is not there yet -/
  | unborn : ¬ e.Named run → e.pending.countP (Job.conducts run) = 0 →
      .signal run ∉ e.pending → run ∉ e.finished → (∀ m ∈ l, ¬ m.Misses run) → Conduct run l e
  /-- one task brings it to its end; its record is there or was forgotten -/
  | driven : e.Named run → e.pending.countP (Job.conducts run) = 1 →
      (e.walks.find? run).isSome = true → .signal run ∉ e.pending → run ∉ e.finished →
      (∀ m ∈ l, ¬ m.Misses run) → (e.Owned run ∨ ∃ m ∈ l, m.Forgets run) → Conduct run l e
  /-- it was settled, and that is signalled -/
  | settled : e.Named run → e.pending.countP (Job.conducts run) = 0 →
      (.signal run ∈ e.pending ∨ run ∈ e.finished) → (∀ m ∈ l, ¬ m.Misses run) → Conduct run l e
  /-- its driver has missed its record, which had been forgotten -/
  | missed {l₀ l₁ : List Moment} {m : Moment} : e.Named run →
      e.pending.countP (Job.conducts run) = 0 → .signal run ∉ e.pending → run ∉ e.finished →
      l = l₀ ++ m :: l₁ → m.Misses run → (∃ m₀ ∈ l₀, m₀.Forgets run) → Conduct run l e

section Work

variable {s : Settings} {e e' e₁ : Engine} {id : Nat} {job : Job} {rest next : List Job}
  {reply reply' : Option Reply} {run : String} {l : List Moment}

theorem not_misses {m : Moment} (hsettle : ∀ project, m.job? ≠ some (.settle project run)) :
    ¬ m.Misses run := by
  rintro ⟨project, hjob, -⟩
  exact hsettle project hjob

theorem none_misses {m : Moment} (hl : ∀ m' ∈ l, ¬ m'.Misses run) (hm : ¬ m.Misses run) :
    ∀ m' ∈ l ++ [m], ¬ m'.Misses run := by
  intro m' hm'
  rcases List.mem_append.mp hm' with hm' | hm'
  · exact hl m' hm'
  · obtain rfl := List.mem_singleton.mp hm'
    exact hm

/-- While a job is left that brings a run to its end, the run is on its way. -/
theorem Conduct.onWay (hc : Conduct run l e) {j : Job} (hj : j ∈ e.pending)
    (hconducts : j.conducts run = true) :
    e.Named run ∧ e.pending.countP (Job.conducts run) = 1 ∧ (e.walks.find? run).isSome = true ∧
      .signal run ∉ e.pending ∧ run ∉ e.finished ∧ (∀ m ∈ l, ¬ m.Misses run) ∧
      (e.Owned run ∨ ∃ m ∈ l, m.Forgets run) := by
  have hnot : e.pending.countP (Job.conducts run) ≠ 0 := by
    intro hzero
    exact nomatch hconducts.symm.trans (countP_none.mp hzero j hj)
  cases hc with
  | driven hn hone hw hs hf hm ho => exact ⟨hn, hone, hw, hs, hf, hm, ho⟩
  | unborn _ hzero => exact absurd hzero hnot
  | settled _ hzero => exact absurd hzero hnot
  | missed _ hzero => exact absurd hzero hnot

/-- What changes nothing for the driver of a run leaves it where it is. -/
theorem Conduct.carry {m : Moment} (hc : Conduct run l e) (hnamed : e'.Named run ↔ e.Named run)
    (hcount : e'.pending.countP (Job.conducts run) = e.pending.countP (Job.conducts run))
    (hsignal : .signal run ∈ e'.pending ↔ .signal run ∈ e.pending)
    (hfinished : run ∈ e'.finished ↔ run ∈ e.finished)
    (hwalk : (e.walks.find? run).isSome = true → (e'.walks.find? run).isSome = true)
    (howned : e.Owned run → e'.Owned run ∨ m.Forgets run) (hm : ¬ m.Misses run) :
    Conduct run (l ++ [m]) e' := by
  cases hc with
  | unborn hn hzero hs hf hmisses =>
    exact .unborn (mt hnamed.mp hn) (hcount.trans hzero) (mt hsignal.mp hs) (mt hfinished.mp hf)
      (none_misses hmisses hm)
  | driven hn hone hw hs hf hmisses ho =>
    refine .driven (hnamed.mpr hn) (hcount.trans hone) (hwalk hw) (mt hsignal.mp hs)
      (mt hfinished.mp hf) (none_misses hmisses hm) ?_
    rcases ho with ho | ⟨m₀, hm₀, hforgets⟩
    · rcases howned ho with ho | hforgets
      · exact Or.inl ho
      · exact Or.inr ⟨m, List.mem_append_right l List.mem_cons_self, hforgets⟩
    · exact Or.inr ⟨m₀, List.mem_append_left _ hm₀, hforgets⟩
  | settled hn hzero hgiven hmisses =>
    exact .settled (hnamed.mpr hn) (hcount.trans hzero)
      (hgiven.imp hsignal.mpr hfinished.mpr) (none_misses hmisses hm)
  | @missed l₀ l₁ m₁ hn hzero hs hf hl hmissed hforgets =>
    have hlonger : l ++ [m] = l₀ ++ m₁ :: (l₁ ++ [m]) := by
      rw [hl, List.append_assoc, List.cons_append]
    exact .missed (hnamed.mpr hn) (hcount.trans hzero) (mt hsignal.mp hs) (mt hfinished.mp hf)
      hlonger hmissed hforgets

/-- What launches or follows a run that is on its way leaves one job that goes on with it. -/
theorem conducts_balance (h : job.run s e = some (next, e₁))
    (hw : job.conducts run = true → (e.walks.find? run).isSome = true)
    (hborn : ∀ project definition vars, job = .enrol project definition vars →
      run ≠ e.newRun s project) (hsettle : ∀ project, job ≠ .settle project run) :
    (job.spawned e).flatten.countP (Job.conducts run) + next.countP (Job.conducts run) =
      (job.conducts run).toNat := by
  cases hconducts : job.conducts run with
  | false =>
    have hfew : ∀ j, j ∈ next ∨ j ∈ (job.spawned e).flatten → j.conducts run = false := by
      intro j hj
      refine Bool.eq_false_iff.mpr fun hj' => ?_
      rcases conducts_next h hj hj' with hjob | ⟨project, definition, vars, heq, hrun⟩
      · cases hconducts.symm.trans hjob
      · exact hborn project definition vars heq hrun
    rw [countP_none.mpr fun j hj => hfew j (Or.inl hj),
      countP_none.mpr fun j hj => hfew j (Or.inr hj)]
    rfl
  | true =>
    have hsome := hw hconducts
    have hchores : ∀ {jobs : List Job}, (∀ j ∈ jobs, j.isRoutine = true) →
        jobs.countP (Job.conducts run) = 0 := fun hall =>
      countP_none.mpr fun j hj => Job.conducts_of_isChore (Job.isChore_of_isRoutine (hall j hj))
    have hsaving : ∀ {b : Bool}, (if b then saving else []).countP (Job.conducts run) = 0 := by
      intro b
      cases b with
      | false => rfl
      | true => exact hchores saving_isRoutine
    cases job
    case launch project id =>
      obtain rfl : id = run := of_decide_eq_true hconducts
      cases h
      simp [spawned, Job.conducts]
    case drive project id =>
      obtain rfl : id = run := of_decide_eq_true hconducts
      have hspawned : ((Job.drive project id).spawned e).flatten.countP (Job.conducts id) = 0 := rfl
      rw [hspawned, Nat.zero_add]
      have hdrive : [Job.drive project id].countP (Job.conducts id) = 1 := by
        simp [Job.conducts]
      have hlast : [Job.settle project id].countP (Job.conducts id) = 1 := by
        simp [Job.conducts]
      cases run_cases h with
      | aside ha => cases ha
      | followed hf =>
        cases hf with
        | gone hgone =>
          rw [hgone] at hsome
          cases hsome
        | event =>
          rw [List.countP_append, List.countP_append, hsaving, hchores publishing_isRoutine, hdrive]
          rfl
        | done => exact hlast
        | beat =>
          rw [List.countP_append, hsaving, hdrive]
          rfl
    case settle project id =>
      obtain rfl : id = run := of_decide_eq_true hconducts
      exact absurd rfl (hsettle project)
    all_goals cases hconducts

/-- What is said of a run by all that is left besides is not changed by other jobs. -/
theorem conduct_other (he : Enlisted s e)
    (ht : e.task? id = some ⟨job :: rest, reply⟩) (h : job.run s e = some (next, e₁))
    (hc : Conduct run l e)
    (hborn : ∀ project definition vars, job = .enrol project definition vars →
      run ≠ e.newRun s project)
    (hsettle : ∀ project, job ≠ .settle project run) (hsignal : job ≠ .signal run) :
    Conduct run (l ++ [⟨e, .work id⟩]) (e₁.setTask id ⟨next ++ rest, reply'⟩) := by
  have hn := he.numbered
  have hmem := mem_pending ht List.mem_cons_self
  have hnew : ∀ j, j ∈ next ∨ j ∈ (job.spawned e).flatten → j ≠ .signal run := by
    rintro j hj rfl
    rcases hj with hj | hj
    · obtain ⟨project, hjob⟩ := signal_next h hj
      exact hsettle project hjob
    · cases job <;> simp [spawned] at hj
  have howned : e.Owned run → e₁.Owned run ∨ (⟨e, .work id⟩ : Moment).Forgets run :=
    owned_next ht h he.single.tidy
  refine hc.carry ?_ ?_ ?_ ?_ (walk_kept h · hsettle) howned ?_
  · exact named_run_iff h run hborn
  · have hcount := countP_pending_work (Job.conducts run) hn ht h reply'
    have hbalance := conducts_balance h (fun hconducts => (hc.onWay hmem hconducts).2.2.1) hborn hsettle
    omega
  · constructor
    · refine fun hleft => Classical.byContradiction fun hnot => ?_
      have hall : ∀ j ∈ (e₁.setTask id ⟨next ++ rest, reply'⟩).pending, j ≠ .signal run :=
        forall_pending_work hn ht h (fun j hj heq => hnot (heq ▸ hj)) hnew
      exact hall _ hleft rfl
    · intro hleft
      rcases mem_pending_work hn ht h reply' (Or.inl hleft) with heq | hleft
      · exact absurd heq.symm hsignal
      · exact hleft
  · change run ∈ e₁.finished ↔ run ∈ e.finished
    rcases finished_run h with heq | ⟨id', hjob, heq⟩
    · rw [heq]
    · have hne : run ≠ id' := by
        rintro rfl
        exact hsignal hjob
      rw [heq, List.mem_cons, or_iff_right hne]
  · refine not_misses fun project hjob => ?_
    have heq := Option.some.inj ((job?_work ht).symm.trans hjob)
    exact hsettle project heq

/-- A new run has its record, and one job to bring it to its end. -/
theorem conduct_enrol {project : String} {definition : Definition} {vars : Vars}
    (hs : NamesApart s) (he : Enlisted s e)
    (ht : e.task? id = some ⟨.enrol project definition vars :: rest, reply⟩)
    (h : (Job.enrol project definition vars).run s e = some (next, e₁))
    (hc : Conduct (e.newRun s project) l e) :
    Conduct (e.newRun s project) (l ++ [⟨e, .work id⟩])
      (e₁.setTask id ⟨next ++ rest, reply'⟩) := by
  have hn := he.numbered
  have hfresh := he.newRun_fresh hs project
  cases hc with
  | driven hname => exact absurd hname hfresh
  | settled hname => exact absurd hname hfresh
  | missed hname => exact absurd hname hfresh
  | unborn _ hzero hsignal hfinished hmisses =>
    have hstarted := started_enrol h
    have hfinished₁ : e₁.finished = e.finished := by
      rcases finished_run h with heq | ⟨_, hjob, -⟩
      · exact heq
      · cases hjob
    have hcount := countP_pending_work (Job.conducts (e.newRun s project)) hn ht h reply'
    have hall : ∀ j ∈ (e₁.setTask id ⟨next ++ rest, reply'⟩).pending,
        j ≠ .signal (e.newRun s project) := by
      refine forall_pending_work hn ht h (fun j hj heq => hsignal (heq ▸ hj)) ?_
      rintro j (hj | hj) rfl
      · obtain ⟨_, hjob⟩ := signal_next h hj
        cases hjob
      · cases hj
    cases run_cases h with
    | aside ha => cases ha
    | enrolled =>
      obtain ⟨htable, w, hwalk⟩ := enrolled_spec s e project definition vars
      have hnext : (e.enrolling s project definition vars).countP
          (Job.conducts (e.newRun s project)) = 1 := by
        rw [enrolling, List.countP_append, countP_none.mpr fun j hj =>
          Job.conducts_of_isChore (Job.isChore_of_isRoutine (enrolling_isRoutine j hj))]
        simp [Job.conducts]
      rw [hnext, hzero] at hcount
      refine .driven ⟨project, hstarted ▸ List.mem_cons_self⟩ hcount (hwalk ▸ rfl)
        (fun hmem => hall _ hmem rfl) (hfinished₁ ▸ hfinished) (none_misses hmisses ?_)
        (Or.inl ⟨_, htable, rfl⟩)
      refine not_misses fun _ hjob => ?_
      cases (job?_work ht).symm.trans hjob

/-- Settling a run that is on its way signals that if and only if its record is there. -/
theorem signal_settle_iff {project : String}
    (h : (Job.settle project run).run s e = some (next, e₁))
    (hw : (e.walks.find? run).isSome = true) : .signal run ∈ next ↔ e.Owned run := by
  cases run_cases h with
  | aside ha => cases ha
  | settled hsettled =>
    cases hsettled with
    | gone hgone =>
      rw [hgone] at hw
      cases hw
    | unknown _ hnone =>
      constructor
      · intro hmem
        cases hmem
      · rintro ⟨own, hf, -⟩
        cases hf.symm.trans hnone
    | @known w old _ hf =>
      have howned : e.Owned run ↔ old.isOwn = true := by
        constructor
        · rintro ⟨own, hf', hown⟩
          obtain rfl := Option.some.inj (hf.symm.trans hf')
          exact hown
        · exact fun hown => ⟨old, hf, hown⟩
      rw [howned]
      cases old.isOwn with
      | true => exact ⟨fun _ => rfl, fun _ => List.mem_append_right _ List.mem_cons_self⟩
      | false =>
        rw [if_neg Bool.false_ne_true, List.append_nil]
        exact ⟨fun hmem => (signal_not_mem _ _ _ _ hmem).elim, fun hown => nomatch hown⟩

/-- A run that is settled is signalled if its record is there. -/
theorem conduct_settle {project : String} (he : Enlisted s e)
    (ht : e.task? id = some ⟨.settle project run :: rest, reply⟩)
    (h : (Job.settle project run).run s e = some (next, e₁)) (hc : Conduct run l e) :
    Conduct run (l ++ [⟨e, .work id⟩]) (e₁.setTask id ⟨next ++ rest, reply'⟩) := by
  have hn := he.numbered
  obtain ⟨hname, hone, hw, hsignal, hfinished, hmisses, howned⟩ :=
    hc.onWay (mem_pending ht List.mem_cons_self) (decide_eq_true rfl)
  have hname₁ : e₁.Named run := named_run h hname
  have hfinished₁ : run ∉ e₁.finished := by
    rcases finished_run h with heq | ⟨_, hjob, -⟩
    · rw [heq]
      exact hfinished
    · cases hjob
  have hzero : (e₁.setTask id ⟨next ++ rest, reply'⟩).pending.countP (Job.conducts run) = 0 := by
    have hcount := countP_pending_work (Job.conducts run) hn ht h reply'
    have hnext : next.countP (Job.conducts run) = 0 := by
      refine countP_none.mpr fun j hj => ?_
      cases run_cases h with
      | aside ha => cases ha
      | settled hsettled =>
        exact Job.conducts_of_isChore (Job.isChore_of_isRoutine (settle_next hsettled hj))
    have hspawned : ((Job.settle project run).spawned e).flatten.countP (Job.conducts run) = 0 := rfl
    have hself : (Job.settle project run).conducts run = true := decide_eq_true rfl
    rw [hself, hnext, hspawned, hone] at hcount
    exact Nat.succ.inj hcount
  have hjob := job?_work ht
  have hgiven := signal_settle_iff h hw
  by_cases hown : e.Owned run
  · -- its record is there, so it is signalled
    refine .settled hname₁ hzero (Or.inl ?_) (none_misses hmisses ?_)
    · rcases mem_pending_work hn ht h reply' (Or.inr (hgiven.mpr hown)) with heq | hleft
      · cases heq
      · exact hleft
    · rintro ⟨_, -, hnot⟩
      exact hnot hown
  · have hall : ∀ j ∈ (e₁.setTask id ⟨next ++ rest, reply'⟩).pending, j ≠ .signal run := by
      refine forall_pending_work hn ht h (fun j hj heq => hsignal (heq ▸ hj)) ?_
      rintro j (hj | hj) rfl
      · exact hown (hgiven.mp hj)
      · cases hj
    exact .missed hname₁ hzero (fun hmem => hall _ hmem rfl) hfinished₁ rfl
      ⟨project, job?_work ht, hown⟩ (howned.resolve_left hown)

/-- When the signal is given it has been given. -/
theorem conduct_signal (he : Enlisted s e) (ht : e.task? id = some ⟨.signal run :: rest, reply⟩)
    (h : (Job.signal run).run s e = some (next, e₁)) (hc : Conduct run l e) :
    Conduct run (l ++ [⟨e, .work id⟩]) (e₁.setTask id ⟨next ++ rest, reply'⟩) := by
  have hmem := mem_pending ht List.mem_cons_self
  cases hc with
  | unborn _ _ hsignal => exact absurd hmem hsignal
  | driven _ _ _ hsignal => exact absurd hmem hsignal
  | missed _ _ hsignal => exact absurd hmem hsignal
  | settled hname hzero _ hmisses =>
    have hcount := countP_pending_work (Job.conducts run) he.numbered ht h reply'
    cases h
    refine .settled hname (hcount.trans hzero) (Or.inr List.mem_cons_self) (none_misses hmisses ?_)
    refine not_misses fun _ hjob => ?_
    cases (job?_work ht).symm.trans hjob

/-- The work of every task keeps the driver of a run on its course. -/
theorem conduct_work (hs : NamesApart s) (he : Enlisted s e)
    (ht : e.task? id = some ⟨job :: rest, reply⟩) (h : job.run s e = some (next, e₁))
    (hc : Conduct run l e) :
    Conduct run (l ++ [⟨e, .work id⟩]) (e₁.setTask id ⟨next ++ rest, reply'⟩) := by
  by_cases hborn : ∃ project definition vars,
      job = .enrol project definition vars ∧ run = e.newRun s project
  · obtain ⟨project, definition, vars, rfl, rfl⟩ := hborn
    exact conduct_enrol hs he ht h hc
  by_cases hsettle : ∃ project, job = .settle project run
  · obtain ⟨project, rfl⟩ := hsettle
    exact conduct_settle he ht h hc
  by_cases hsignal : job = .signal run
  · subst hsignal
    exact conduct_signal he ht h hc
  refine conduct_other he ht h hc ?_ (fun project heq => hsettle ⟨project, heq⟩) hsignal
  exact fun project definition vars heq hrun => hborn ⟨project, definition, vars, heq, hrun⟩

/-- What no task does keeps the driver of a run where it is. -/
theorem Conduct.idle {d : Deed} (hc : Conduct run l e) (hd : ∀ id, d ≠ .work id)
    (h : e.roam s d = some e') (htable : e'.table = e.table) (hwalks : e'.walks = e.walks)
    (hstarted : e'.started = e.started)
    (hcount : e'.pending.countP (Job.conducts run) = e.pending.countP (Job.conducts run))
    (hsignal : .signal run ∈ e'.pending ↔ .signal run ∈ e.pending) :
    Conduct run (l ++ [⟨e, d⟩]) e' := by
  refine hc.carry ?_ hcount hsignal ?_ ?_ ?_ ?_
  · simp only [Named, hstarted]
  · rw [(roam_marks hd h).1]
  · rw [hwalks]
    exact id
  · rintro ⟨own, hf, hown⟩
    exact Or.inl ⟨own, htable ▸ hf, hown⟩
  · refine not_misses fun project hjob => ?_
    cases (job?_of_ne hd).symm.trans hjob

/-- **Every deed keeps the driver of a run on its course.** -/
theorem conduct_roam (hs : NamesApart s) (he : Enlisted s e) {d : Deed} (hd : e.roam s d = some e')
    (hc : Conduct run l e) : Conduct run (l ++ [⟨e, d⟩]) e' := by
  cases roam_cases he.numbered hd with
  | worked ht hrun => exact conduct_work hs he ht hrun hc
  | asked c =>
    have hcalls : ∀ j ∈ c.jobs, j.conducts run = false ∧ j ≠ .signal run := by
      intro j hj
      cases c with
      | send id m =>
        obtain rfl := List.mem_singleton.mp hj
        cases m <;> exact ⟨rfl, by rintro ⟨⟩⟩
      | pass =>
        simp only [Call.jobs, passing, List.mem_cons, List.not_mem_nil, or_false] at hj
        rcases hj with rfl | rfl | rfl <;> exact ⟨rfl, by rintro ⟨⟩⟩
      | _ =>
        obtain rfl := List.mem_singleton.mp hj
        exact ⟨rfl, by rintro ⟨⟩⟩
    refine hc.idle (by rintro _ ⟨⟩) hd rfl rfl rfl ?_ ?_
    · rw [pending_ask, List.countP_append, countP_none.mpr fun j hj => (hcalls j hj).1,
        Nat.zero_add]
    · rw [pending_ask, List.mem_append, or_iff_right fun hmem => (hcalls _ hmem).2 rfl]
  | still hwork hstill =>
    refine hc.idle hwork hd hstill.table hstill.walks hstill.started ?_ ?_
    · rw [hstill.pending]
    · rw [hstill.pending]

/-- The driver of every run keeps on its course, whatever happens. -/
theorem Roams.conduct (hs : NamesApart s) {file : Stored} {source : Option (Option (Fields String))}
    {buffer busCapacity : Nat} (hr : Roams s (fresh file source buffer busCapacity) l e)
    (run : String) : Conduct run l e := by
  induction hr with
  | nil =>
    refine .unborn ?_ rfl List.not_mem_nil List.not_mem_nil ?_
    · rintro ⟨_, hmem⟩
      cases hmem
    · intro m hm
      cases hm
  | snoc hr hd ih => exact conduct_roam hs hr.enlisted hd ih

end Work

/-! ## Journals -/

section Journals

variable {s : Settings} {e : Engine} {run : String}

/-- After the signal a journal ends in its next turn. -/
theorem writeJournal_finished (hfinished : run ∈ e.finished) (watcher : Nat) :
    ∃ e', (Job.writeJournal run watcher).run s e = some ([.unsubscribe run watcher], e') := by
  simp [Job.run, writeDown, hfinished, Journal.ended_turn]

/-- Without the signal a journal with nothing to read waits. -/
theorem writeJournal_waits (hfinished : run ∉ e.finished) {watcher : Nat} {box : Mailbox Envelope}
    (hbox : e.broadcaster.box? watcher = some box) (hitems : box.items = [])
    (hopen : box.closed = false) : (Job.writeJournal run watcher).run s e = none := by
  simp [Job.run, writeDown, Broadcaster.drain, Mailbox.isOver, hfinished, hbox, hitems, hopen]

/-- A journal that reads, with what it has written down so far. -/
def journal (s : Settings) (e : Engine) (run : String) (watcher : Nat) : Journal :=
  { level := s.journalLevel.getD 0, subject := run, watcher := watcher, phase := .reading
    lines := ((e.journals.find? run).getD []).reverse }

/-- **The task of a journal does what the journal does by itself**: it writes the same down, and
lets its watcher go if the journal comes to its end. -/
theorem writeJournal_as_run {watcher n : Nat} {box : Mailbox Envelope} {next : List Job}
    {e' : Engine} {place : Journal.Place} (hbox : e.broadcaster.box? watcher = some box)
    (hrun : (Job.writeJournal run watcher).run s e = some (next, e'))
    (hn : box.items.length + 3 ≤ n) :
    let j := ((e.journal s run watcher).run place (e.finished.contains run) n e.broadcaster).1
    e'.journals.find? run = some j.lines.reverse ∧
      (box.closed = false →
        next = if j.isOver then [.unsubscribe run watcher] else [.writeJournal run watcher]) := by
  intro j
  obtain ⟨hlines, hover⟩ := @Journal.run_turn place (e.finished.contains run) n
    (e.journal s run watcher) e.broadcaster box rfl rfl hbox hn
  simp only [Job.run, writeDown, Broadcaster.drain, hbox, Option.map_some, Option.getD_some] at hrun
  split at hrun
  · cases hrun
  · cases hrun
    refine ⟨?_, fun hopen => ?_⟩
    · rw [Fields.find?_put, if_pos rfl, hlines, List.reverse_append, journal, List.reverse_reverse]
      rfl
    · have hstays : box.isOver = false := by rw [Mailbox.isOver, hopen, Bool.and_false]
      rw [hstays, Bool.or_false, hover hopen]
      rfl

end Journals

/-- **A journal is let go if and only if the record of its run is not missed.** Whatever tasks do
and in whatever order, and whenever the registry is read back: when the driver of a run is done, its
signal was given if and only if it found the record of the run when it settled it. After the signal
the journal of the run ends in its next turn, whatever it has got.

A record that was missed had been forgotten before: the run had been stopped and was removed or made
room for a new run of its project, or what was read from disk had taken the place of its record.
Then the signal is never given, and at any later time a journal with nothing to read waits. -/
theorem Roams.signalled_iff {s : Settings} (hs : NamesApart s) {file : Stored}
    {source : Option (Option (Fields String))} {buffer busCapacity : Nat} {l : List Moment}
    {e : Engine} (h : Roams s (fresh file source buffer busCapacity) l e) {run : String}
    (hname : e.Named run)
    (hdone : ∀ j ∈ e.pending, j.conducts run = false ∧ j ≠ .signal run) :
    (run ∈ e.finished ↔ ∀ m ∈ l, ¬ m.Misses run) ∧
      (run ∈ e.finished → ∀ watcher, ∃ e',
        (Job.writeJournal run watcher).run s e = some ([.unsubscribe run watcher], e')) ∧
      (run ∉ e.finished →
        (∃ l₀ m l₁, l = l₀ ++ m :: l₁ ∧ m.Misses run ∧ ∃ m₀ ∈ l₀, m₀.Forgets run) ∧
          ∀ l' e', Roams s e l' e' → run ∉ e'.finished ∧
            ∀ watcher box, e'.broadcaster.box? watcher = some box → box.items = [] →
              box.closed = false → (Job.writeJournal run watcher).run s e' = none) := by
  have hzero : e.pending.countP (Job.conducts run) = 0 :=
    countP_none.mpr fun j hj => (hdone j hj).1
  have hsignal : .signal run ∉ e.pending := fun hmem => (hdone _ hmem).2 rfl
  refine ⟨?_, writeJournal_finished, fun hnever => ?_⟩
  · cases h.conduct hs run with
    | unborn hnot => exact absurd hname hnot
    | driven _ hone => cases hzero.symm.trans hone
    | settled _ _ hgiven hmisses => exact iff_of_true (hgiven.resolve_left hsignal) hmisses
    | missed _ _ _ hnever hl hmissed =>
      refine iff_of_false hnever fun hnone => hnone _ ?_ hmissed
      exact hl ▸ List.mem_append_right _ List.mem_cons_self
  · cases h.conduct hs run with
    | unborn hnot => exact absurd hname hnot
    | driven _ hone => cases hzero.symm.trans hone
    | settled _ _ hgiven => exact absurd (hgiven.resolve_left hsignal) hnever
    | @missed l₀ l₁ m _ _ _ _ hl hmissed hforgets =>
      refine ⟨⟨l₀, m, l₁, hl, hmissed, hforgets⟩, fun l' e' hruns => ?_⟩
      have hmem : m ∈ l ++ l' :=
        List.mem_append_left l' (hl ▸ List.mem_append_right _ List.mem_cons_self)
      have hstill : run ∉ e'.finished := by
        -- a record that was missed once was missed for good
        cases (h.trans hruns).conduct hs run with
        | unborn _ _ _ hnever' => exact hnever'
        | driven _ _ _ _ hnever' => exact hnever'
        | settled _ _ _ hmisses => exact absurd hmissed (hmisses m hmem)
        | missed _ _ _ hnever' => exact hnever'
      exact ⟨hstill, fun watcher box hbox => writeJournal_waits hstill hbox⟩

/-- Settings to try out journals. -/
def noting : Settings := { trial with journalLevel := some 1 }

theorem noting_namesApart : NamesApart noting := trial_namesApart

/-- A course to a journal that is left waiting: its queue has room for one envelope and loses the
end of the run, which is stopped and removed before its driver comes to settle it. -/
def towardsMissing : List Deed :=
  .ask trialStart :: works 0 15 ++ works 1 1 ++ .ask (.stop "#:p") :: works 4 10 ++
    .ask (.remove "#:p") :: works 5 6 ++ works 3 3 ++ works 2 12 ++ works 1 1

theorem towardsMissing_spec :
    ∃ l e box, (fresh .absent none 1 8).replay noting towardsMissing = some (l, e) ∧
      e.started = [("p", "#:p")] ∧
      (∀ j ∈ e.pending, j.conducts "#:p" = false ∧ j ≠ .signal "#:p") ∧ e.finished = [] ∧
      e.broadcaster.box? 1 = some box ∧ box.items = [] ∧ box.closed = false := by
  have hall : ((fresh .absent none 1 8).replay noting towardsMissing).any (fun x =>
      x.2.started = [("p", "#:p")] &&
        (x.2.pending.all fun j => !j.conducts "#:p" && match j with
          | .signal _ => false
          | _ => true) &&
        x.2.finished.isEmpty &&
        (x.2.broadcaster.box? 1).any fun box => box.items.isEmpty && !box.closed) = true := by
    decide +kernel
  obtain ⟨⟨l, e⟩, hreplay, hspec⟩ := (Option.any_eq_true _ _).mp hall
  simp only [Bool.and_eq_true, decide_eq_true_eq, List.all_eq_true, List.isEmpty_iff,
    Option.any_eq_true, Bool.not_eq_true'] at hspec
  obtain ⟨⟨⟨hnames, hjobs⟩, hfinished⟩, box, hbox, hitems, hopen⟩ := hspec
  refine ⟨l, e, box, hreplay, hnames, fun j hj => ⟨(hjobs j hj).1, ?_⟩, hfinished, hbox, hitems,
    hopen⟩
  rintro rfl
  exact nomatch (hjobs _ hj).2

/-- The journal of a run that was removed while it wound up is never let go. -/
theorem signal_missed :
    ∃ l e, Reached noting l e ∧ e.started = [("p", "#:p")] ∧
      (∀ j ∈ e.pending, j.conducts "#:p" = false ∧ j ≠ .signal "#:p") ∧
      (∃ l₀ m l₁, l = l₀ ++ m :: l₁ ∧ m.Misses "#:p" ∧ ∃ m₀ ∈ l₀, m₀.Forgets "#:p") ∧
      (Job.writeJournal "#:p" 1).run noting e = none ∧
      ∀ l' e', Roams noting e l' e' → "#:p" ∉ e'.finished := by
  obtain ⟨l, e, box, hreplay, hnames, hdone, hfinished, hbox, hitems, hopen⟩ := towardsMissing_spec
  have hruns := replay_runs hreplay
  have hnever : "#:p" ∉ e.finished := by
    rw [hfinished]
    exact List.not_mem_nil
  obtain ⟨-, -, hwaits⟩ := hruns.roams.signalled_iff noting_namesApart
    ⟨"p", hnames ▸ List.mem_cons_self⟩ hdone
  obtain ⟨hmissed, hlater⟩ := hwaits hnever
  refine ⟨l, e, ⟨_, _, _, _, hruns⟩, hnames, hdone, hmissed, ?_, ?_⟩
  · exact (hlater [] e .nil).2 1 box hbox hitems hopen
  · intro l' e' hroams
    exact (hlater l' e' hroams).1

end Engine

end Workflow
