import Workflow.Proofs.Engine.Enlisted
import Workflow.Proofs.Engine.Relay

/-!
# The end of a run, on two subjects

What a task has left to publish becomes, job by job, what was published (`ledger_work`). So
whatever is published of a run on its own subject is published on that of its project as well, and
the other way round, though not at the same time: counting what is left to publish, the ends of a
run that are announced on the two subjects are always the same (`Reached.ends_alike`).

A run that is on its way has no end unless a call stopped it (`Reached.unended`). Once its walk is
gone and nothing is left to announce on its project, its end is never announced again
(`Reached.silent_after`).
-/

namespace Workflow.Engine

open Engine.Job

/-! ## Publications, made or about to be made -/

/-- What all tasks have left to publish on a subject. -/
def outstanding (subject : String) (e : Engine) : List Event :=
  e.pending.filterMap (Job.handsOut? subject)

/-- The ends of a run on a subject, announced or about to be. -/
def endsOn (subject run : String) (l : List Moment) (e : Engine) : List Event :=
  (published subject l ++ outstanding subject e).filter (Event.endsRun run)

section Ledger

variable {s : Settings} {e e' e₁ : Engine} {id : Nat} {job : Job} {rest next : List Job}
  {reply : Option Reply} {subject run : String} {l : List Moment} {m : Moment}

/-- What a task publishes is what its next job hands out. -/
theorem published?_work (ht : e.task? id = some ⟨job :: rest, reply⟩) (subject : String) :
    (⟨e, .work id⟩ : Moment).published? subject = job.handsOut? subject := by
  rw [Moment.published?, job?_work ht]
  cases job <;> rfl

theorem published?_idle (hm : m.job? = none) (subject : String) : m.published? subject = none := by
  rw [Moment.published?, hm]

/-- **The ledger**: to what was published or is left to publish, the work of a task adds what its
job leaves to publish. -/
theorem ledger_work (hn : e.Numbered) (ht : e.task? id = some ⟨job :: rest, reply⟩)
    (h : job.run s e = some (next, e₁)) (reply' : Option Reply) (subject : String)
    (l : List Moment) :
    (published subject (l ++ [⟨e, .work id⟩]) ++
        outstanding subject (e₁.setTask id ⟨next ++ rest, reply'⟩)).Perm
      (published subject l ++ outstanding subject e ++ next.filterMap (Job.handsOut? subject)) := by
  have hperm := (pending_advance hn ht h reply').filterMap (Job.handsOut? subject)
  have hspawned : (job.spawned e).flatten.filterMap (Job.handsOut? subject) = [] := by
    cases job <;> rfl
  have hdone : (job :: (e₁.setTask id ⟨next ++ rest, reply'⟩).pending).filterMap
      (Job.handsOut? subject) = (job.handsOut? subject).toList ++
        outstanding subject (e₁.setTask id ⟨next ++ rest, reply'⟩) := by
    rw [List.filterMap_cons]
    cases job.handsOut? subject <;> rfl
  rw [List.filterMap_append, List.filterMap_append, hspawned, List.append_nil, hdone] at hperm
  rw [published_snoc, published?_work ht, List.append_assoc, List.append_assoc]
  exact hperm.append_left (published subject l)

theorem endsOn_work (hn : e.Numbered) (ht : e.task? id = some ⟨job :: rest, reply⟩)
    (h : job.run s e = some (next, e₁)) (reply' : Option Reply) (subject run : String)
    (l : List Moment) :
    (endsOn subject run (l ++ [⟨e, .work id⟩]) (e₁.setTask id ⟨next ++ rest, reply'⟩)).Perm
      (endsOn subject run l e ++
        (next.filterMap (Job.handsOut? subject)).filter (Event.endsRun run)) := by
  have hledger := (ledger_work hn ht h reply' subject l).filter (Event.endsRun run)
  rw [List.filter_append (published subject l ++ _)] at hledger
  exact hledger

/-- What a deed that is no work of a task leaves as it was. -/
theorem endsOn_idle (hm : m.job? = none)
    (hpending : e'.pending.filterMap (Job.handsOut? subject) = outstanding subject e) :
    endsOn subject run (l ++ [m]) e' = endsOn subject run l e := by
  rw [endsOn, published_snoc, published?_idle hm, Option.toList_none, List.append_nil, outstanding,
    hpending, endsOn]

/-- A call hands out nothing by itself. -/
theorem handedOut_jobs (c : Call) (subject : String) :
    c.jobs.filterMap (Job.handsOut? subject) = [] := by
  refine handedOut_none (fun j hj recipient event heq => ?_) subject
  subst heq
  cases c with
  | send run m => cases m <;> cases List.mem_singleton.mp hj
  | pass =>
    simp only [Call.jobs, passing, List.mem_cons, List.not_mem_nil, or_false] at hj
    rcases hj with heq | heq | heq <;> cases heq
  | _ => cases List.mem_singleton.mp hj

/-- On the run itself these are the ends that were told or are about to be. -/
theorem endsOn_self (run : String) (l : List Moment) (e : Engine) :
    endsOn run run l e = ends run l e := by
  have hjob : ∀ j : Job, (j.handsOut? run).filter (Event.endsRun run) = j.endOf? run := by
    intro j
    cases j
    case deliver subject event =>
      by_cases hsubject : subject = run
      · cases hends : event.endsRun run <;>
          simp [handsOut?, endOf?, hsubject, hends, Option.filter]
      · simp [handsOut?, endOf?, hsubject]
    all_goals rfl
  rw [endsOn, List.filter_append, outstanding, List.filter_filterMap, ends, told, announcing]
  congr 2
  funext j
  exact hjob j

end Ledger

/-! ## Which project a run is settled for -/

/-- A run is settled for the project it was started for. -/
theorem Reached.settles_named {s : Settings} (hsandbox : s.around.IsSandboxed) (hs : NamesApart s)
    {l : List Moment} {e : Engine} (h : Reached s l e) {project run : String}
    (hsettle : .settle project run ∈ e.pending) : (project, run) ∈ e.started := by
  refine (h.keeps (P := fun e => (Orderly s e ∧ e.Duties) ∧
    ∀ project run, .settle project run ∈ e.pending → (project, run) ∈ e.started) ?_ ?_).2 _ _ hsettle
  · exact fun file source buffer busCapacity =>
      ⟨⟨orderly_fresh .., List.forall_mem_nil _⟩, fun _ _ hmem => nomatch hmem⟩
  · intro e d e' hn ⟨⟨ho, hd⟩, hold⟩ hafter
    refine ⟨⟨orderly_after hsandbox hs hn ho hafter, duties_after hn ho hd hafter⟩, ?_⟩
    intro project run hmem
    have hmore := started_after hn hafter
    cases after_cases hn hafter with
    | @worked id job rest next reply e₁ ht hrun =>
      rcases mem_pending_advance hn ht hrun hmem with hpending | hchore | hleads
      · exact hmore _ (hold project run hpending)
      · cases hchore
      · cases hleads with
        | settle => exact hmore _ ((hd _ (task_mem ht)).named (Or.inr rfl))
    | @asked c =>
      rcases List.mem_append.mp hmem with hmem | hmem
      · rcases mem_jobs hmem with haside | ⟨_, _, _, heq⟩ | ⟨_, heq⟩ | ⟨_, heq⟩
        · cases haside
        all_goals cases heq
      · exact hold project run hmem
    | still _ _ hstill =>
      rw [hstill.pending] at hmem
      exact hmore _ (hold project run hmem)

/-! ## The two subjects of a run -/

theorem Reached.enlisted {s : Settings} {l : List Moment} {e : Engine} (h : Reached s l e) :
    Enlisted s e := by
  obtain ⟨file, source, buffer, busCapacity, hruns⟩ := h
  exact hruns.roams.enlisted

/-- A job leaves the same ends of a run to announce on the run and on its project. -/
theorem ends_next {s : Settings} {e e₁ : Engine} {job : Job} {next : List Job}
    (h : job.run s e = some (next, e₁)) (ho : Orderly s e) (he : Enlisted s e)
    (hsettles : ∀ project run, job = .settle project run → (project, run) ∈ e.started)
    {project run : String} (hproject : ∀ project', (project', run) ∈ e.started → project' = project) :
    (next.filterMap (Job.handsOut? project)).filter (Event.endsRun run) =
      (next.filterMap (Job.handsOut? run)).filter (Event.endsRun run) := by
  by_cases hends : job = .stop run ∨ ∃ project', job = .settle project' run
  case neg =>
    have hnone : ∀ subject, (next.filterMap (Job.handsOut? subject)).filter (Event.endsRun run) =
        [] := by
      intro subject
      refine List.filter_eq_nil_iff.mpr fun event hmem hend => ?_
      obtain ⟨j, hj, hout⟩ := List.mem_filterMap.mp hmem
      cases j
      case deliver recipient event' =>
        rw [handsOut?] at hout
        split at hout
        · cases hout
          exact hends (deliver_ends h ho hj hend)
        · cases hout
      all_goals cases hout
    rw [hnone, hnone]
  case pos =>
    have hrow : ∀ subject, subject = run ∨ subject = project → ∀ event front back,
        front.filterMap (Job.handsOut? subject) = [] →
        back.filterMap (Job.handsOut? subject) = [] →
        (front ++ publishing project run event ++ back).filterMap (Job.handsOut? subject) =
          [event] := by
      intro subject hsubject event front back hfront hback
      rw [List.filterMap_append, List.filterMap_append, hfront, hback,
        handedOut_publishing event hsubject]
      rfl
    rcases hends with rfl | ⟨project', rfl⟩
    · cases run_cases h with
      | aside ha => cases ha
      | notStopped => rfl
      | stopped hf ha =>
        rw [hproject _ (he.known hf ha), hrow project (Or.inr rfl) _ _ _ rfl rfl,
          hrow run (Or.inl rfl) _ _ _ rfl rfl]
    · obtain rfl := hproject _ (hsettles project' run rfl)
      cases run_cases h with
      | aside ha => cases ha
      | settled hsettled =>
        cases hsettled with
        | gone => rfl
        | unknown => rfl
        | @known w old =>
          have hsignal : ∀ subject, (if old.isOwn then [Job.signal run] else []).filterMap
              (Job.handsOut? subject) = [] := by
            intro subject
            split <;> rfl
          cases hdue : dueAt old w (e.readClock s).1 with
          | none =>
            rw [Option.map_none, Option.getD_none, List.append_nil, List.filterMap_append,
              List.filterMap_append, hsignal, hsignal]
            rfl
          | some event =>
            rw [Option.map_some, Option.getD_some, hrow _ (Or.inr rfl) _ _ _ rfl (hsignal _),
              hrow _ (Or.inl rfl) _ _ _ rfl (hsignal _)]

/-- The ends of a run on a project are those on the run, if no other project ever started it. -/
theorem Reached.endsOn_perm {s : Settings} (hsandbox : s.around.IsSandboxed) (hs : NamesApart s)
    {l : List Moment} {e : Engine} (h : Reached s l e) {project run : String}
    (hproject : ∀ project', (project', run) ∈ e.started → project' = project) :
    (endsOn project run l e).Perm (ends run l e) := by
  rw [← endsOn_self]
  induction h using Reached.along with
  | start => exact .refl _
  | @snoc l e e' d hreached hd ih =>
    have hn := hreached.numbered
    have hmore := started_after hn hd
    have hbefore := ih fun project' hname' => hproject project' (hmore _ hname')
    cases after_cases hn hd with
    | @worked id job rest next reply e₁ ht hrun =>
      have hnext := ends_next hrun (hreached.orderly hsandbox hs) hreached.enlisted
        (fun project' run' hjob =>
          hreached.settles_named hsandbox hs (hjob ▸ mem_pending ht List.mem_cons_self))
        (fun project' hname' => hproject project' (hmore _ hname'))
      have hon := endsOn_work hn ht hrun (job.reply?.or reply) project run l
      have hself := endsOn_work hn ht hrun (job.reply?.or reply) run run l
      rw [hnext] at hon
      exact hon.trans ((hbefore.append_right _).trans hself.symm)
    | @asked c =>
      have hnone : ∀ subject, (e.ask c.jobs).pending.filterMap (Job.handsOut? subject) =
          outstanding subject e := by
        intro subject
        rw [pending_ask, List.filterMap_append, handedOut_jobs]
        rfl
      rw [endsOn_idle rfl (hnone project), endsOn_idle rfl (hnone run)]
      exact hbefore
    | still _ hwork hstill =>
      have hsame : ∀ subject, e'.pending.filterMap (Job.handsOut? subject) =
          outstanding subject e := by
        intro subject
        rw [hstill.pending]
        rfl
      rw [endsOn_idle (job?_of_ne hwork) (hsame project),
        endsOn_idle (job?_of_ne hwork) (hsame run)]
      exact hbefore

/-- **The ends of a run on its project are those on the run**, counting what is left to publish. -/
theorem Reached.ends_alike {s : Settings} (hsandbox : s.around.IsSandboxed) (hs : NamesApart s)
    {l : List Moment} {e : Engine} (h : Reached s l e) {project run : String}
    (hname : (project, run) ∈ e.started) : (endsOn project run l e).Perm (ends run l e) :=
  h.endsOn_perm hsandbox hs fun _ hname' =>
    (h.orderly hsandbox hs).project_unique hs hname' hname

/-- No end of a run that was not started is announced on any subject. -/
theorem Reached.endsOn_unborn {s : Settings} (hsandbox : s.around.IsSandboxed) (hs : NamesApart s)
    {l : List Moment} {e : Engine} (h : Reached s l e) {run : String} (hnot : ¬ e.Named run)
    (subject : String) : endsOn subject run l e = [] := by
  have hperm : (endsOn subject run l e).Perm (ends run l e) :=
    h.endsOn_perm hsandbox hs fun project' hname => absurd ⟨project', hname⟩ hnot
  have hends : ends run l e = [] := by
    cases h.standing hsandbox hs run with
    | unborn _ _ _ hends => exact hends
    | active hname => exact absurd hname hnot
    | stopped hname => exact absurd hname hnot
    | ended hname => exact absurd hname hnot
    | relapsed hname => exact absurd hname hnot
  rw [hends] at hperm
  exact hperm.eq_nil

/-! ## On its way -/

/-- A call stops a run that is active. -/
def Moment.Stops (run : String) (m : Moment) : Prop :=
  m.job? = some (.stop run) ∧
    ∃ h, m.before.table.find? run = some h ∧ h.record.status.isActive = true

/-- **A run on its way has no end yet**, unless it was stopped by a call. -/
theorem Reached.unended {s : Settings} (hsandbox : s.around.IsSandboxed) (hs : NamesApart s)
    {l : List Moment} {e : Engine} (h : Reached s l e) {run : String}
    (hnone : ∀ m ∈ l, ¬ m.Stops run) (hw : (e.walks.find? run).isSome = true) :
    ends run l e = [] := by
  induction h using Reached.along with
  | start => cases hw
  | @snoc l e e' d hreached hd ih =>
    have hn := hreached.numbered
    have ho := hreached.orderly hsandbox hs
    obtain ⟨hbefore, hnow⟩ := List.forall_mem_append.mp hnone
    cases after_cases hn hd with
    | @worked id job rest next reply e₁ ht hrun =>
      change (e₁.walks.find? run).isSome = true at hw
      have hold : ends run l e = [] := by
        cases hwalk : e.walks.find? run with
        | some w =>
          rw [hwalk] at ih
          exact ih hbefore rfl
        | none =>
          -- it was enlisted just now, so nothing was said of it before
          obtain ⟨w, hw⟩ := Option.isSome_iff_exists.mp hw
          rcases walk_from hrun hw with ⟨_, hwalk', -⟩ | ⟨project, _, _, -, rfl, -⟩
          · cases hwalk.symm.trans hwalk'
          · rw [← endsOn_self]
            exact hreached.endsOn_unborn hsandbox hs (ho.newRun_fresh hs project) _
      have hsilent : announcing run next = [] := by
        by_cases hstop : job = .stop run
        · subst hstop
          cases run_cases hrun with
          | aside ha => cases ha
          | notStopped => rfl
          | stopped hf ha => exact absurd ⟨job?_work ht, _, hf, ha⟩ (hnow _ List.mem_cons_self)
        · refine run_silent hrun ho hstop fun project hsettle => ?_
          subst hsettle
          rw [walk_settled hrun] at hw
          cases hw
      have hperm := ends_work hn ht hrun (job.reply?.or reply) run l
      rw [hold, hsilent] at hperm
      exact hperm.eq_nil
    | @asked c =>
      have hsame : ends run (l ++ [⟨e, .ask c⟩]) (e.ask c.jobs) = ends run l e := by
        rw [ends, ends, told_idle rfl, pending_ask, announcing_append, announcing_jobs]
        rfl
      rw [hsame]
      exact ih hbefore hw
    | still _ hwork hstill =>
      have hsame : ends run (l ++ [⟨e, d⟩]) e' = ends run l e := by
        rw [ends, ends, told_idle (job?_of_ne hwork), hstill.pending]
      rw [hsame]
      exact ih hbefore (hstill.walks ▸ hw)

/-! ## After its walk -/

/-- The walk of a run that is gone does not come back. -/
theorem walk_gone {s : Settings} (hs : NamesApart s) {e e' : Engine} (hn : e.Numbered)
    (ho : Orderly s e) {d : Deed} (hd : e.after s d = some e') {run : String} (hname : e.Named run)
    (hgone : e.walks.find? run = none) : e'.walks.find? run = none := by
  cases after_cases hn hd with
  | worked _ hrun =>
    refine walk_absent hrun hgone ?_
    rintro project _ _ - rfl
    exact ho.newRun_fresh hs project hname
  | asked => exact hgone
  | still _ _ hstill =>
    rw [hstill.walks]
    exact hgone

/-- **After its walk a run has no more ends**: as many were announced, or were about to be. -/
theorem Reached.ends_over {s : Settings} (hsandbox : s.around.IsSandboxed) (hs : NamesApart s)
    {l l' : List Moment} {e e' : Engine} (h : Reached s l e) (h' : Runs s e l' e') {run : String}
    (hname : e.Named run) (hgone : e.walks.find? run = none) :
    e'.Named run ∧ e'.walks.find? run = none ∧
      (ends run (l ++ l') e').length = (ends run l e).length := by
  induction h' with
  | nil =>
    rw [List.append_nil]
    exact ⟨hname, hgone, rfl⟩
  | @snoc l' e₁ e₂ d hr hd ih =>
    obtain ⟨hname₁, hgone₁, hlength⟩ := ih
    have hreached := h.trans hr
    have hreached₂ := hreached.trans (.one hd)
    have hname₂ := named_after hreached.numbered hd hname₁
    have hgone₂ := walk_gone hs hreached.numbered (hreached.orderly hsandbox hs) hd hname₁ hgone₁
    refine ⟨hname₂, hgone₂, ?_⟩
    rw [← List.append_assoc, ← hlength]
    -- without a walk there is no relapse, so it ended as often as before
    have hcalm : ¬ (⟨e₁, d⟩ : Moment).IsRelapse run := by
      rintro ⟨_, w, _, -, hw, -⟩
      cases hgone₁.symm.trans hw
    cases hreached.standing hsandbox hs run with
    | unborn hnot => exact absurd hname₁ hnot
    | active _ hw => cases hgone₁.symm.trans hw
    | stopped _ hw => cases hgone₁.symm.trans hw
    | ended _ _ _ hone hnone =>
      cases hreached₂.standing hsandbox hs run with
      | unborn hnot => exact absurd hname₂ hnot
      | active _ hw => cases hgone₂.symm.trans hw
      | stopped _ hw => cases hgone₂.symm.trans hw
      | ended _ _ _ hone' => rw [hone, hone']
      | relapsed _ _ _ _ hrelapse =>
        obtain ⟨m, hm, hrelapse⟩ := hrelapse
        exact absurd hrelapse (none_snoc hnone hcalm m hm)
    | relapsed _ _ _ htwo hrelapse =>
      cases hreached₂.standing hsandbox hs run with
      | unborn hnot => exact absurd hname₂ hnot
      | active _ hw => cases hgone₂.symm.trans hw
      | stopped _ hw => cases hgone₂.symm.trans hw
      | ended _ _ _ _ hnone =>
        obtain ⟨m, hm, hrelapse⟩ := hrelapse
        exact absurd hrelapse (hnone m (List.mem_append_left _ hm))
      | relapsed _ _ _ htwo' => rw [htwo.length_eq, htwo'.length_eq]

/-- Once the walk of a run is gone and all its ends are published on its project, none is published
there any more. -/
theorem Reached.silent_after {s : Settings} (hsandbox : s.around.IsSandboxed) (hs : NamesApart s)
    {l l' : List Moment} {e e' : Engine} (h : Reached s l e) (h' : Runs s e l' e')
    {project run : String} (hname : (project, run) ∈ e.started)
    (hgone : e.walks.find? run = none)
    (hdone : ∀ event ∈ outstanding project e, event.endsRun run = false) :
    ∀ event ∈ published project l', event.endsRun run = false := by
  obtain ⟨⟨project', hname'⟩, -, hlength⟩ := h.ends_over hsandbox hs h' ⟨project, hname⟩ hgone
  have hreached' := h.trans h'
  have hmore : (project, run) ∈ e'.started :=
    h'.keeps (P := fun e => e.Numbered ∧ (project, run) ∈ e.started)
      (fun _ _ _ ⟨hn, hmem⟩ hd => ⟨after_numbered hn hd, started_after hn hd _ hmem⟩)
      ⟨h.numbered, hname⟩ |>.2
  have hbefore := (h.ends_alike hsandbox hs hname).length_eq
  have hafter := (hreached'.ends_alike hsandbox hs hmore).length_eq
  have hnothing : (outstanding project e).filter (Event.endsRun run) = [] :=
    List.filter_eq_nil_iff.mpr fun event hmem => by simp [hdone event hmem]
  rw [endsOn, List.filter_append, hnothing, List.append_nil] at hbefore
  rw [endsOn, published_append, List.filter_append, List.filter_append, List.length_append,
    List.length_append] at hafter
  have hnone : ((published project l').filter (Event.endsRun run)).length = 0 := by omega
  intro event hmem
  have hnot := List.filter_eq_nil_iff.mp (List.length_eq_zero_iff.mp hnone) event hmem
  exact Bool.eq_false_iff.mpr hnot

end Workflow.Engine
