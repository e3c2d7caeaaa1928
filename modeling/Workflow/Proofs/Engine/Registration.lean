import Workflow.Proofs.Engine.Listening

/-!
# From the greeting to the registration

Who watches a subject is told first where that stands. That is found out at one time, and the
watcher is registered at another; between the two all other tasks go on. From its registration on a
watcher gets everything, in order, as long as its queue has room (`Reached.registered`); but what is
published before that, after it was found out what to tell it, it neither gets nor is told. So it
gets all that is published after the look-up if and only if nothing is published on its subject
between the two, and it may go on waiting for the end of a run that is over
(`Reached.registered_late`).
-/

namespace Workflow.Engine

open Engine.Job

/-! ## What a watcher is told first -/

/-- A greeting does not say that a run is over. -/
theorem isTerminal_greeting (t : RunTable) (subject : String) :
    ∀ event ∈ t.greeting subject, event.isTerminal = false := by
  intro event hevent
  rw [RunTable.greeting] at hevent
  split at hevent
  · rcases List.mem_cons.mp hevent with rfl | hmem
    · rfl
    · split at hmem
      · obtain rfl := List.mem_singleton.mp hmem
        rfl
      · cases hmem
  · obtain rfl := List.mem_singleton.mp hevent
    rfl

/-- A greeting announces no end. -/
theorem endsRun_greeting (t : RunTable) (subject run : String) :
    ∀ event ∈ t.greeting subject, event.endsRun run = false := by
  intro event hevent
  exact Event.endsRun_of_isTerminal (isTerminal_greeting t subject event hevent) run

/-- Who was greeted hears of the end of a run if and only if that is published after. -/
theorem hears_end_iff {run : String} {greeting : List Event} {l : List Moment}
    (hquiet : ∀ event ∈ greeting, event.endsRun run = false) :
    (∃ envelope ∈ (greeting ++ published run l).map (Envelope.mk run),
      envelope.event.endsRun run = true) ↔ told run l ≠ [] := by
  constructor
  · rintro ⟨_, hmem, hends⟩
    obtain ⟨event, hevent, rfl⟩ := List.mem_map.mp hmem
    rcases List.mem_append.mp hevent with hgreeting | hpublished
    · exact nomatch hends.symm.trans (hquiet event hgreeting)
    · exact List.ne_nil_of_mem (List.mem_filter.mpr ⟨hpublished, hends⟩)
  · intro hsome
    obtain ⟨event, hmem⟩ := List.exists_mem_of_ne_nil _ hsome
    obtain ⟨hmem, hends⟩ := List.mem_filter.mp hmem
    exact ⟨⟨run, event⟩, List.mem_map.mpr ⟨event, List.mem_append_right _ hmem, rfl⟩, hends⟩

/-- **Looked up**: what is told about a subject was looked up by a task, at a time. -/
def LookedUp (task : Nat) (subject : String) (greeting : List Event) (l : List Moment) : Prop :=
  ∃ (l₀ : List Moment) (m₀ : Moment) (l₁ : List Moment), l = l₀ ++ m₀ :: l₁ ∧
    m₀.deed = .work task ∧ m₀.job? = some (.greet subject) ∧
    greeting = m₀.before.table.greeting subject

theorem LookedUp.snoc {task : Nat} {subject : String} {greeting : List Event} {l : List Moment}
    (h : LookedUp task subject greeting l) (m : Moment) :
    LookedUp task subject greeting (l ++ [m]) := by
  obtain ⟨l₀, m₀, l₁, rfl, hrest⟩ := h
  exact ⟨l₀, m₀, l₁ ++ [m], List.append_assoc .., hrest⟩

/-- **Greeted**: what a watcher that a task is about to register will be told was looked up by that
task. -/
def Greeted (l : List Moment) (e : Engine) : Prop :=
  ∀ x ∈ e.tasks, ∀ subject greeting, .subscribe subject greeting ∈ x.2.left →
    LookedUp x.1 subject greeting l

section Greeting

variable {s : Settings} {e e' : Engine} {l : List Moment}

theorem Greeted.after (hg : Greeted l e) (hn : e.Numbered) {d : Deed} (hd : e.after s d = some e') :
    Greeted (l ++ [⟨e, d⟩]) e' := by
  intro x hx subject greeting hmem
  cases after_cases hn hd with
  | @worked id job rest next reply e₁ ht hrun =>
    rcases mem_tasks_advance hrun hx with rfl | hold | hspawned
    · rcases List.mem_append.mp hmem with hnew | hrest
      · cases attends_next hrun (Or.inl hnew) rfl
        exact ⟨l, _, [], rfl, rfl, job?_work ht, rfl⟩
      · exact (hg _ (task_mem ht) subject greeting (List.mem_cons_of_mem job hrest)).snoc _
    · exact (hg x hold subject greeting hmem).snoc _
    -- no task is started with a registration
    · have hattends := attends_next hrun (Or.inr (List.mem_flatten.mpr ⟨_, hspawned, hmem⟩)) rfl
      cases hattends
      cases hspawned
  | @asked c =>
    rcases List.mem_cons.mp hx with rfl | hold
    · cases jobs_attends c _ hmem
    · exact (hg x hold subject greeting hmem).snoc _
  | still _ _ hstill => exact (hg x (hstill.tasks x hx) subject greeting hmem).snoc _

theorem Reached.greeted (h : Reached s l e) : Greeted l e := by
  induction h using Reached.along with
  | start => exact fun _ hx => nomatch hx
  | snoc hreached hd ih =>
    exact ih.after hreached.numbered hd

/-- What a watcher that is registered is told was looked up by its task before. -/
theorem Reached.looked_up {l₂ : List Moment} {m : Moment} (h : Reached s (l ++ m :: l₂) e)
    {subject : String} {greeting : List Event}
    (hjob : m.job? = some (.subscribe subject greeting)) :
    ∃ task, m.deed = .work task ∧ LookedUp task subject greeting l := by
  have hgreeted := h.upTo.greeted
  obtain ⟨e₀, d⟩ := m
  cases d
  case work task =>
    obtain ⟨⟨left, reply⟩, ht, hhead⟩ := Option.bind_eq_some_iff.mp hjob
    exact ⟨task, rfl, hgreeted _ (task_mem ht) subject greeting (List.mem_of_head? hhead)⟩
  all_goals cases hjob

/-- **A watcher that is registered** was greeted by its task before, and gets its greeting and all
that is published from then on, if it stays and its queue has room. -/
theorem Reached.registered {l₂ : List Moment} {m : Moment} (h : Reached s (l ++ m :: l₂) e)
    {subject : String} {greeting : List Event} (hjob : m.job? = some (.subscribe subject greeting))
    (hstay : ∀ m' ∈ l₂, m'.deed ≠ .leave m.before.broadcaster.nextId)
    (hroom : ∀ m' ∈ l₂, ¬ m'.Overflows subject m.before.broadcaster.nextId) :
    ∃ task, m.deed = .work task ∧ LookedUp task subject greeting l ∧
      got m.before.broadcaster.nextId l₂ e =
        (greeting ++ published subject l₂).map (⟨subject, ·⟩) := by
  obtain ⟨task, hdeed, hlooked⟩ := h.looked_up hjob
  have hgot := h.got_eq hjob hstay
  obtain ⟨e₁, hregistered, hback, hattending⟩ := h.subscribed hjob
  rw [hattending.arrived_eq hregistered hback hstay hroom] at hgot
  exact ⟨task, hdeed, hlooked, hgot⟩

/-- **A run that was on its way and is over by now has been announced to be over**, and not before
it was seen on its way. -/
theorem Reached.told_between (hsandbox : s.around.IsSandboxed) (hs : NamesApart s)
    {l₀ l₁ : List Moment} {m₀ : Moment} (h : Reached s (l₀ ++ m₀ :: l₁) e) {run : String}
    {handle : Handle} (hf : m₀.before.table.find? run = some handle)
    (ha : handle.record.status.isActive = true)
    (hover : ∀ h', e.table.find? run = some h' → h'.record.status.isActive = false)
    (hdone : announcing run e.pending = []) :
    told run l₀ = [] ∧ told run (m₀ :: l₁) ≠ [] := by
  have hmem : m₀ ∈ l₀ ++ m₀ :: l₁ := List.mem_append_right _ List.mem_cons_self
  obtain ⟨hnamed, hnone⟩ : m₀.before.Named run ∧ ends run l₀ m₀.before = [] := by
    cases h.upTo.standing hsandbox hs run with
    | active hnamed _ _ _ hends => exact ⟨hnamed, hends⟩
    | unborn _ _ hidle => exact nomatch ha.symm.trans (hidle handle hf)
    | ended _ _ hidle => exact nomatch ha.symm.trans (hidle handle hf)
    | stopped _ _ hstopped =>
      rw [hstopped handle hf] at ha
      cases ha
    | relapsed _ _ herror =>
      rw [herror handle hf] at ha
      cases ha
  have hsilent := (List.append_eq_nil_iff.mp hnone).1
  refine ⟨hsilent, fun hnever => ?_⟩
  have htold : told run (l₀ ++ m₀ :: l₁) = [] := by
    rw [told, published_append, List.filter_append]
    exact List.append_eq_nil_iff.mpr ⟨hsilent, hnever⟩
  have hends : ends run (l₀ ++ m₀ :: l₁) e = [] := by rw [ends, htold, hdone, List.append_nil]
  have hnamed' : e.Named run := by
    obtain ⟨project, hstarted⟩ := hnamed
    exact ⟨project, (h.before hmem).2 _ hstarted⟩
  cases h.standing hsandbox hs run with
  | unborn hnot => exact hnot hnamed'
  | active _ _ hf' ha' => exact nomatch ha'.symm.trans (hover _ hf')
  | stopped _ _ _ hone => cases hends.symm.trans hone
  | ended _ _ _ hone =>
    rw [hends] at hone
    cases hone
  | relapsed _ _ _ htwo =>
    rw [hends] at htwo
    cases htwo.length_eq

end Greeting

/-- **Who is registered late misses what was published meanwhile.** Whatever tasks do and in
whatever order: what a watcher that is registered on a subject is told first was looked up by its
task at some time before. From the registration on it gets all that is published on the subject, in
order, if it stays and its queue has room. So it gets all that is published since the look-up if and
only if nothing was between the look-up and the registration.

A watcher that was told that a run is on its way is told of its end only if that is published after
the registration, though the run, when it is over and all is published, has been announced to be
over since the look-up. -/
theorem Reached.registered_late {s : Settings} (hsandbox : s.around.IsSandboxed)
    (hs : NamesApart s) {l l₂ : List Moment} {m : Moment} {e : Engine}
    (h : Reached s (l ++ m :: l₂) e) {subject : String} {greeting : List Event}
    (hjob : m.job? = some (.subscribe subject greeting))
    (hstay : ∀ m' ∈ l₂, m'.deed ≠ .leave m.before.broadcaster.nextId)
    (hroom : ∀ m' ∈ l₂, ¬ m'.Overflows subject m.before.broadcaster.nextId) :
    ∃ (l₀ : List Moment) (m₀ : Moment) (l₁ : List Moment), l = l₀ ++ m₀ :: l₁ ∧
      m₀.deed = m.deed ∧ m₀.job? = some (.greet subject) ∧
      greeting = m₀.before.table.greeting subject ∧
      got m.before.broadcaster.nextId l₂ e =
        (greeting ++ published subject l₂).map (⟨subject, ·⟩) ∧
      (got m.before.broadcaster.nextId l₂ e =
          (greeting ++ published subject (m₀ :: l₁ ++ m :: l₂)).map (⟨subject, ·⟩) ↔
        published subject l₁ = []) ∧
      ∀ status, .currentStatus (some subject) (some status) ∈ greeting → status.isActive = true →
        (∀ h', e.table.find? subject = some h' → h'.record.status.isActive = false) →
        announcing subject e.pending = [] →
        told subject l₀ = [] ∧ told subject (m₀ :: l₁ ++ m :: l₂) ≠ [] ∧
          ((∃ envelope ∈ got m.before.broadcaster.nextId l₂ e,
            envelope.event.endsRun subject = true) ↔ told subject l₂ ≠ []) := by
  obtain ⟨task, hdeed, ⟨l₀, m₀, l₁, rfl, hsame, hgreet, hgreeting⟩, hgot⟩ :=
    h.registered hjob hstay hroom
  refine ⟨l₀, m₀, l₁, rfl, hsame.trans hdeed.symm, hgreet, hgreeting, hgot, ?_, ?_⟩
  · have hsilent : m₀.published? subject = none := by rw [Moment.published?, hgreet]
    have hsilent' : m.published? subject = none := by rw [Moment.published?, hjob]
    have hsince : published subject (m₀ :: l₁ ++ m :: l₂) =
        published subject l₁ ++ published subject l₂ := by
      rw [published_append, published, List.filterMap_cons_none hsilent, published,
        List.filterMap_cons_none hsilent']
      rfl
    rw [hgot, hsince]
    refine ⟨fun heq => ?_, fun hnone => by rw [hnone, List.nil_append]⟩
    have hlength := congrArg List.length heq
    simp only [List.length_map, List.length_append] at hlength
    exact List.length_eq_zero_iff.mp (by omega)
  · intro status hmem hactive hover hdone
    rw [List.append_assoc] at h
    have htidy := (h.upTo.orderly hsandbox hs).single.tidy
    obtain ⟨handle, hf, rfl⟩ := htidy.find?_of_greeting (hgreeting ▸ hmem)
    obtain ⟨hbefore, hsince⟩ := h.told_between hsandbox hs hf hactive hover hdone
    refine ⟨hbefore, hsince, ?_⟩
    rw [hgot]
    refine hears_end_iff fun event hevent => ?_
    rw [hgreeting] at hevent
    exact endsRun_greeting _ _ _ event hevent

/-- A course to the registration of a watcher that was told that a run is on its way: the run has
broken down since, and all watchers of it have been told so. -/
def towardsRegistration : List Deed :=
  .ask trialStart :: works 0 14 ++ [.ask (.watch "#:p"), .work 3] ++ works 2 2 ++ works 1 20

theorem towardsRegistration_spec :
    ∃ l e e' handle, (fresh .absent none 8 8).replay trial towardsRegistration = some (l, e) ∧
      e.nextJob? 3 = some (.subscribe "#:p"
        [.currentStatus (some "#:p") (some .running), .executionState "#:p" none {}]) ∧
      e.broadcaster.nextId = 1 ∧ e.after trial (.work 3) = some e' ∧
      e'.table.find? "#:p" = some handle ∧ handle.record.status = .error ∧
      announcing "#:p" e'.pending = [] := by
  have hsome : ((fresh .absent none 8 8).replay trial towardsRegistration).isSome = true := rfl
  have hafter : ((Option.get _ hsome).2.after trial (.work 3)).isSome = true := rfl
  have hf : ((Option.get _ hafter).table.find? "#:p").isSome = true := rfl
  exact ⟨_, _, _, _, (Option.some_get hsome).symm, rfl, rfl, (Option.some_get hafter).symm,
    (Option.some_get hf).symm, rfl, rfl⟩

/-- The watcher that is registered then is told that the run is on its way, and never that it is
over, though it was announced to be over in between. -/
theorem registered_after_breakdown :
    ∃ l m l₂ e, Reached trial (l ++ m :: l₂) e ∧
      m.job? = some (.subscribe "#:p"
        [.currentStatus (some "#:p") (some .running), .executionState "#:p" none {}]) ∧
      got 1 l₂ e = [⟨"#:p", .currentStatus (some "#:p") (some .running)⟩,
        ⟨"#:p", .executionState "#:p" none {}⟩] ∧
      ∃ l₀ m₀ l₁, l = l₀ ++ m₀ :: l₁ ∧ m₀.job? = some (.greet "#:p") ∧ told "#:p" l₀ = [] ∧
        told "#:p" (m₀ :: l₁ ++ m :: l₂) ≠ [] ∧
        ¬ ∃ envelope ∈ got 1 l₂ e, envelope.event.endsRun "#:p" = true := by
  obtain ⟨l, e, e', handle, hreplay, hjob, hnext, hafter, hf, herror, hdone⟩ :=
    towardsRegistration_spec
  have hread : e'.after trial (.read 1) = some _ := rfl
  have hreached : Reached trial (l ++ ⟨e, .work 3⟩ :: [⟨e', .read 1⟩]) _ :=
    ⟨_, _, _, _, List.append_assoc l _ _ ▸ ((replay_runs hreplay).snoc hafter).snoc hread⟩
  obtain ⟨l₀, m₀, l₁, hl, -, hgreet, -, hgot, -, hend⟩ :=
    hreached.registered_late trial_isSandboxed trial_namesApart hjob
      (fun m' hm' => by
        obtain rfl := List.mem_singleton.mp hm'
        exact nofun)
      (fun m' hm' => by
        obtain rfl := List.mem_singleton.mp hm'
        rintro ⟨hpublished, -⟩
        cases hpublished)
  obtain ⟨hbefore, hsince, hheard⟩ := hend .running List.mem_cons_self rfl
    (fun h' hf' => by
      obtain rfl := Option.some.inj (hf.symm.trans hf')
      rw [herror]
      rfl)
    hdone
  change got e.broadcaster.nextId _ _ = _ at hgot
  change (∃ envelope ∈ got e.broadcaster.nextId _ _, _) ↔ _ at hheard
  rw [hnext] at hgot hheard
  exact ⟨l, _, _, _, hreached, hjob, hgot, l₀, m₀, l₁, hl, hgreet, hbefore, hsince,
    fun hex => hheard.mp hex rfl⟩

end Workflow.Engine
