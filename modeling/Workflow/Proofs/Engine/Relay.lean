import Workflow.Proofs.Engine.Service

/-!
# What is published of a run

A run tells its events one by one into a queue. The task that serves it takes them out,
notes and saves what they change, and publishes each of them, on the project of the run and
on the run itself, while other tasks stop the run, forget it or start further ones.

So every event that was told is in one of three places: it was published (`relayed`), its
publication is left to do in the task that serves the run (`underway`), or it is still in the
queue (`unseen`). Here is what a job does to each of them, and that what is published, the
ends of runs left out, is relayed for one run each (`Duties.relayed`).
-/

namespace Workflow.Engine

open Engine.Job

/-! ## Events on their way -/

/-- The event that a job hands to the watchers of a subject. -/
def Job.handsOut? (subject : String) : Job → Option Event
  | deliver recipient event => if recipient = subject then some event else none
  | _ => none

/-- What a job hands out for a run, if that is served behind it. -/
def Job.relay? (run subject : String) (job : Job) (rest : List Job) : Option Event :=
  if rest.any (Job.serves run) then job.handsOut? subject else none

/-- What some jobs hand out for a run, in order. -/
def relaying (run subject : String) : List Job → List Event
  | [] => []
  | job :: rest => (job.relay? run subject rest).toList ++ relaying run subject rest

/-- What was handed out for a run at a moment. -/
def Moment.relayed? (run subject : String) (m : Moment) : Option Event :=
  match m.deed with
  | .work id =>
    match (m.before.task? id).map (·.left) with
    | some (job :: rest) => job.relay? run subject rest
    | _ => none
  | _ => none

/-- All that was published for a run on a subject, in order. -/
def relayed (run subject : String) (l : List Moment) : List Event :=
  l.filterMap (Moment.relayed? run subject)

/-- What tasks have left to publish for a run on a subject. -/
def underway (run subject : String) (e : Engine) : List Event :=
  e.tasks.flatMap fun (_, t) => relaying run subject t.left

/-- What a run has told and its driver has not seen, in order. -/
def unseen (run : String) (e : Engine) : List Event :=
  ((e.walks.find? run).map (·.told)).getD []

/-- What a run tells when a job is done: the event of the step that it goes. -/
def Job.tells? (s : Settings) (e : Engine) (run : String) : Job → Option Event
  | walk id =>
    if id = run then
      ((e.walks.find? run).bind fun w => w.run.step (s.around.forRun run) e.now).bind Prod.fst
    else none
  | _ => none

/-- What a run told at a moment. -/
def Moment.emitted? (s : Settings) (run : String) (m : Moment) : Option Event :=
  m.job?.bind (Job.tells? s m.before run)

/-- All that the interpreter of a run told, in order. -/
def emitted (s : Settings) (run : String) (l : List Moment) : List Event :=
  l.filterMap (Moment.emitted? s run)

/-! ## Moments -/

section Moments

variable {e : Engine} {id : Nat} {job : Job} {rest : List Job} {reply : Option Reply}

theorem relayed_snoc (run subject : String) (l : List Moment) (m : Moment) :
    relayed run subject (l ++ [m]) =
      relayed run subject l ++ (m.relayed? run subject).toList := by
  rw [relayed, List.filterMap_append]
  cases hm : m.relayed? run subject <;> simp [relayed, hm]

theorem emitted_snoc (s : Settings) (run : String) (l : List Moment) (m : Moment) :
    emitted s run (l ++ [m]) = emitted s run l ++ (m.emitted? s run).toList := by
  rw [emitted, List.filterMap_append]
  cases hm : m.emitted? s run <;> simp [emitted, hm]

theorem relayed?_work (ht : e.task? id = some ⟨job :: rest, reply⟩) (run subject : String) :
    (⟨e, .work id⟩ : Moment).relayed? run subject = job.relay? run subject rest := by
  rw [Moment.relayed?]
  dsimp only
  rw [ht]
  rfl

theorem emitted?_work (ht : e.task? id = some ⟨job :: rest, reply⟩) (s : Settings) (run : String) :
    (⟨e, .work id⟩ : Moment).emitted? s run = job.tells? s e run := by
  rw [Moment.emitted?, job?_work ht]
  rfl

/-- A deed that is no work of a task publishes nothing, and no run tells anything. -/
theorem relayed?_idle {d : Deed} (hd : ∀ id, d ≠ .work id) (run subject : String) :
    (⟨e, d⟩ : Moment).relayed? run subject = none := by
  cases d
  case work id => exact absurd rfl (hd id)
  all_goals rfl

theorem emitted?_idle {d : Deed} (hd : ∀ id, d ≠ .work id) (s : Settings) (run : String) :
    (⟨e, d⟩ : Moment).emitted? s run = none := by
  rw [Moment.emitted?, job?_of_ne hd]
  rfl

end Moments

/-! ## Publications that are left to do -/

/-- Without a service nothing is relayed. -/
theorem relay?_none {run : String} {rest : List Job} (h : ∀ j ∈ rest, j.serves run = false)
    (subject : String) (job : Job) : job.relay? run subject rest = none := by
  rw [relay?, any_none.mpr h]
  rfl

theorem relaying_none {run : String} {jobs : List Job} (h : ∀ j ∈ jobs, j.serves run = false)
    (subject : String) : relaying run subject jobs = [] := by
  induction jobs with
  | nil => rfl
  | cons job rest ih =>
    obtain ⟨-, hrest⟩ := List.forall_mem_cons.mp h
    rw [relaying, relay?_none hrest, ih hrest]
    rfl

/-- Before a service all that is handed out is relayed. -/
theorem relaying_append {run : String} {rest : List Job} (h : rest.any (Job.serves run) = true)
    (subject : String) (front : List Job) :
    relaying run subject (front ++ rest) =
      front.filterMap (Job.handsOut? subject) ++ relaying run subject rest := by
  induction front with
  | nil => rfl
  | cons job front ih =>
    have hserved : (front ++ rest).any (Job.serves run) = true := by
      rw [List.any_append, h, Bool.or_true]
    rw [List.cons_append, relaying, relay?, hserved, if_pos rfl, ih, List.filterMap_cons,
      ← List.append_assoc]
    cases job.handsOut? subject <;> rfl

/-- What is left to relay in a task that serves a run. -/
theorem relaying_courier {project run : String} {server : Job} {back : List Job}
    (hserver : server = .launch project run ∨ server = .drive project run)
    (hback : ∀ j ∈ back, j.serves run = false) (subject : String) (front : List Job) :
    relaying run subject (front ++ server :: back) = front.filterMap (Job.handsOut? subject) := by
  have hserves : (server :: back).any (Job.serves run) = true := by
    rcases hserver with rfl | rfl <;> simp [Job.serves]
  rw [relaying_append hserves, relaying, relay?_none hback, relaying_none hback]
  exact List.append_nil _

theorem relaying_server {project run : String} {server : Job} {back : List Job}
    (hserver : server = .launch project run ∨ server = .drive project run)
    (hback : ∀ j ∈ back, j.serves run = false) (subject : String) :
    relaying run subject (server :: back) = [] :=
  relaying_courier hserver hback subject []

theorem handsOut?_none {j : Job} (h : ∀ subject event, j ≠ .deliver subject event)
    (subject : String) : j.handsOut? subject = none := by
  cases j
  case deliver recipient event => exact absurd rfl (h recipient event)
  all_goals rfl

theorem handedOut_none {jobs : List Job}
    (h : ∀ j ∈ jobs, ∀ subject event, j ≠ .deliver subject event) (subject : String) :
    jobs.filterMap (Job.handsOut? subject) = [] :=
  List.filterMap_eq_nil_iff.mpr fun j hj => handsOut?_none (h j hj) subject

/-- An event is handed out once to the watchers of a run, and once to those of its project. -/
theorem handedOut_publishing {project run subject : String} (event : Event)
    (h : subject = run ∨ subject = project) :
    (publishing project run event).filterMap (Job.handsOut? subject) = [event] := by
  unfold publishing
  split
  · next heq =>
    obtain rfl : run = subject := by
      rcases h with rfl | rfl
      · rfl
      · exact heq.symm
    simp [handsOut?]
  · next hne =>
    rcases h with rfl | rfl
    · simp [List.filterMap_cons, handsOut?, hne]
    · simp [List.filterMap_cons, handsOut?, Ne.symm hne]

/-- What is published when a run is enlisted is that it was started. -/
theorem relaying_enrolling (s : Settings) (e : Engine) (project : String) (definition : Definition)
    (vars : Vars) {rest : List Job} (hrest : ∀ j ∈ rest, j.serves (e.newRun s project) = false)
    {subject : String} (h : subject = e.newRun s project ∨ subject = project) :
    relaying (e.newRun s project) subject (e.enrolling s project definition vars ++ rest) =
      [.runStarted (e.newRun s project)] := by
  have hback : ∀ j ∈ Job.endStart :: .answer (.record (e.newRecord s project definition vars)) ::
      rest, j.serves (e.newRun s project) = false :=
    List.forall_mem_cons.mpr ⟨rfl, List.forall_mem_cons.mpr ⟨rfl, hrest⟩⟩
  have hjournal : (if s.journalLevel.isSome then [Job.keepJournal (e.newRun s project)]
      else []).filterMap (Job.handsOut? subject) = [] := by
    split <;> rfl
  have hsaving : saving.filterMap (Job.handsOut? subject) = [] := rfl
  rw [enrolling, List.append_assoc]
  refine (relaying_courier (Or.inl rfl) hback subject _).trans ?_
  rw [List.filterMap_append, List.filterMap_append, hsaving, hjournal, handedOut_publishing _ h]
  rfl

/-! ## What was told and not seen -/

section Unseen

variable {s : Settings} {e e₁ : Engine} {job : Job} {next : List Job} {run : String}

theorem unseen_eq {w : Walk} (hw : e.walks.find? run = some w) : e.unseen run = w.told := by
  rw [unseen, hw]
  rfl

theorem unseen_congr {e' : Engine} (h : e'.walks.find? run = e.walks.find? run) :
    e'.unseen run = e.unseen run := by
  rw [unseen, h, unseen]

theorem unseen_setTable (e : Engine) (t : RunTable) (run : String) :
    (e.setTable t).unseen run = e.unseen run := by
  rw [unseen, setTable_walks, unseen]
  cases e.walks.find? run with
  | none => rfl
  | some w =>
    dsimp only [Option.map_some, Option.getD_some]
    split <;> rfl

theorem unseen_setWalk (e : Engine) (id : String) (w : Walk) (run : String) :
    (e.setWalk id w).unseen run = if id = run then w.told else e.unseen run := by
  have hput : (e.setWalk id w).walks.find? run = if id = run then some w else e.walks.find? run :=
    Fields.find?_put ..
  rw [unseen, hput]
  split <;> rfl

theorem unseen_cancel (e : Engine) (id run : String) : (e.cancel id).unseen run = e.unseen run := by
  unfold cancel
  split
  · next w hw =>
    rw [unseen_setWalk]
    split
    · next heq =>
      subst heq
      exact (unseen_eq hw).symm
    · rfl
  · rfl

/-- A run tells nothing unless it goes a step. -/
theorem tells?_none (hstill : job = .walk run →
    ∀ w, e.walks.find? run = some w → w.run.step (s.around.forRun run) e.now = none) :
    job.tells? s e run = none := by
  cases job
  case walk id =>
    rw [Job.tells?]
    split
    · next heq =>
      subst heq
      cases hw : e.walks.find? id with
      | none => rfl
      | some w =>
        rw [Option.bind_some, hstill rfl w hw]
        rfl
    · rfl
  all_goals rfl

/-- What a run has told and nobody has seen grows by what it tells, unless its driver takes
something out. -/
theorem unseen_run (h : job.run s e = some (next, e₁)) (hserves : job.serves run = false)
    (hsettle : ∀ project, job ≠ .settle project run)
    (hborn : ∀ project definition vars, job = .enrol project definition vars →
      run ≠ e.newRun s project) :
    e₁.unseen run = e.unseen run ++ (job.tells? s e run).toList := by
  cases run_cases h with
  | aside ha hframe =>
    have hsilent : job.tells? s e run = none := by
      refine tells?_none ?_
      rintro rfl
      cases ha
    rw [hsilent, unseen_congr (congrArg (Fields.find? · run) hframe.walks)]
    exact (List.append_nil _).symm
  | enrolled project definition vars =>
    have hne := (hborn project definition vars rfl).symm
    rw [enrolled, unseen_setTable]
    refine (unseen_congr ?_).trans (List.append_nil _).symm
    exact (Fields.find?_put ..).trans (if_neg hne)
  | launched project id w hw =>
    have hne : id ≠ run := of_decide_eq_false hserves
    exact (unseen_congr ((Fields.find?_put ..).trans (if_neg hne))).trans (List.append_nil _).symm
  | stopped =>
    rw [unseen_setTable]
    refine Eq.trans ?_ (List.append_nil _).symm
    split
    · exact unseen_cancel ..
    · rfl
  | removed => exact (unseen_setTable ..).trans (List.append_nil _).symm
  | restored => exact (unseen_setTable ..).trans (List.append_nil _).symm
  | allCancelled =>
    have hmap := Fields.find?_map e.walks (fun _ w => { w with run := w.run.cancel }) run
    rw [unseen, show Fields.find? _ run = _ from hmap, unseen]
    refine Eq.trans ?_ (List.append_nil _).symm
    cases e.walks.find? run <;> rfl
  | @posted id w m hw =>
    refine (unseen_setWalk ..).trans (Eq.trans ?_ (List.append_nil _).symm)
    split
    · next heq =>
      subst heq
      exact (unseen_eq hw).symm
    · rfl
  | @walked id w told r hw hstep =>
    rw [unseen_setWalk, tells?]
    split
    · next heq =>
      subst heq
      rw [unseen_eq hw, hw, Option.bind_some, hstep]
      rfl
    · exact (List.append_nil _).symm
  | @unmoved id hnone =>
    have hsilent : (Job.walk id).tells? s e run = none := by
      refine tells?_none ?_
      rintro ⟨⟩
      exact hnone
    rw [hsilent]
    exact (List.append_nil _).symm
  | @followed project id _ _ hf =>
    have hne : id ≠ run := of_decide_eq_false hserves
    refine Eq.trans ?_ (List.append_nil _).symm
    cases hf with
    | gone => rfl
    | event => exact (unseen_setTable ..).trans ((unseen_setWalk ..).trans (if_neg hne))
    | done => rfl
    | beat => exact (unseen_setTable ..).trans ((unseen_setWalk ..).trans (if_neg hne))
  | @settled project id _ _ hs =>
    have hne : id ≠ run := fun heq => hsettle project (heq ▸ rfl)
    have hkept : (e.walks.erase id).find? run = e.walks.find? run :=
      (Fields.find?_erase ..).trans (if_neg hne)
    refine Eq.trans ?_ (List.append_nil _).symm
    cases hs with
    | gone => rfl
    | unknown => exact unseen_congr hkept
    | known => exact (unseen_setTable ..).trans (unseen_congr hkept)
  | _ => exact (List.append_nil _).symm

end Unseen

/-! ## The task that serves a run -/

section Serving

variable {e : Engine} {run : String}

/-- If one job serves a run, then one task does, and no other. -/
theorem served_split (hn : e.Numbered) (hone : e.pending.countP (Job.serves run) = 1) {id : Nat}
    {t : Task} (ht : e.task? id = some t) (hserves : t.left.any (Job.serves run) = true) :
    ∃ front back, e.tasks = front ++ (id, t) :: back ∧
      ∀ x ∈ front ++ back, ∀ j ∈ x.2.left, j.serves run = false := by
  obtain ⟨front, back, hsplit, -, -⟩ := tasks_split hn ht
  refine ⟨front, back, hsplit, fun x hx j hj => Bool.eq_false_iff.mpr fun hother => ?_⟩
  have hhere : 0 < t.left.countP (Job.serves run) :=
    List.countP_pos_iff.mpr (List.any_eq_true.mp hserves)
  have helse : 0 < ((front ++ back).flatMap fun x => x.2.left).countP (Job.serves run) :=
    List.countP_pos_iff.mpr ⟨j, List.mem_flatMap.mpr ⟨x, hx, hj⟩, hother⟩
  change (e.tasks.flatMap fun x => x.2.left).countP (Job.serves run) = 1 at hone
  rw [hsplit, List.flatMap_append, List.flatMap_cons, List.countP_append,
    List.countP_append] at hone
  dsimp only at hone
  rw [List.flatMap_append, List.countP_append] at helse
  omega

theorem serves_elsewhere (hn : e.Numbered) (hone : e.pending.countP (Job.serves run) = 1) {id i : Nat}
    {t t' : Task} (ht : e.task? id = some t) (hserves : t.left.any (Job.serves run) = true)
    (ht' : e.task? i = some t') (hne : i ≠ id) : ∀ j ∈ t'.left, j.serves run = false := by
  obtain ⟨front, back, hsplit, hothers⟩ := served_split hn hone ht hserves
  have hmem := task_mem ht'
  rw [hsplit] at hmem
  refine hothers (i, t') ?_
  rcases List.mem_append.mp hmem with hmem | hmem
  · exact List.mem_append_left _ hmem
  · rcases List.mem_cons.mp hmem with heq | hmem
    · exact absurd (Prod.mk.inj heq).1 hne
    · exact List.mem_append_right _ hmem

theorem underway_none (h : ∀ j ∈ e.pending, j.serves run = false) (subject : String) :
    underway run subject e = [] :=
  List.flatMap_eq_nil_iff.mpr fun x hx =>
    relaying_none (fun j hj => h j (List.mem_flatMap.mpr ⟨x, hx, hj⟩)) subject

theorem underway_served (hn : e.Numbered) (hone : e.pending.countP (Job.serves run) = 1) {id : Nat}
    {t : Task} (ht : e.task? id = some t) (hserves : t.left.any (Job.serves run) = true)
    (subject : String) : underway run subject e = relaying run subject t.left := by
  obtain ⟨front, back, hsplit, hothers⟩ := served_split hn hone ht hserves
  have hnone : ∀ l : List (Nat × Task), (∀ x ∈ l, x ∈ front ++ back) →
      (l.flatMap fun x => relaying run subject x.2.left) = [] := fun l hl =>
    List.flatMap_eq_nil_iff.mpr fun x hx => relaying_none (hothers x (hl x hx)) subject
  change (e.tasks.flatMap fun x => relaying run subject x.2.left) = _
  rw [hsplit, List.flatMap_append, List.flatMap_cons,
    hnone front fun _ hx => List.mem_append_left _ hx,
    hnone back fun _ hx => List.mem_append_right _ hx]
  exact List.append_nil _

end Serving

/-! ## Whose events are published -/

theorem published?_eq_some {subject : String} {event : Event} {m : Moment}
    (h : m.published? subject = some event) : m.job? = some (.deliver subject event) := by
  unfold Moment.published? at h
  split at h
  · next recipient event' hjob =>
    split at h
    · next heq =>
      obtain rfl := Option.some.inj h
      rw [hjob, heq]
    · cases h
  · cases h

section Publications

variable {m : Moment} {run subject : String} {event : Event}

/-- What a moment publishes is handed out by the task that works then. -/
theorem published?_task (h : m.published? subject = some event) :
    ∃ id rest reply, m.deed = .work id ∧
      m.before.task? id = some ⟨.deliver subject event :: rest, reply⟩ := by
  have hjob := published?_eq_some h
  unfold Moment.job? at hjob
  split at hjob
  · next id hdeed =>
    obtain ⟨⟨left, reply⟩, ht, hhead⟩ := Option.bind_eq_some_iff.mp hjob
    cases left with
    | nil => cases hhead
    | cons job rest =>
      obtain rfl := Option.some.inj hhead
      exact ⟨id, rest, reply, hdeed, ht⟩
  · cases hjob

/-- An event that ends no run is published for one run, on its subject or on that of its
project. -/
theorem Duties.relayed (hd : m.before.Duties) (h : m.published? subject = some event)
    (hnot : event.isTerminal = false) :
    ∃ project run, (project, run) ∈ m.before.started ∧ (subject = run ∨ subject = project) ∧
      ∀ other, m.relayed? other subject = if run = other then some event else none := by
  obtain ⟨id, rest, reply, hdeed, ht⟩ := published?_task h
  have hduty := hd _ (task_mem ht)
  dsimp only at hduty
  generalize hleft : Job.deliver subject event :: rest = left at hduty
  cases hduty with
  -- apart from services only the ends of runs are published
  | apart hall =>
    subst hleft
    exact nomatch hnot.symm.trans (hall _ List.mem_cons_self)
  | @courier project run front back server hname hserver hfront hback =>
    cases front with
    | nil =>
      obtain ⟨rfl, -⟩ := List.cons.inj hleft
      rcases hserver with heq | heq <;> cases heq
    | cons j front =>
      obtain ⟨rfl, rfl⟩ := List.cons.inj hleft
      obtain ⟨hjob, hfront⟩ := List.forall_mem_cons.mp hfront
      have hsubject : subject = run ∨ subject = project := by
        simpa [relays, hnot] using hjob
      refine ⟨project, run, hname, hsubject, fun other => ?_⟩
      obtain ⟨before, deed⟩ := m
      obtain rfl := hdeed
      have hany : (front.append (server :: back)).any (Job.serves other) = _ :=
        any_serves hserver hfront hback other
      rw [relayed?_work ht, relay?, hany]
      simp [handsOut?]

/-- What is relayed is handed out by a task that serves the run behind that. -/
theorem relayed?_task (h : m.relayed? run subject = some event) :
    ∃ id rest reply, m.deed = .work id ∧ rest.any (Job.serves run) = true ∧
      m.before.task? id = some ⟨.deliver subject event :: rest, reply⟩ := by
  unfold Moment.relayed? at h
  split at h
  · next id hdeed =>
    split at h
    · next job rest hleft =>
      obtain ⟨⟨left, reply⟩, ht, rfl⟩ := Option.map_eq_some_iff.mp hleft
      unfold Job.relay? at h
      split at h
      · next hserves =>
        unfold Job.handsOut? at h
        split at h
        · split at h
          · next hrecipient =>
            obtain rfl := Option.some.inj h
            subst hrecipient
            exact ⟨id, rest, reply, hdeed, hserves, ht⟩
          · cases h
        · cases h
      · cases h
    · cases h
  · cases h

/-- What is relayed is published. -/
theorem published?_of_relayed? (h : m.relayed? run subject = some event) :
    m.published? subject = some event := by
  obtain ⟨id, rest, reply, hdeed, -, ht⟩ := relayed?_task h
  obtain ⟨before, deed⟩ := m
  obtain rfl := hdeed
  rw [Moment.published?, job?_work ht]
  exact if_pos rfl

/-- What is relayed is published, and ends no run. -/
theorem Duties.published (hd : m.before.Duties) (h : m.relayed? run subject = some event) :
    m.published? subject = some event ∧ event.isTerminal = false := by
  refine ⟨published?_of_relayed? h, ?_⟩
  obtain ⟨id, rest, reply, hdeed, hserves, ht⟩ := relayed?_task h
  have hany : (Job.deliver subject event :: rest).any (Job.serves run) = true := by
    rw [List.any_cons, hserves, Bool.or_true]
  obtain ⟨project, front, back, server, hleft, -, hserver, hfront, -⟩ :=
    (hd _ (task_mem ht)).server hany
  cases front with
  | nil =>
    obtain ⟨rfl, -⟩ := List.cons.inj hleft
    rcases hserver with heq | heq <;> cases heq
  | cons j front =>
    obtain ⟨rfl, -⟩ := List.cons.inj hleft
    have hjob := hfront _ List.mem_cons_self
    rw [Job.relays, Bool.and_eq_true] at hjob
    exact (Bool.not_eq_true' _).mp hjob.2

end Publications

/-- If a subject is watched for one run only, what is published on it without the ends is
what is relayed for that run. -/
theorem Reached.published_without_ends {s : Settings} (hsandbox : s.around.IsSandboxed)
    (hs : NamesApart s) {l : List Moment} {e : Engine} (h : Reached s l e) {run subject : String}
    (honly : ∀ project' run', (project', run') ∈ e.started →
      subject = run' ∨ subject = project' → run' = run) :
    (published subject l).filter (fun event => !event.isTerminal) = relayed run subject l := by
  have hevery : ∀ m ∈ l, (m.published? subject).filter (fun event => !event.isTerminal) =
      m.relayed? run subject := by
    intro m hm
    obtain ⟨⟨l', hreached⟩, hfewer⟩ := h.before hm
    have hd := hreached.duties hsandbox hs
    refine Option.ext fun event => ?_
    rw [Option.filter_eq_some_iff, Bool.not_eq_true']
    constructor
    · rintro ⟨hpublished, hnot⟩
      obtain ⟨project', run', hname, hsubject, hrelayed⟩ := hd.relayed hpublished hnot
      rw [hrelayed, if_pos (honly project' run' (hfewer _ hname) hsubject)]
    · exact hd.published
  clear h
  rw [published, List.filter_filterMap, relayed]
  induction l with
  | nil => rfl
  | cons m l ih =>
    obtain ⟨hm, hl⟩ := List.forall_mem_cons.mp hevery
    rw [List.filterMap_cons, List.filterMap_cons, hm, ih hl]

end Workflow.Engine
