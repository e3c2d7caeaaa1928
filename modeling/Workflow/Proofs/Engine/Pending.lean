import Workflow.Proofs.Engine.Records

/-!
# Deeds and the jobs left

What a deed does to an engine (`after_cases`), and to the jobs that all tasks have left:
a job that is done is replaced by those it leaves to do (`pending_advance`), and every
other deed leaves them alone, except that a call adds its own.

All this is about tasks with numbers of their own, which every engine has that a fresh
one comes to (`Reached.numbered`).
-/

namespace Workflow.Engine

open Engine.Job

/-! ## Kinds of jobs -/

theorem any_none {q : Job → Bool} {jobs : List Job} :
    jobs.any q = false ↔ ∀ j ∈ jobs, q j = false := by
  simp

theorem countP_none {q : Job → Bool} {jobs : List Job} :
    jobs.countP q = 0 ↔ ∀ j ∈ jobs, q j = false := by
  simp

/-! ## Starting tasks -/

theorem spawn_numbered {e : Engine} (hn : e.Numbered) (jobs : List Job) :
    (e.spawn jobs).Numbered where
  below := by
    intro x hx
    rcases List.mem_append.mp hx with hx | hx
    · exact Nat.lt_succ_of_lt (hn.below x hx)
    · obtain rfl := List.mem_singleton.mp hx
      exact Nat.lt_succ_self _
  distinct := by
    change ((e.tasks ++ [_]).map Prod.fst).Nodup
    rw [List.map_append, List.nodup_append]
    refine ⟨hn.distinct, List.pairwise_singleton _ _, ?_⟩
    rintro i hi j hj rfl
    obtain ⟨x, hx, rfl⟩ := List.mem_map.mp hi
    have hlt := hn.below x hx
    have heq : x.1 = e.nextTask := List.mem_singleton.mp hj
    omega

theorem spawnAll_numbered {e : Engine} (hn : e.Numbered) (rows : List (List Job)) :
    (e.spawnAll rows).Numbered := by
  induction rows generalizing e with
  | nil => exact hn
  | cons row rest ih => exact ih (spawn_numbered hn row)

theorem pending_spawnAll (e : Engine) (rows : List (List Job)) :
    (e.spawnAll rows).pending = e.pending ++ rows.flatten := by
  induction rows generalizing e with
  | nil => exact (List.append_nil _).symm
  | cons row rest ih =>
    have hone : (e.spawn row).pending = e.pending ++ row := by
      change (e.tasks ++ [_]).flatMap _ = _
      rw [List.flatMap_append, List.flatMap_singleton]
      rfl
    change ((e.spawn row).spawnAll rest).pending = _
    rw [ih, hone, List.append_assoc, List.flatten_cons]

theorem task?_spawnAll {e : Engine} {id : Nat} {t : Task} (ht : e.task? id = some t)
    (rows : List (List Job)) : (e.spawnAll rows).task? id = some t := by
  induction rows generalizing e with
  | nil => exact ht
  | cons row rest ih =>
    refine ih (e := e.spawn row) ?_
    obtain ⟨x, hfind, hx⟩ := Option.map_eq_some_iff.mp ht
    change ((e.tasks ++ [_]).find? _).map Prod.snd = some t
    rw [List.find?_append, hfind]
    exact congrArg some hx

theorem mem_spawnAll {e : Engine} {rows : List (List Job)} {x : Nat × Task}
    (hx : x ∈ (e.spawnAll rows).tasks) : x ∈ e.tasks ∨ x.2.left ∈ rows := by
  induction rows generalizing e with
  | nil => exact Or.inl hx
  | cons row rest ih =>
    rcases ih (e := e.spawn row) hx with hx | hx
    · rcases List.mem_append.mp hx with hx | hx
      · exact Or.inl hx
      · obtain rfl := List.mem_singleton.mp hx
        exact Or.inr List.mem_cons_self
    · exact Or.inr (List.mem_cons_of_mem _ hx)

/-! ## Doing a job -/

/-- The reply that a job gives. -/
def Job.reply? : Job → Option Reply
  | answer r => some r
  | _ => none

/-- Advancing is doing the next job. -/
theorem advance_eq (s : Settings) {e : Engine} {id : Nat} {job : Job} {rest : List Job}
    {reply : Option Reply} (ht : e.task? id = some ⟨job :: rest, reply⟩) :
    e.advance s id = (job.run s e).map fun (next, e₁) =>
      e₁.setTask id ⟨next ++ rest, job.reply?.or reply⟩ := by
  unfold advance
  rw [ht]
  cases job <;> rfl

theorem advance_cases {s : Settings} {e e' : Engine} {id : Nat} (h : e.advance s id = some e') :
    ∃ job rest reply next e₁, e.task? id = some ⟨job :: rest, reply⟩ ∧
      job.run s e = some (next, e₁) ∧
      e' = e₁.setTask id ⟨next ++ rest, job.reply?.or reply⟩ := by
  cases ht : e.task? id with
  | none =>
    rw [advance, ht] at h
    cases h
  | some t =>
    obtain ⟨left, reply⟩ := t
    cases left with
    | nil =>
      rw [advance, ht] at h
      cases h
    | cons job rest =>
      rw [advance_eq s ht] at h
      obtain ⟨⟨next, e₁⟩, hrun, rfl⟩ := Option.map_eq_some_iff.mp h
      exact ⟨job, rest, reply, next, e₁, rfl, hrun, rfl⟩

/-- The tasks of an engine after a job, before its own task is set. -/
theorem run_numbered {s : Settings} {e e₁ : Engine} {job : Job} {next : List Job}
    (hn : e.Numbered) (h : job.run s e = some (next, e₁)) : e₁.Numbered := by
  obtain ⟨htasks, hnext⟩ := run_tasks h
  have hs := spawnAll_numbered hn (job.spawned e)
  constructor
  · rw [htasks, hnext]
    exact hs.below
  · rw [htasks]
    exact hs.distinct

theorem task?_run {s : Settings} {e e₁ : Engine} {job : Job} {next : List Job} {id : Nat} {t : Task}
    (ht : e.task? id = some t) (h : job.run s e = some (next, e₁)) : e₁.task? id = some t := by
  unfold task?
  rw [(run_tasks h).1]
  exact task?_spawnAll ht _

theorem setTask_numbered {e : Engine} (hn : e.Numbered) {id : Nat} {old : Task}
    (ht : e.task? id = some old) (t : Task) : (e.setTask id t).Numbered := by
  obtain ⟨front, back, hsplit, hfront, hback⟩ := tasks_split hn ht
  have hset := setTask_tasks (t := t) hsplit hfront hback
  have hsub : ((e.setTask id t).tasks.map Prod.fst).Sublist (e.tasks.map Prod.fst) := by
    rw [hset, hsplit, List.map_append, List.map_append, List.map_append, List.append_assoc]
    refine List.Sublist.append_left ?_ _
    split
    · exact List.sublist_cons_self _ _
    · exact List.Sublist.refl _
  constructor
  · intro x hx
    obtain ⟨y, hy, heq⟩ := List.mem_map.mp (hsub.subset (List.mem_map_of_mem hx))
    rw [setTask_nextTask, ← heq]
    exact hn.below y hy
  · exact hn.distinct.sublist hsub

theorem mem_setTask {e : Engine} {id : Nat} {t : Task} {x : Nat × Task}
    (hx : x ∈ (e.setTask id t).tasks) : x = (id, t) ∨ x ∈ e.tasks := by
  unfold setTask at hx
  dsimp only at hx
  split at hx
  · exact Or.inr (List.mem_filter.mp hx).1
  · obtain ⟨y, hy, rfl⟩ := List.mem_map.mp hx
    by_cases hid : y.1 = id
    · subst hid
      rw [if_pos rfl]
      exact Or.inl rfl
    · rw [if_neg hid]
      exact Or.inr hy

/-- Where the tasks come from when one has done a job. -/
theorem mem_tasks_advance {s : Settings} {e e₁ : Engine} {id : Nat} {job : Job} {next : List Job}
    {t : Task} (h : job.run s e = some (next, e₁)) {x : Nat × Task}
    (hx : x ∈ (e₁.setTask id t).tasks) :
    x = (id, t) ∨ x ∈ e.tasks ∨ x.2.left ∈ job.spawned e := by
  refine (mem_setTask hx).imp_right fun hx => ?_
  rw [(run_tasks h).1] at hx
  exact mem_spawnAll hx

/-- **The jobs left**: the one that is done is gone, and those it leaves to do have
come. -/
theorem pending_advance {s : Settings} {e e₁ : Engine} (hn : e.Numbered) {id : Nat} {job : Job}
    {rest next : List Job} {reply : Option Reply} (ht : e.task? id = some ⟨job :: rest, reply⟩)
    (h : job.run s e = some (next, e₁)) (reply' : Option Reply) :
    (job :: (e₁.setTask id ⟨next ++ rest, reply'⟩).pending).Perm
      (e.pending ++ (job.spawned e).flatten ++ next) := by
  have hpending : e₁.pending = e.pending ++ (job.spawned e).flatten := by
    rw [← pending_spawnAll, pending, (run_tasks h).1]
    rfl
  -- the task of the job stands where it did, with new tasks behind all others
  obtain ⟨front, back, hsplit, hfront, hback⟩ := tasks_split (run_numbered hn h) (task?_run ht h)
  have hset : (e₁.setTask id ⟨next ++ rest, reply'⟩).pending =
      front.flatMap (fun x => x.2.left) ++ (next ++ rest) ++ back.flatMap (fun x => x.2.left) := by
    rw [pending, setTask_tasks hsplit hfront hback, List.flatMap_append, List.flatMap_append]
    congr 2
    split
    · next hempty =>
      rw [Bool.and_eq_true] at hempty
      exact (List.isEmpty_iff.mp hempty.1).symm
    · exact List.append_nil _
  rw [← hpending, hset, pending, hsplit, List.flatMap_append, List.flatMap_cons]
  generalize front.flatMap _ = f
  generalize back.flatMap _ = b
  calc job :: (f ++ (next ++ rest) ++ b)
    _ = job :: (f ++ (next ++ (rest ++ b))) := by simp only [List.append_assoc]
    List.Perm _ (f ++ job :: (next ++ (rest ++ b))) := List.perm_middle.symm
    List.Perm _ (f ++ job :: (rest ++ b ++ next)) := (List.perm_append_comm.cons job).append_left f
    _ = f ++ (job :: rest ++ b) ++ next := by simp only [List.append_assoc, List.cons_append]

theorem task_mem {e : Engine} {id : Nat} {t : Task} (ht : e.task? id = some t) :
    (id, t) ∈ e.tasks := by
  obtain ⟨⟨i, t'⟩, hfind, rfl⟩ := Option.map_eq_some_iff.mp ht
  have hid := List.find?_some hfind
  obtain rfl : i = id := of_decide_eq_true hid
  exact List.mem_of_find?_eq_some hfind

theorem mem_pending {e : Engine} {id : Nat} {t : Task} (ht : e.task? id = some t) {job : Job}
    (hj : job ∈ t.left) : job ∈ e.pending :=
  List.mem_flatMap.mpr ⟨(id, t), task_mem ht, hj⟩

/-- What all jobs left have in common is kept if those that come have it too. -/
theorem forall_pending_work {s : Settings} {e e₁ : Engine} (hn : e.Numbered) {id : Nat} {job : Job}
    {rest next : List Job} {reply reply' : Option Reply}
    (ht : e.task? id = some ⟨job :: rest, reply⟩) (h : job.run s e = some (next, e₁))
    {P : Job → Prop} (hold : ∀ j ∈ e.pending, P j)
    (hnew : ∀ j, j ∈ next ∨ j ∈ (job.spawned e).flatten → P j) :
    ∀ j ∈ (e₁.setTask id ⟨next ++ rest, reply'⟩).pending, P j := by
  intro j hj
  have hmem := (pending_advance hn ht h reply').mem_iff.mp (List.mem_cons_of_mem job hj)
  rcases List.mem_append.mp hmem with hmem | hmem
  · rcases List.mem_append.mp hmem with hmem | hmem
    · exact hold j hmem
    · exact hnew j (Or.inr hmem)
  · exact hnew j (Or.inl hmem)

/-- Where the jobs left come from. -/
theorem mem_pending_advance {s : Settings} {e e₁ : Engine} (hn : e.Numbered) {id : Nat} {job : Job}
    {rest next : List Job} {reply reply' : Option Reply}
    (ht : e.task? id = some ⟨job :: rest, reply⟩) (h : job.run s e = some (next, e₁)) {j : Job}
    (hj : j ∈ (e₁.setTask id ⟨next ++ rest, reply'⟩).pending) :
    j ∈ e.pending ∨ j.isChore = true ∨ Leads s e job j := by
  refine forall_pending_work hn ht h (P := fun j => j ∈ e.pending ∨ j.isChore = true ∨
    Leads s e job j) (fun _ hold => Or.inl hold) (fun _ hnew => Or.inr ?_) j hj
  exact hnew.elim (mem_next h) mem_spawned

/-- A job that is left or comes is done or left after that. -/
theorem mem_pending_work {s : Settings} {e e₁ : Engine} (hn : e.Numbered) {id : Nat} {job : Job}
    {rest next : List Job} {reply : Option Reply}
    (ht : e.task? id = some ⟨job :: rest, reply⟩) (h : job.run s e = some (next, e₁))
    (reply' : Option Reply) {j : Job}
    (hj : j ∈ e.pending ∨ j ∈ next) :
    j = job ∨ j ∈ (e₁.setTask id ⟨next ++ rest, reply'⟩).pending := by
  refine List.mem_cons.mp ((pending_advance hn ht h reply').mem_iff.mpr ?_)
  rcases hj with hj | hj
  · exact List.mem_append_left _ (List.mem_append_left _ hj)
  · exact List.mem_append_right _ hj

/-- The balance of the jobs of a kind. -/
theorem countP_pending_work {s : Settings} {e e₁ : Engine} (q : Job → Bool) (hn : e.Numbered)
    {id : Nat} {job : Job} {rest next : List Job} {reply : Option Reply}
    (ht : e.task? id = some ⟨job :: rest, reply⟩) (h : job.run s e = some (next, e₁))
    (reply' : Option Reply) :
    (e₁.setTask id ⟨next ++ rest, reply'⟩).pending.countP q + (q job).toNat =
      e.pending.countP q + (job.spawned e).flatten.countP q + next.countP q := by
  have hperm := (pending_advance hn ht h reply').countP_eq q
  rw [List.countP_append, List.countP_append, List.countP_cons] at hperm
  rw [← hperm]
  cases q job <;> rfl

/-- The jobs of a call. -/
theorem mem_jobs {c : Call} {j : Job} (hj : j ∈ c.jobs) :
    j.isAside = true ∨ (∃ project definition vars, j = .beginStart project definition vars) ∨
      (∃ run, j = .stop run) ∨ ∃ run, j = .remove run := by
  cases c with
  | start project definition vars =>
    obtain rfl := List.mem_singleton.mp hj
    exact Or.inr (Or.inl ⟨project, definition, vars, rfl⟩)
  | stop run =>
    obtain rfl := List.mem_singleton.mp hj
    exact Or.inr (Or.inr (Or.inl ⟨run, rfl⟩))
  | remove run =>
    obtain rfl := List.mem_singleton.mp hj
    exact Or.inr (Or.inr (Or.inr ⟨run, rfl⟩))
  | send run m =>
    obtain rfl := List.mem_singleton.mp hj
    cases m with
    | stop => exact Or.inr (Or.inr (Or.inl ⟨run, rfl⟩))
    | _ => exact Or.inl rfl
  | pass =>
    simp only [Call.jobs, passing, List.mem_cons, List.not_mem_nil, or_false] at hj
    rcases hj with rfl | rfl | rfl <;> exact Or.inl rfl
  | _ =>
    obtain rfl := List.mem_singleton.mp hj
    exact Or.inl rfl

theorem pending_ask (e : Engine) (jobs : List Job) : (e.ask jobs).pending = jobs ++ e.pending := rfl

theorem ask_numbered {e : Engine} (hn : e.Numbered) (jobs : List Job) :
    (e.ask jobs).Numbered where
  below := by
    intro x hx
    rcases List.mem_cons.mp hx with rfl | hx
    · exact Nat.lt_succ_self _
    · exact Nat.lt_succ_of_lt (hn.below x hx)
  distinct := by
    refine List.nodup_cons.mpr ⟨fun hmem => ?_, hn.distinct⟩
    obtain ⟨x, hx, heq⟩ := List.mem_map.mp hmem
    exact absurd heq (Nat.ne_of_lt (hn.below x hx))

/-! ## Deeds -/

/-- What a deed leaves as it was, if it is neither a call nor the work of a task. -/
structure Still (e e' : Engine) : Prop where
  /-- no record changes -/
  table : e'.table = e.table
  /-- no walk goes on -/
  walks : e'.walks = e.walks
  /-- no name is given -/
  started : e'.started = e.started
  /-- the start lock stays -/
  isStarting : e'.isStarting = e.isStarting
  /-- no job comes or goes -/
  pending : e'.pending = e.pending
  /-- tasks still have numbers of their own -/
  numbered : e'.Numbered
  /-- no task is started -/
  tasks : ∀ x ∈ e'.tasks, x ∈ e.tasks
  /-- a task that has jobs left stays -/
  task : ∀ {id t}, e.task? id = some t → t.left ≠ [] → e'.task? id = some t

/-- What a deed comes to. -/
inductive Happens (s : Settings) (e : Engine) : Deed → Engine → Prop
  /-- a call is taken up -/
  | asked {c : Call} : e.admits c = true → Happens s e (.ask c) (e.ask c.jobs)
  /-- a task has done its next job -/
  | worked {id : Nat} {job : Job} {rest next : List Job} {reply : Option Reply} {e₁ : Engine} :
      e.task? id = some ⟨job :: rest, reply⟩ → job.run s e = some (next, e₁) →
      Happens s e (.work id) (e₁.setTask id ⟨next ++ rest, job.reply?.or reply⟩)
  /-- anything else -/
  | still {d : Deed} {e' : Engine} : (∀ c, d ≠ .ask c) → (∀ id, d ≠ .work id) → Still e e' →
      Happens s e d e'

/-- A deed that leaves the tasks alone, and all that is theirs. -/
theorem still_of_tasks {e e' : Engine} (hn : e.Numbered) (htable : e'.table = e.table)
    (hwalks : e'.walks = e.walks) (hstarted : e'.started = e.started)
    (hstarting : e'.isStarting = e.isStarting) (htasks : e'.tasks = e.tasks)
    (hnext : e'.nextTask = e.nextTask) : Still e e' where
  table := htable
  walks := hwalks
  started := hstarted
  isStarting := hstarting
  pending := by rw [pending, htasks, pending]
  numbered := ⟨by rw [htasks, hnext]; exact hn.below, by rw [htasks]; exact hn.distinct⟩
  tasks := by
    rw [htasks]
    exact fun _ hx => hx
  task := by
    intro id t ht _
    rw [task?, htasks]
    exact ht

/-- Fetching the reply of a task that is done loses no job. -/
theorem collect_pending {e : Engine} (hn : e.Numbered) {id : Nat} (hd : e.isDone id = true) :
    ({ e with tasks := e.tasks.filter fun (i, _) => i ≠ id } : Engine).pending = e.pending := by
  cases ht : e.task? id with
  | none =>
    have hothers : ∀ x ∈ e.tasks, x.1 ≠ id := by
      intro x hx
      have hne := List.find?_eq_none.mp (Option.map_eq_none_iff.mp ht) x hx
      simpa using hne
    rw [pending, filter_others hothers]
    rfl
  | some t =>
    have hempty : t.left = [] := by
      rw [isDone, ht] at hd
      exact List.isEmpty_iff.mp hd
    obtain ⟨front, back, hsplit, hfront, hback⟩ := tasks_split hn ht
    have hfilter : e.tasks.filter (fun (i, _) => decide (i ≠ id)) = front ++ back := by
      rw [hsplit, List.filter_append, List.filter_cons, filter_others hfront, filter_others hback]
      simp
    rw [pending, hfilter, pending, hsplit, List.flatMap_append, List.flatMap_append,
      List.flatMap_cons]
    change _ = _ ++ (t.left ++ _)
    rw [hempty]
    rfl

theorem find?_others (l : List (Nat × Task)) {id i : Nat} (hne : i ≠ id) :
    (l.filter fun (j, _) => j ≠ id).find? (fun (j, _) => j = i) =
      l.find? fun (j, _) => j = i := by
  rw [List.find?_filter]
  congr 1
  funext x
  by_cases hx : x.1 = i
  · simp [hx, hne]
  · simp [hx]

theorem collect_still {e : Engine} (hn : e.Numbered) {id : Nat} (hd : e.isDone id = true) :
    Still e { e with tasks := e.tasks.filter fun (i, _) => i ≠ id } where
  table := rfl
  walks := rfl
  started := rfl
  isStarting := rfl
  pending := collect_pending hn hd
  numbered := by
    constructor
    · exact fun x hx => hn.below x (List.mem_filter.mp hx).1
    · exact hn.distinct.sublist (List.filter_sublist.map _)
  tasks := fun _ hx => (List.mem_filter.mp hx).1
  task := by
    intro i t ht hleft
    have hne : i ≠ id := by
      rintro rfl
      rw [isDone, ht] at hd
      exact hleft (List.isEmpty_iff.mp hd)
    exact (congrArg (Option.map Prod.snd) (find?_others e.tasks hne)).trans ht

/-- **What deeds come to**. -/
theorem after_cases {s : Settings} {e e' : Engine} {d : Deed} (hn : e.Numbered)
    (h : e.after s d = some e') : Happens s e d e' := by
  cases d with
  | ask c =>
    simp only [after] at h
    split at h
    · next ha =>
      cases h
      exact .asked ha
    · cases h
  | work id =>
    obtain ⟨job, rest, reply, next, e₁, ht, hrun, rfl⟩ := advance_cases h
    exact .worked ht hrun
  | wait t =>
    simp only [after] at h
    split at h
    · cases h
      exact .still nofun nofun (still_of_tasks hn rfl rfl rfl rfl rfl rfl)
    · cases h
  | read w =>
    cases h
    exact .still nofun nofun (still_of_tasks hn rfl rfl rfl rfl rfl rfl)
  | leave w =>
    cases h
    exact .still nofun nofun (still_of_tasks hn rfl rfl rfl rfl rfl rfl)
  | edit files =>
    simp only [after] at h
    split at h
    · cases h
      exact .still nofun nofun (still_of_tasks hn rfl rfl rfl rfl rfl rfl)
    · cases h
  | collect id =>
    simp only [after] at h
    split at h
    · next hd =>
      cases h
      exact .still nofun nofun (collect_still hn hd)
    · cases h

theorem after_numbered {s : Settings} {e e' : Engine} {d : Deed} (hn : e.Numbered)
    (h : e.after s d = some e') : e'.Numbered := by
  cases after_cases hn h with
  | asked => exact ask_numbered hn _
  | worked ht hrun => exact setTask_numbered (run_numbered hn hrun) (task?_run ht hrun) _
  | still _ _ hstill => exact hstill.numbered

theorem fresh_numbered (file : Stored) (source : Option (Option (Fields String)))
    (buffer busCapacity : Nat) : (fresh file source buffer busCapacity).Numbered where
  below := by
    intro x hx
    cases hx
  distinct := List.nodup_nil

theorem Runs.numbered {s : Settings} {e₀ e : Engine} {l : List Moment} (h : Runs s e₀ l e)
    (hn : e₀.Numbered) : e.Numbered :=
  h.keeps (fun _ _ _ hn hd => after_numbered hn hd) hn

theorem Reached.numbered {s : Settings} {l : List Moment} {e : Engine} (h : Reached s l e) :
    e.Numbered := by
  obtain ⟨file, source, buffer, busCapacity, hruns⟩ := h
  exact hruns.numbered (fresh_numbered file source buffer busCapacity)

/-- **Invariants**: what holds at the start, and what every deed keeps while tasks have
numbers of their own, holds of whatever an engine comes to. -/
theorem Reached.keeps {s : Settings} {P : Engine → Prop}
    (hstart : ∀ file source buffer busCapacity, P (fresh file source buffer busCapacity))
    (hstep : ∀ e d e', e.Numbered → P e → e.after s d = some e' → P e') {l : List Moment}
    {e : Engine} (h : Reached s l e) : P e := by
  induction h using Reached.along with
  | start file source buffer busCapacity => exact hstart file source buffer busCapacity
  | snoc hreached hd ih => exact hstep _ _ _ hreached.numbered ih hd

theorem started_after {s : Settings} {e e' : Engine} {d : Deed} (hn : e.Numbered)
    (h : e.after s d = some e') : ∀ x ∈ e.started, x ∈ e'.started := by
  cases after_cases hn h with
  | worked _ hrun =>
    have hmore := started_mono hrun
    exact hmore
  | asked => exact fun _ hx => hx
  | still _ _ hstill => exact fun _ hx => hstill.started ▸ hx

/-- At every moment before, an engine had been reached with no more runs than now. -/
theorem Reached.before {s : Settings} {l : List Moment} {e : Engine} (h : Reached s l e) {m : Moment}
    (hm : m ∈ l) : (∃ l', Reached s l' m.before) ∧ ∀ x ∈ m.before.started, x ∈ e.started := by
  induction h using Reached.along with
  | start => cases hm
  | @snoc l e e' d hreached hd ih =>
    have hmore := started_after hreached.numbered hd
    rcases List.mem_append.mp hm with hm | hm
    · obtain ⟨hearlier, hfewer⟩ := ih hm
      exact ⟨hearlier, fun x hx => hmore x (hfewer x hx)⟩
    · obtain rfl := List.mem_singleton.mp hm
      exact ⟨⟨l, hreached⟩, hmore⟩

/-! ## The job of a moment -/

theorem job?_work {e : Engine} {id : Nat} {job : Job} {rest : List Job} {reply : Option Reply}
    (ht : e.task? id = some ⟨job :: rest, reply⟩) : (⟨e, .work id⟩ : Moment).job? = some job := by
  change (e.task? id).bind (·.left.head?) = some job
  rw [ht]
  rfl

theorem job?_of_ne {e : Engine} {d : Deed} (hd : ∀ id, d ≠ .work id) :
    (⟨e, d⟩ : Moment).job? = none := by
  cases d
  case work id => exact absurd rfl (hd id)
  all_goals rfl

theorem mem_pending_of_job? {m : Moment} {job : Job} (h : m.job? = some job) :
    job ∈ m.before.pending := by
  obtain ⟨e, d⟩ := m
  cases d
  case work id =>
    obtain ⟨t, ht, hhead⟩ := Option.bind_eq_some_iff.mp h
    exact mem_pending ht (List.mem_of_mem_head? hhead)
  all_goals cases h

/-! ## One task among others -/

theorem task?_setTask_self {e : Engine} (hn : e.Numbered) {id : Nat} {old : Task}
    (ht : e.task? id = some old) {t : Task} (hkeep : t.left ≠ [] ∨ t.reply.isSome = true) :
    (e.setTask id t).task? id = some t := by
  obtain ⟨front, back, hsplit, hfront, hback⟩ := tasks_split hn ht
  have hstays : (t.left.isEmpty && t.reply.isNone) = false := by
    rcases hkeep with hleft | hreply
    · rw [List.isEmpty_eq_false_iff.mpr hleft]
      rfl
    · rw [Option.isNone_eq_false_iff.mpr hreply, Bool.and_false]
  have hnot : front.find? (fun (i, _) => decide (i = id)) = none :=
    List.find?_eq_none.mpr fun x hx => by simpa using hfront x hx
  rw [task?, setTask_tasks hsplit hfront hback, hstays, if_neg Bool.false_ne_true,
    List.find?_append, List.find?_append, hnot]
  simp

theorem task?_setTask_ne (e : Engine) {id i : Nat} (hne : i ≠ id) (t : Task) :
    (e.setTask id t).task? i = e.task? i := by
  unfold task? setTask
  dsimp only
  split
  · exact congrArg (Option.map Prod.snd) (find?_others e.tasks hne)
  · induction e.tasks with
    | nil => rfl
    | cons x l ih =>
      rw [List.map_cons]
      by_cases hx : x.1 = id
      · rw [if_pos hx, List.find?_cons_of_neg, List.find?_cons_of_neg]
        · exact ih
        · simp [hx, Ne.symm hne]
        · simp [hx, Ne.symm hne]
      · rw [if_neg hx]
        by_cases hi : x.1 = i
        · rw [List.find?_cons_of_pos, List.find?_cons_of_pos] <;> simp [hi]
        · rw [List.find?_cons_of_neg, List.find?_cons_of_neg]
          · exact ih
          · simp [hi]
          · simp [hi]

theorem lt_nextTask {e : Engine} (hn : e.Numbered) {id : Nat} {t : Task}
    (ht : e.task? id = some t) : id < e.nextTask :=
  hn.below (id, t) (task_mem ht)

/-- A task that is started gets the next number. -/
theorem task?_spawn {e : Engine} (hn : e.Numbered) (jobs : List Job) :
    (e.spawn jobs).task? e.nextTask = some ⟨jobs, none⟩ := by
  have hnot : e.tasks.find? (fun (i, _) => decide (i = e.nextTask)) = none :=
    List.find?_eq_none.mpr fun x hx => by simpa using Nat.ne_of_lt (hn.below x hx)
  change ((e.tasks ++ [_]).find? _).map Prod.snd = _
  rw [List.find?_append, hnot]
  simp

/-- A call leaves all other tasks as they are. -/
theorem task?_ask {e : Engine} (hn : e.Numbered) {id : Nat} {t : Task} (ht : e.task? id = some t)
    (jobs : List Job) : (e.ask jobs).task? id = some t := by
  rw [task?, ask, List.find?_cons_of_neg]
  · exact ht
  · simp [Nat.ne_of_gt (lt_nextTask hn ht)]

/-- What others do leaves a task alone that has jobs left. -/
theorem after_task? {s : Settings} {e e' : Engine} {d : Deed} (hn : e.Numbered)
    (h : e.after s d = some e') {id : Nat} (hd : d ≠ .work id) {t : Task}
    (ht : e.task? id = some t) (hleft : t.left ≠ []) : e'.task? id = some t := by
  cases after_cases hn h with
  | asked => exact task?_ask hn ht _
  | @worked i _ _ _ _ _ hti hrun =>
    have hne : id ≠ i := fun heq => hd (heq ▸ rfl)
    rw [task?_setTask_ne _ hne]
    exact task?_run ht hrun
  | still _ _ hstill => exact hstill.task ht hleft

/-- A task keeps its jobs until it does one of them. -/
theorem Runs.task? {s : Settings} {e₀ e : Engine} {l : List Moment} (hn : e₀.Numbered)
    (h : Runs s e₀ l e) {id : Nat} (hl : ∀ m ∈ l, m.deed ≠ .work id) {t : Task}
    (ht : e₀.task? id = some t) (hleft : t.left ≠ []) : e.task? id = some t := by
  induction h with
  | nil => exact ht
  | @snoc l e e' d hr hd ih =>
    have hbefore := ih fun m hm => hl m (List.mem_append_left _ hm)
    have hne : d ≠ .work id := hl ⟨e, d⟩ (List.mem_append_right _ List.mem_cons_self)
    exact after_task? (hr.numbered hn) hd hne hbefore hleft

end Workflow.Engine
