import Workflow.Proofs.Engine.Pending

/-!
# The file and the table

A save takes three jobs, and between them all other tasks go on: the table may be changed while
an older snapshot of it waits to be written. Still the file differs from the table only as long as a
snapshot is to be taken or to be written. The invariant, `Recorded`, says where the difference is
kept meanwhile:

* whoever changes what the file is to say of the table leaves a snapshot to be taken
  (`run_files`), so while none is to be taken, the snapshots on their way are those of the table;
* a snapshot is taken only while no other one is on its way, because the file lock is held from
  before it is taken until after it is written (`Recorded.alone`).

Here the registry may be read back at any time, not only before the first start (`Roams`).
-/

namespace Workflow

/-- What the file says of a run, without when it was seen and what it holds. -/
def RunRecord.outline (r : RunRecord) :
    String × String × RunStatus × Option String × Option String :=
  (r.runId, r.projectId, r.status, r.currentNode, r.message)

/-- What an event that is no milestone says about a run is not in its outline. -/
theorem RunTable.noted_outline {event : Event} (hm : isMilestone event = false) (r : RunRecord)
    (clock : Instant) : (noted (r.touch clock) event).outline = r.outline := by
  cases event <;> first | rfl | cases hm

namespace Engine

open Engine.Job

/-! ## Roaming -/

/-- What comes of a deed if the registry may be read back at any time. -/
def roam (s : Settings) (e : Engine) : Deed → Option Engine
  | .ask c => some (e.ask c.jobs)
  | d => e.after s d

/-- Going from one engine to another by a row of deeds, if the registry may be read back at any
time. -/
inductive Roams (s : Settings) (e₀ : Engine) : List Moment → Engine → Prop
  /-- nothing happens -/
  | nil : Roams s e₀ [] e₀
  /-- one more deed -/
  | snoc {l : List Moment} {e e' : Engine} {d : Deed} :
      Roams s e₀ l e → e.roam s d = some e' → Roams s e₀ (l ++ [⟨e, d⟩]) e'

theorem Roams.trans {s : Settings} {e₀ e₁ e₂ : Engine} {l₁ l₂ : List Moment}
    (h₁ : Roams s e₀ l₁ e₁) (h₂ : Roams s e₁ l₂ e₂) : Roams s e₀ (l₁ ++ l₂) e₂ := by
  induction h₂ with
  | nil =>
    rw [List.append_nil]
    exact h₁
  | snoc _ hd ih =>
    rw [← List.append_assoc]
    exact ih.snoc hd

/-- A call is a deed. -/
theorem Roams.asked {s : Settings} {e₀ e : Engine} {l : List Moment} (h : Roams s e₀ l e)
    (c : Call) : Roams s e₀ (l ++ [⟨e, .ask c⟩]) (e.ask c.jobs) :=
  h.snoc rfl

theorem roam_of_after {s : Settings} {e e' : Engine} {d : Deed} (h : e.after s d = some e') :
    e.roam s d = some e' := by
  cases d with
  | ask c =>
    rw [after] at h
    split at h
    · exact h
    · cases h
  | _ => exact h

/-- A course is one in which the registry is read back at any time. -/
theorem Runs.roams {s : Settings} {e₀ e : Engine} {l : List Moment} (h : Runs s e₀ l e) :
    Roams s e₀ l e := by
  induction h with
  | nil => exact .nil
  | snoc _ hd ih => exact ih.snoc (roam_of_after hd)

/-- What a deed comes to if the registry may be read back at any time. -/
inductive Turns (s : Settings) (e : Engine) : Deed → Engine → Prop
  /-- a call is taken up -/
  | asked (c : Call) : Turns s e (.ask c) (e.ask c.jobs)
  /-- a task has done its next job -/
  | worked {id : Nat} {job : Job} {rest next : List Job} {reply : Option Reply} {e₁ : Engine} :
      e.task? id = some ⟨job :: rest, reply⟩ → job.run s e = some (next, e₁) →
      Turns s e (.work id) (e₁.setTask id ⟨next ++ rest, job.reply?.or reply⟩)
  /-- anything else -/
  | still {d : Deed} {e' : Engine} : (∀ id, d ≠ .work id) → Still e e' → e'.file = e.file →
      e'.isSaving = e.isSaving → Turns s e d e'

theorem after_file {s : Settings} {e e' : Engine} {d : Deed} (hw : ∀ id, d ≠ .work id)
    (h : e.after s d = some e') : e'.file = e.file ∧ e'.isSaving = e.isSaving := by
  cases d
  case work id => exact absurd rfl (hw id)
  all_goals
    simp only [after] at h
    repeat' split at h
  all_goals cases h
  all_goals exact ⟨rfl, rfl⟩

theorem roam_cases {s : Settings} {e e' : Engine} {d : Deed} (hn : e.Numbered)
    (h : e.roam s d = some e') : Turns s e d e' := by
  have hstill : (∀ c, d ≠ .ask c) → (∀ id, d ≠ .work id) → e.after s d = some e' →
      Turns s e d e' := by
    intro hc hw ha
    obtain ⟨hfile, hsaving⟩ := after_file hw ha
    cases after_cases hn ha with
    | asked => exact absurd rfl (hc _)
    | worked => exact absurd rfl (hw _)
    | still _ _ hsame => exact .still hw hsame hfile hsaving
  cases d with
  | ask c =>
    cases h
    exact .asked c
  | work id =>
    obtain ⟨job, rest, reply, next, e₁, ht, hrun, rfl⟩ := advance_cases h
    exact .worked ht hrun
  | wait | read | leave | edit | collect => exact hstill nofun nofun h

theorem Turns.numbered {s : Settings} {e e' : Engine} {d : Deed} (hn : e.Numbered)
    (h : Turns s e d e') : e'.Numbered := by
  cases h with
  | asked => exact ask_numbered hn _
  | worked ht hrun => exact setTask_numbered (run_numbered hn hrun) (task?_run ht hrun) _
  | still _ hstill => exact hstill.numbered

theorem Roams.numbered {s : Settings} {e₀ e : Engine} {l : List Moment} (h : Roams s e₀ l e)
    (hn : e₀.Numbered) : e.Numbered := by
  induction h with
  | nil => exact hn
  | snoc _ hd ih => exact (roam_cases ih hd).numbered ih

/-- What others do leaves a task alone that has jobs left, also when the registry is read back. -/
theorem roam_task? {s : Settings} {e e' : Engine} {id : Nat} (hn : e.Numbered) {d : Deed}
    (hd : e.roam s d = some e') (hne : d ≠ .work id) {t : Task} (ht : e.task? id = some t)
    (hleft : t.left ≠ []) : e'.task? id = some t := by
  cases d with
  | ask =>
    cases hd
    exact task?_ask hn ht _
  | work | wait | read | leave | edit | collect =>
    simp only [roam] at hd
    exact after_task? hn hd hne ht hleft

/-- What a task has left after its work. -/
theorem roam_work {s : Settings} {e e' : Engine} {id : Nat} {reply : Option Reply}
    (hn : e.Numbered) {job : Job} {rest : List Job} (ht : e.task? id = some ⟨job :: rest, reply⟩)
    (hd : e.roam s (.work id) = some e') :
    ∃ next e₁, job.run s e = some (next, e₁) ∧ ∃ reply', e' = e₁.setTask id ⟨next ++ rest, reply'⟩ ∧
      (next ++ rest ≠ [] → e'.task? id = some ⟨next ++ rest, reply'⟩) := by
  cases roam_cases hn hd with
  | @worked _ _ _ next _ e₁ ht' hrun =>
    cases ht.symm.trans ht'
    exact ⟨next, e₁, hrun, _, rfl, fun hleft =>
      task?_setTask_self (run_numbered hn hrun) (task?_run ht hrun) (Or.inl hleft)⟩
  | still hwork => exact absurd rfl (hwork id)

/-! ## What jobs do to the file -/

/-- Whether a job is about the file. -/
def Job.isFiling : Job → Bool
  | lockFile | snapshot | save _ | unlockFile => true
  | _ => false

/-- What the file is to say of the table. -/
def outlines (e : Engine) : List (String × String × RunStatus × Option String × Option String) :=
  e.table.records.map RunRecord.outline

/-- What is found at the place of the registry after a save. -/
def filed (records : List RunRecord) : Stored → Stored
  | .directory => .directory
  | _ => .text (Registry.write records)

/-- What a job does about the file. -/
inductive Files (e : Engine) : Job → List Job → Engine → Prop
  /-- the file lock was free -/
  | locked : e.isSaving = false → Files e .lockFile [] { e with isSaving := true }
  /-- a snapshot was taken -/
  | snapped : Files e .snapshot [.save e.table.records] e
  /-- a snapshot was written -/
  | saved (records : List RunRecord) :
      Files e (.save records) [.unlockFile] { e with file := filed records e.file }
  /-- the file lock was given back -/
  | unlocked : Files e .unlockFile [] { e with isSaving := false }
  /-- the table is to be saved, whatever was done to it -/
  | changed {job : Job} {back : List Job} {e₁ : Engine} : job.isFiling = false →
      (∀ j ∈ back, j.isFiling = false) → e₁.file = e.file → e₁.isSaving = e.isSaving →
      Files e job (saving ++ back) e₁
  /-- nothing was done that the file is to say -/
  | quiet {job : Job} {next : List Job} {e₁ : Engine} : job.isFiling = false →
      (∀ j ∈ next, j.isFiling = false) → e₁.file = e.file → e₁.isSaving = e.isSaving →
      e₁.outlines = e.outlines → Files e job next e₁

section Filing

variable {s : Settings} {e e₁ : Engine} {job : Job} {next : List Job}

theorem publishing_isFiling {project run : String} {event : Event} :
    ∀ j ∈ publishing project run event, j.isFiling = false := by
  intro j hj
  obtain ⟨_, -, rfl | rfl⟩ := mem_publishing hj <;> rfl

/-- A job aside that is not about the file leaves it alone. -/
theorem aside_files (ha : job.isAside) (hq : job.isFiling = false)
    (h : job.run s e = some (next, e₁)) :
    (∀ j ∈ next, j.isFiling = false) ∧ e₁.file = e.file ∧ e₁.isSaving = e.isSaving := by
  cases job
  all_goals first
    | cases ha; done
    | cases hq; done
    | skip
  case plan =>
    cases h
    refine ⟨fun j hj => ?_, rfl, rfl⟩
    obtain ⟨decision, -, hj⟩ := List.mem_flatMap.mp hj
    cases decision <;> simp only [ofDecision, List.mem_cons, List.not_mem_nil, or_false] at hj
    · rcases hj with rfl | rfl <;> rfl
    · subst hj
      rfl
  case dropMissing ids =>
    cases h
    refine ⟨fun j hj => ?_, rfl, rfl⟩
    obtain ⟨project, -, rfl⟩ := List.mem_map.mp hj
    rfl
  case shutDown =>
    cases h
    refine ⟨List.forall_mem_append.mpr ⟨fun j hj => ?_, by simp [Job.isFiling]⟩, rfl, rfl⟩
    obtain ⟨run, -, rfl⟩ := List.mem_map.mp hj
    rfl
  case loadProjects =>
    simp only [Job.run] at h
    repeat' split at h
    all_goals cases h
    · exact ⟨List.forall_mem_nil _, rfl, rfl⟩
    · exact ⟨List.forall_mem_nil _, rfl, rfl⟩
    · refine ⟨List.forall_mem_append.mpr ⟨fun j hj => ?_, by simp [Job.isFiling]⟩, rfl, rfl⟩
      obtain ⟨p, -, rfl⟩ := List.mem_map.mp hj
      rfl
  -- all others leave a fixed row of jobs to do
  all_goals
    simp only [Job.run, writeDown] at h
    repeat' split at h
  all_goals
    cases h
  all_goals exact ⟨by simp [replying, Job.isFiling], rfl, rfl⟩

theorem outlines_of_table (h : e₁.table = e.table) : e₁.outlines = e.outlines := by
  rw [outlines, h]
  rfl

/-- A record that changes in nothing that the file is to say. -/
theorem outlines_put {t : RunTable} (ht : t.Tidy) {run : String} {h h' : Handle}
    (hf : t.find? run = some h) (ho : h'.record.outline = h.record.outline) :
    (RunTable.records (Fields.put t run h')).map RunRecord.outline =
      t.records.map RunRecord.outline := by
  rw [RunTable.records, RunTable.records, List.map_map, List.map_map]
  exact ht.sorted.map_put hf ho

theorem follow_files {project run : String} (ht : e.table.Tidy)
    (hf : Followed s e project run next e₁) : Files e (.drive project run) next e₁ := by
  cases hf with
  | gone => exact .quiet rfl (List.forall_mem_nil _) rfl rfl rfl
  | done => exact .quiet rfl (by simp [Job.isFiling]) rfl rfl rfl
  | @event w event rest =>
    have hback : ∀ j ∈ publishing project run event ++ [.drive project run], j.isFiling = false :=
      List.forall_mem_append.mpr ⟨publishing_isFiling, by simp [Job.isFiling]⟩
    rw [List.append_assoc]
    cases hsave : (e.table.observe run event (e.readClock s).1).1 with
    | true => exact .changed rfl hback rfl rfl
    | false =>
      refine .quiet rfl hback rfl rfl ?_
      change ((e.table.observe run event (e.readClock s).1).2.records).map _ = _
      rw [RunTable.observe] at hsave ⊢
      split
      · next h hf =>
        rw [hf] at hsave
        exact outlines_put ht hf (RunTable.noted_outline hsave ..)
      · rfl
  | beat =>
    cases hsave : (e.table.beat run (e.readClock s).1).1 with
    | true => exact .changed rfl (by simp [Job.isFiling]) rfl rfl
    | false =>
      refine .quiet rfl (by simp [Job.isFiling]) rfl rfl ?_
      change ((e.table.beat run (e.readClock s).1).2.records).map _ = _
      rw [RunTable.beat] at hsave ⊢
      split
      · next h hf =>
        rw [hf] at hsave
        split
        · next ha => simp [ha] at hsave
        · rfl
      · rfl

theorem settle_files {project run : String} (hs : Settled s e project run next e₁) :
    Files e (.settle project run) next e₁ := by
  cases hs with
  | gone => exact .quiet rfl (List.forall_mem_nil _) rfl rfl rfl
  | unknown => exact .quiet rfl (List.forall_mem_nil _) rfl rfl rfl
  | @known w h =>
    rw [List.append_assoc]
    refine .changed rfl (List.forall_mem_append.mpr ⟨?_, ?_⟩) rfl rfl
    · cases dueAt h w (e.readClock s).1 with
      | none => exact List.forall_mem_nil _
      | some event => exact publishing_isFiling
    · split <;> simp [Job.isFiling]

/-- **What jobs do about the file**: who changes what it is to say leaves a save to do. -/
theorem run_files (h : job.run s e = some (next, e₁)) (ht : e.table.Tidy) :
    Files e job next e₁ := by
  cases hq : job.isFiling with
  | true =>
    cases job
    case lockFile =>
      simp only [Job.run] at h
      split at h
      · cases h
      · next hfree =>
        cases h
        exact .locked (Bool.eq_false_iff.mpr hfree)
    case snapshot =>
      cases h
      exact .snapped
    case save records =>
      cases h
      exact .saved records
    case unlockFile =>
      cases h
      exact .unlocked
    all_goals cases hq
  | false =>
    cases run_cases h with
    | aside ha hframe _ =>
      obtain ⟨hnext, hfile, hsaving⟩ := aside_files ha hq h
      exact .quiet hq hnext hfile hsaving (outlines_of_table hframe.table)
    | enrolled project definition vars =>
      rw [enrolling, List.append_assoc, List.append_assoc]
      refine .changed rfl (List.forall_mem_append.mpr ⟨?_, List.forall_mem_append.mpr
        ⟨publishing_isFiling, by simp [Job.isFiling]⟩⟩) rfl rfl
      split <;> simp [Job.isFiling]
    | stopped =>
      rw [List.append_assoc]
      refine .changed rfl (List.forall_mem_append.mpr
        ⟨publishing_isFiling, by simp [replying, Job.isFiling]⟩) ?_ ?_
      · split
        · obtain ⟨walks, heq⟩ := (e.readClock s).2.cancel_eq _
          rw [heq]
          rfl
        · rfl
      · split
        · obtain ⟨walks, heq⟩ := (e.readClock s).2.cancel_eq _
          rw [heq]
          rfl
        · rfl
    | removed => exact .changed rfl (by simp [replying, Job.isFiling]) rfl rfl
    | restored => exact .changed rfl (by simp [replying, Job.isFiling]) rfl rfl
    | followed hf => exact follow_files ht hf
    | settled hs => exact settle_files hs
    | _ => exact .quiet rfl (by simp [replying, Job.isFiling]) rfl rfl rfl

theorem spawned_isFiling (e : Engine) (job : Job) :
    ∀ j ∈ (job.spawned e).flatten, j.isFiling = false := by
  cases job <;> simp [Job.spawned, Job.isFiling]

theorem jobs_isFiling (c : Call) : ∀ j ∈ c.jobs, j.isFiling = false := by
  cases c with
  | send run m => cases m <;> simp [Call.jobs, Job.isFiling]
  | _ => simp [Call.jobs, passing, Job.isFiling]

end Filing

/-! ## The file lock -/

/-- Whether a job takes the file lock. -/
def Job.locksFile : Job → Bool
  | lockFile => true
  | _ => false

/-- Whether a job takes a snapshot of the table. -/
def Job.snaps : Job → Bool
  | snapshot => true
  | _ => false

/-- Whether a job comes after a snapshot, under the same lock. -/
def Job.winds : Job → Bool
  | save _ | unlockFile => true
  | _ => false

/-- Whoever takes the file lock takes a snapshot next. -/
def Paired : List Job → Prop
  | [] => True
  | j :: rest => (j.locksFile = true → rest.head? = some .snapshot) ∧ Paired rest

theorem paired_of_isFiling {jobs : List Job} (h : ∀ j ∈ jobs, j.isFiling = false) :
    Paired jobs := by
  induction jobs with
  | nil => exact trivial
  | cons j rest ih =>
    refine ⟨fun hj => ?_, ih fun j' hj' => h j' (List.mem_cons_of_mem _ hj')⟩
    have hnot := h j List.mem_cons_self
    cases j <;> first | cases hj; done | cases hnot

theorem Paired.append {next rest : List Job} (hn : Paired next) (hr : Paired rest) :
    Paired (next ++ rest) := by
  induction next with
  | nil => exact hr
  | cons j more ih =>
    refine ⟨fun hj => ?_, ih hn.2⟩
    change (more ++ rest).head? = _
    rw [List.head?_append, hn.1 hj]
    rfl

theorem Files.paired {e e₁ : Engine} {job : Job} {next : List Job} (h : Files e job next e₁) :
    Paired next := by
  cases h with
  | locked | unlocked => exact trivial
  | snapped | saved => exact ⟨nofun, trivial⟩
  | changed _ hback => exact ⟨fun _ => rfl, nofun, paired_of_isFiling hback⟩
  | quiet _ hnext => exact paired_of_isFiling hnext

/-- There are no more locks to take than snapshots, and fewer where a snapshot comes first. -/
theorem Paired.countP_le {jobs : List Job} (h : Paired jobs) :
    jobs.countP Job.locksFile + (jobs.head?.any Job.snaps).toNat ≤ jobs.countP Job.snaps := by
  induction jobs with
  | nil => exact Nat.le_refl _
  | cons j rest ih =>
    have hrest := ih h.2
    rw [List.countP_cons, List.countP_cons]
    cases j with
    | lockFile =>
      rw [h.1 rfl] at hrest
      exact hrest
    | snapshot =>
      have hle := Nat.le_trans (Nat.le_add_right _ _) hrest
      exact Nat.succ_le_succ hle
    | _ => exact Nat.le_trans (Nat.le_add_right _ _) hrest

theorem countP_locksFile_le {l : List (Nat × Task)} (h : ∀ x ∈ l, Paired x.2.left) :
    (l.flatMap fun x => x.2.left).countP Job.locksFile ≤
      (l.flatMap fun x => x.2.left).countP Job.snaps := by
  induction l with
  | nil => exact Nat.le_refl _
  | cons x rest ih =>
    have hx := (h x List.mem_cons_self).countP_le
    have hrest := ih fun y hy => h y (List.mem_cons_of_mem _ hy)
    rw [List.flatMap_cons, List.countP_append, List.countP_append]
    omega

theorem countP_filing {jobs : List Job} (h : ∀ j ∈ jobs, j.isFiling = false) :
    jobs.countP Job.snaps = 0 ∧ jobs.countP Job.winds = 0 ∧ jobs.countP Job.locksFile = 0 := by
  refine ⟨countP_none.mpr fun j hj => ?_, countP_none.mpr fun j hj => ?_,
    countP_none.mpr fun j hj => ?_⟩
  all_goals
    have hj := h j hj
    cases j <;> first | rfl | cases hj

/-- **The file lock goes from job to job**: who takes it has a snapshot to take, and then to
write, and gives it back after that. -/
theorem Files.lock {e e₁ : Engine} {job : Job} {next : List Job} (h : Files e job next e₁)
    (hheld : job.winds = true → e.isSaving = true) :
    next.countP Job.snaps + next.countP Job.winds + job.locksFile.toNat + e.isSaving.toNat =
      next.countP Job.locksFile + job.snaps.toNat + job.winds.toNat + e₁.isSaving.toNat := by
  have hjob : job.isFiling = false → job.locksFile = false ∧ job.snaps = false ∧
      job.winds = false := by
    intro hq
    cases job <;> first | exact ⟨rfl, rfl, rfl⟩ | cases hq
  cases h with
  | locked hfree =>
    rw [hfree]
    rfl
  | snapped | saved => simp [Job.snaps, Job.winds, Job.locksFile]
  | unlocked =>
    rw [hheld rfl]
    rfl
  | changed hq hback _ hsaving =>
    obtain ⟨h₁, h₂, h₃⟩ := countP_filing hback
    obtain ⟨h₄, h₅, h₆⟩ := hjob hq
    rw [List.countP_append, List.countP_append, List.countP_append, h₁, h₂, h₃, h₄, h₅, h₆, hsaving]
    rfl
  | quiet hq hnext _ hsaving =>
    obtain ⟨h₁, h₂, h₃⟩ := countP_filing hnext
    obtain ⟨h₄, h₅, h₆⟩ := hjob hq
    rw [h₁, h₂, h₃, h₄, h₅, h₆, hsaving]
    rfl

/-! ## The invariant -/

/-- The snapshot that a moment writes to the file, if it writes one. -/
def Moment.saved? (m : Moment) : Option (List RunRecord) :=
  match m.job? with
  | some (.save records) => some records
  | _ => none

/-- What was written was written before, if a moment writes nothing. -/
theorem saved_snoc {l : List Moment} {m : Moment} (hm : m.saved? = none)
    (h : ∃ m' ∈ l ++ [m], m'.saved?.isSome = true) : ∃ m' ∈ l, m'.saved?.isSome = true := by
  obtain ⟨m', hm', hsaved⟩ := h
  refine ⟨m', ?_, hsaved⟩
  rcases List.mem_append.mp hm' with hm' | hm'
  · exact hm'
  · obtain rfl := List.mem_singleton.mp hm'
    rw [hm] at hsaved
    cases hsaved

/-- What was a moment is one. -/
theorem exists_mem_snoc {l : List Moment} {P : Moment → Prop} {m : Moment} (h : ∃ m ∈ l, P m) :
    ∃ m' ∈ l ++ [m], P m' := by
  obtain ⟨m', hm', hP⟩ := h
  exact ⟨m', List.mem_append_left _ hm', hP⟩

/-- Where the file is behind the table, and that it is not otherwise. -/
structure Recorded (l : List Moment) (e : Engine) : Prop where
  /-- tasks have numbers of their own -/
  numbered : e.Numbered
  /-- records stand under their ids -/
  tidy : e.table.Tidy
  /-- whoever takes the file lock takes a snapshot next -/
  paired : ∀ x ∈ e.tasks, Paired x.2.left
  /-- one job comes after the lock, if somebody holds it -/
  lock : e.pending.countP Job.snaps + e.pending.countP Job.winds =
    e.pending.countP Job.locksFile + e.isSaving.toNat
  /-- there is no directory in the place of the file -/
  isFree : e.file ≠ .directory
  /-- what is to be written is a table of the past -/
  due : ∀ records, .save records ∈ e.pending →
    ∃ m ∈ l, m.job? = some .snapshot ∧ m.before.table.records = records
  /-- what was written is one -/
  stored : (∃ m ∈ l, m.saved?.isSome = true) → ∃ m ∈ l, m.job? = some .snapshot ∧
    e.file = .text (Registry.write m.before.table.records)
  /-- what is to be written is what the file is to say, unless a snapshot is still to come -/
  current : .snapshot ∉ e.pending → ∀ records, .save records ∈ e.pending →
    records.map RunRecord.outline = e.outlines
  /-- what was written is what the file is to say, unless something is to be written -/
  written : (∃ m ∈ l, m.saved?.isSome = true) → .snapshot ∉ e.pending →
    (∀ records, .save records ∉ e.pending) → ∃ m ∈ l, m.job? = some .snapshot ∧
      e.file = .text (Registry.write m.before.table.records) ∧ m.before.outlines = e.outlines

section Work

variable {s : Settings} {l : List Moment} {e e₁ : Engine} {id : Nat} {job : Job}
  {rest next : List Job} {reply reply' : Option Reply}

theorem Recorded.held (hr : Recorded l e) (hj : job ∈ e.pending) (hw : job.winds = true) :
    e.isSaving = true := by
  have hle := countP_locksFile_le hr.paired
  have hpos := List.countP_pos_iff.mpr ⟨job, hj, hw⟩
  have hlock := hr.lock
  change e.pending.countP _ ≤ e.pending.countP _ at hle
  cases hb : e.isSaving with
  | true => rfl
  | false =>
    rw [hb, Bool.toNat_false] at hlock
    omega

/-- **A snapshot is taken alone**: no other one is on its way. -/
theorem Recorded.alone (hr : Recorded l e) (ht : e.task? id = some ⟨.snapshot :: rest, reply⟩)
    (records : List RunRecord) : .save records ∉ e.pending := by
  obtain ⟨front, back, hsplit, -, -⟩ := tasks_split hr.numbered ht
  have hpaired := hr.paired
  rw [hsplit] at hpaired
  have hfront := countP_locksFile_le (l := front) fun x hx =>
    hpaired x (List.mem_append_left _ hx)
  have hback := countP_locksFile_le (l := back) fun x hx =>
    hpaired x (List.mem_append_right _ (List.mem_cons_of_mem _ hx))
  -- the task itself has fewer locks to take than snapshots
  have hmid := (hpaired (id, ⟨.snapshot :: rest, reply⟩)
    (List.mem_append_right _ List.mem_cons_self)).countP_le
  have hlock := hr.lock
  have hsaving := Bool.toNat_le e.isSaving
  have hpending : e.pending = front.flatMap (fun x => x.2.left) ++ ((.snapshot :: rest) ++
      back.flatMap fun x => x.2.left) := by
    rw [pending, hsplit, List.flatMap_append, List.flatMap_cons]
  have hnone : e.pending.countP Job.winds = 0 := by
    rw [hpending] at hlock ⊢
    simp only [List.countP_append] at hlock ⊢
    simp only [List.head?_cons, Option.any_some, Job.snaps, Bool.toNat_true] at hmid
    omega
  intro hmem
  have hnot := countP_none.mp hnone _ hmem
  cases hnot

/-- The invariant is kept by what leaves the file alone and all that it is to say. -/
theorem Recorded.carry (hr : Recorded l e) {m : Moment} (hm : m.saved? = none) {e' : Engine}
    (hn : e'.Numbered) (ht : e'.table.Tidy) (hp : ∀ x ∈ e'.tasks, Paired x.2.left)
    (hlock : e'.pending.countP Job.snaps + e'.pending.countP Job.winds =
      e'.pending.countP Job.locksFile + e'.isSaving.toNat)
    (hsnap : .snapshot ∈ e.pending → .snapshot ∈ e'.pending)
    (hsave : ∀ records, .save records ∈ e'.pending ↔ .save records ∈ e.pending)
    (hfile : e'.file = e.file) (hsame : e'.outlines = e.outlines) : Recorded (l ++ [m]) e' where
  numbered := hn
  tidy := ht
  paired := hp
  lock := hlock
  isFree := by
    rw [hfile]
    exact hr.isFree
  due := fun records hmem => exists_mem_snoc (hr.due records ((hsave records).mp hmem))
  stored := by
    intro hsaved
    rw [hfile]
    exact exists_mem_snoc (hr.stored (saved_snoc hm hsaved))
  current := by
    intro hno records hmem
    rw [hsame]
    exact hr.current (fun h => hno (hsnap h)) records ((hsave records).mp hmem)
  written := by
    intro hsaved hno hnone
    rw [hsame, hfile]
    exact exists_mem_snoc (hr.written (saved_snoc hm hsaved) (fun h => hno (hsnap h))
      fun records hmem => hnone records ((hsave records).mpr hmem))

/-- Only a save changes the file. -/
theorem run_file (h : job.run s e = some (next, e₁)) (ht : e.table.Tidy)
    (hsave : ∀ records, job ≠ .save records) : e₁.file = e.file := by
  cases run_files h ht with
  | locked | snapped | unlocked => rfl
  | saved records => exact absurd rfl (hsave records)
  | changed _ _ hfile => exact hfile
  | quiet _ _ hfile => exact hfile

/-- Only a snapshot leaves a save to do. -/
theorem mem_next_save (h : job.run s e = some (next, e₁)) (ht : e.table.Tidy)
    {records : List RunRecord} (hmem : .save records ∈ next) :
    job = .snapshot ∧ records = e.table.records := by
  cases run_files h ht with
  | locked | unlocked => cases hmem
  | snapped =>
    cases List.mem_singleton.mp hmem
    exact ⟨rfl, rfl⟩
  | saved => cases List.mem_singleton.mp hmem
  | changed _ hback =>
    rcases List.mem_append.mp hmem with hmem | hmem
    · simp [saving] at hmem
    · cases hback _ hmem
  | quiet _ hnext => cases hnext _ hmem

/-- A save writes the snapshot that it brings, and that is a table of the past. -/
theorem Recorded.stored_work (hr : Recorded l e) (ht : e.task? id = some ⟨job :: rest, reply⟩)
    (h : job.run s e = some (next, e₁))
    (hsaved : ∃ m ∈ l ++ [⟨e, .work id⟩], m.saved?.isSome = true) :
    ∃ m ∈ l ++ [⟨e, .work id⟩], m.job? = some .snapshot ∧
      e₁.file = .text (Registry.write m.before.table.records) := by
  have hm : (⟨e, .work id⟩ : Moment).job? = some job := job?_work ht
  by_cases hsave : ∃ records, job = .save records
  · obtain ⟨records, rfl⟩ := hsave
    obtain ⟨m', hm', hsnap, rfl⟩ := hr.due records (mem_pending ht List.mem_cons_self)
    cases h
    refine ⟨m', List.mem_append_left _ hm', hsnap, ?_⟩
    have hfree := hr.isFree
    change filed _ e.file = _
    cases hf : e.file <;> first | rfl | exact absurd hf hfree
  · rw [run_file h hr.tidy fun records heq => hsave ⟨records, heq⟩]
    refine exists_mem_snoc (hr.stored (saved_snoc ?_ hsaved))
    rw [Moment.saved?, hm]
    cases job <;> first | rfl | exact absurd ⟨_, rfl⟩ hsave

/-- The work of a task keeps the invariant. -/
theorem Recorded.work (hr : Recorded l e) (ht : e.task? id = some ⟨job :: rest, reply⟩)
    (h : job.run s e = some (next, e₁)) :
    Recorded (l ++ [⟨e, .work id⟩]) (e₁.setTask id ⟨next ++ rest, reply'⟩) := by
  have hfiles := run_files h hr.tidy
  have hj : job ∈ e.pending := mem_pending ht List.mem_cons_self
  have hn := setTask_numbered (run_numbered hr.numbered h) (task?_run ht h) ⟨next ++ rest, reply'⟩
  have htidy := run_tidy h hr.tidy
  have hpaired : ∀ x ∈ (e₁.setTask id ⟨next ++ rest, reply'⟩).tasks, Paired x.2.left := by
    intro x hx
    rcases mem_tasks_advance h hx with rfl | hx | hx
    · exact hfiles.paired.append (hr.paired _ (task_mem ht)).2
    · exact hr.paired x hx
    · exact paired_of_isFiling fun j hj => spawned_isFiling e job j (List.mem_flatten.mpr ⟨_, hx, hj⟩)
  have hlock : (e₁.setTask id ⟨next ++ rest, reply'⟩).pending.countP Job.snaps +
      (e₁.setTask id ⟨next ++ rest, reply'⟩).pending.countP Job.winds =
        (e₁.setTask id ⟨next ++ rest, reply'⟩).pending.countP Job.locksFile +
          e₁.isSaving.toNat := by
    have hcount := fun q => countP_pending_work q hr.numbered ht h reply'
    obtain ⟨h₁, h₂, h₃⟩ := countP_filing (spawned_isFiling e job)
    have hsnaps := hcount Job.snaps
    have hwinds := hcount Job.winds
    have hlocks := hcount Job.locksFile
    have hbalance := hfiles.lock (hr.held hj)
    have hold := hr.lock
    omega
  have hcame : ∀ {j}, j ∈ (e₁.setTask id ⟨next ++ rest, reply'⟩).pending → j.isFiling = true →
      j ∈ e.pending ∨ j ∈ next := by
    intro j hj hq
    refine forall_pending_work hr.numbered ht h
      (P := fun j => j.isFiling = true → j ∈ e.pending ∨ j ∈ next) (fun j hj _ => Or.inl hj)
      (fun j hj hq => ?_) j hj hq
    rcases hj with hj | hj
    · exact Or.inr hj
    · cases hq.symm.trans (spawned_isFiling e job j hj)
  have hstays := fun j => mem_pending_work hr.numbered ht h reply' (j := j)
  have hdue : ∀ records, .save records ∈ (e₁.setTask id ⟨next ++ rest, reply'⟩).pending →
      ∃ m ∈ l ++ [⟨e, .work id⟩], m.job? = some .snapshot ∧ m.before.table.records = records := by
    intro records hmem
    rcases hcame hmem rfl with hmem | hmem
    · exact exists_mem_snoc (hr.due records hmem)
    · obtain ⟨rfl, rfl⟩ := mem_next_save h hr.tidy hmem
      exact ⟨_, List.mem_append_right _ List.mem_cons_self, job?_work ht, rfl⟩
  have hstored := hr.stored_work ht h
  -- a job that is not about what is written
  have hcarry : job ≠ .snapshot → (∀ records, job ≠ .save records) →
      (∀ records, .save records ∉ next) → e₁.file = e.file → e₁.outlines = e.outlines →
      Recorded (l ++ [⟨e, .work id⟩]) (e₁.setTask id ⟨next ++ rest, reply'⟩) := by
    intro hsnap hsave hnext hfile hsame
    refine hr.carry ?_ hn htidy hpaired hlock ?_ (fun records => ⟨fun hmem => ?_, fun hmem => ?_⟩)
      hfile hsame
    · rw [Moment.saved?, job?_work ht]
      cases job <;> first | rfl | exact absurd rfl (hsave _)
    · exact fun hmem => (hstays _ (Or.inl hmem)).resolve_left (Ne.symm hsnap)
    · exact (hcame hmem rfl).resolve_right (hnext records)
    · exact (hstays _ (Or.inl hmem)).resolve_left (Ne.symm (hsave records))
  cases hfiles with
  | locked => exact hcarry (by rintro ⟨⟩) (by rintro _ ⟨⟩) (by rintro _ ⟨⟩) rfl rfl
  | unlocked => exact hcarry (by rintro ⟨⟩) (by rintro _ ⟨⟩) (by rintro _ ⟨⟩) rfl rfl
  | quiet hq hnext hfile hsaving hsame =>
    refine hcarry ?_ ?_ ?_ hfile hsame
    · rintro rfl
      cases hq
    · rintro records rfl
      cases hq
    · intro records hmem
      cases hnext _ hmem
  | @changed _ back _ hq _ hfile =>
    -- the snapshot that is left to be taken excuses everything
    have hsnap : .snapshot ∈ (e₁.setTask id ⟨saving ++ back ++ rest, reply'⟩).pending := by
      have hnext : .snapshot ∈ saving ++ back := by simp [saving]
      refine (hstays _ (Or.inr hnext)).resolve_left ?_
      rintro rfl
      cases hq
    refine ⟨hn, htidy, hpaired, hlock, ?_, hdue, hstored, fun hno => absurd hsnap hno,
      fun _ hno => absurd hsnap hno⟩
    change e₁.file ≠ _
    rw [hfile]
    exact hr.isFree
  | snapped =>
    have hsave : .save e.table.records ∈
        (e.setTask id ⟨[.save e.table.records] ++ rest, reply'⟩).pending :=
      (hstays _ (Or.inr List.mem_cons_self)).resolve_left (by rintro ⟨⟩)
    refine ⟨hn, htidy, hpaired, hlock, hr.isFree, hdue, hstored,
      fun _ records hmem => ?_, fun _ _ hnone => absurd hsave (hnone _)⟩
    rcases hcame hmem rfl with hmem | hmem
    · exact absurd hmem (hr.alone ht records)
    · cases List.mem_singleton.mp hmem
      rfl
  | saved records =>
    have hno : .snapshot ∉ (({ e with file := filed records e.file } : Engine).setTask id
        ⟨[.unlockFile] ++ rest, reply'⟩).pending → .snapshot ∉ e.pending := fun hno hmem =>
      hno ((hstays _ (Or.inl hmem)).resolve_left (by rintro ⟨⟩))
    have hfile : filed records e.file = .text (Registry.write records) := by
      have hfree := hr.isFree
      cases hf : e.file <;> first | rfl | exact absurd hf hfree
    refine ⟨hn, htidy, hpaired, hlock, ?_, hdue, hstored, fun hsnap other hmem => ?_,
      fun _ hsnap _ => ?_⟩
    · change filed records e.file ≠ _
      rw [hfile]
      rintro ⟨⟩
    · rcases hcame hmem rfl with hmem | hmem
      · exact hr.current (hno hsnap) other hmem
      · cases List.mem_singleton.mp hmem
    · obtain ⟨m, hm, hjob, rfl⟩ := hr.due records hj
      exact ⟨m, List.mem_append_left _ hm, hjob, hfile, hr.current (hno hsnap) _ hj⟩

/-- A call keeps the invariant. -/
theorem Recorded.ask (hr : Recorded l e) (c : Call) :
    Recorded (l ++ [⟨e, .ask c⟩]) (e.ask c.jobs) := by
  have hnone := jobs_isFiling c
  refine hr.carry rfl (ask_numbered hr.numbered _) hr.tidy ?_ ?_ ?_ (fun records => ?_) rfl rfl
  · intro x hx
    rcases List.mem_cons.mp hx with rfl | hx
    · exact paired_of_isFiling hnone
    · exact hr.paired x hx
  · obtain ⟨h₁, h₂, h₃⟩ := countP_filing hnone
    have hlock := hr.lock
    simp only [pending_ask, List.countP_append, h₁, h₂, h₃, Nat.zero_add]
    exact hlock
  · exact List.mem_append_right _
  · refine ⟨fun hmem => ?_, List.mem_append_right _⟩
    rcases List.mem_append.mp hmem with hmem | hmem
    · exact nomatch hnone _ hmem
    · exact hmem

/-- **A step**: every deed keeps the invariant. -/
theorem Recorded.step (hr : Recorded l e) {d : Deed} {e' : Engine} (h : e.roam s d = some e') :
    Recorded (l ++ [⟨e, d⟩]) e' := by
  cases roam_cases hr.numbered h with
  | asked c => exact hr.ask c
  | worked ht hrun => exact hr.work ht hrun
  | still hd hstill hfile hsaving =>
    have hnone : (⟨e, d⟩ : Moment).saved? = none := by rw [Moment.saved?, job?_of_ne hd]
    refine hr.carry hnone hstill.numbered ?_ (fun x hx => hr.paired x (hstill.tasks x hx)) ?_ ?_
      (fun records => ?_) hfile (outlines_of_table hstill.table)
    · rw [hstill.table]
      exact hr.tidy
    · rw [hstill.pending, hsaving]
      exact hr.lock
    · rw [hstill.pending]
      exact id
    · rw [hstill.pending]

end Work

theorem recorded_fresh {file : Stored} (hf : file ≠ .directory)
    (source : Option (Option (Fields String))) (buffer busCapacity : Nat) :
    Recorded [] (fresh file source buffer busCapacity) where
  numbered := fresh_numbered file source buffer busCapacity
  tidy := ⟨List.Pairwise.nil, nofun⟩
  paired := List.forall_mem_nil _
  lock := rfl
  isFree := hf
  due := fun _ hmem => nomatch hmem
  stored := fun ⟨_, hm, _⟩ => nomatch hm
  current := fun _ _ hmem => nomatch hmem
  written := fun ⟨_, hm, _⟩ => nomatch hm

/-- **A run**: the invariant holds of whatever a fresh engine comes to. -/
theorem Roams.recorded {s : Settings} {file : Stored} {source : Option (Option (Fields String))}
    {buffer busCapacity : Nat} {l : List Moment} {e : Engine} (hf : file ≠ .directory)
    (h : Roams s (fresh file source buffer busCapacity) l e) : Recorded l e := by
  induction h with
  | nil => exact recorded_fresh hf source buffer busCapacity
  | snoc _ hd ih => exact ih.step hd

end Engine

end Workflow
