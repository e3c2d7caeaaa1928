import Workflow.Proofs.Engine.Saving
import Workflow.Proofs.Registry

/-!
# Reading the file back

As soon as no snapshot is to be taken or to be written, the file agrees with the table
(`Roams.file_agrees`). At any time it is the table as it was when a snapshot of it was taken. It is
read back, with all runs at rest, if the reader gets through what the active runs hold; else it is
refused, and whoever asks for it gets nothing back (`Roams.reloaded`).

Nobody else refuses such runs. They are started, stepped and written like all others, since neither
definitions nor variables have a limit of their own.
-/

namespace Workflow

/-! ## Moments in the calendar -/

namespace RunRecord

theorem IsProper.touch {r : RunRecord} (h : r.IsProper) {clock : Instant} (hc : clock.IsProper) :
    (r.touch clock).IsProper :=
  ⟨h.startedAt, hc⟩

theorem IsProper.noted {r : RunRecord} (h : r.IsProper) (event : Event) :
    (RunTable.noted r event).IsProper := by
  cases event <;> exact ⟨h.startedAt, h.lastHeartbeat⟩

theorem IsProper.settled {r : RunRecord} (h : r.IsProper) (result : WalkResult) :
    (RunTable.settled r result).1.IsProper := by
  cases result with
  | broken => exact ⟨h.startedAt, h.lastHeartbeat⟩
  | report report =>
    simp only [RunTable.settled]
    split
    · exact ⟨h.startedAt, h.lastHeartbeat⟩
    · split <;> exact ⟨h.startedAt, h.lastHeartbeat⟩

end RunRecord

namespace RunTable

/-- All records of a table name moments in the calendar. -/
def IsProper (t : RunTable) : Prop :=
  ∀ (id : String) (h : Handle), t.find? id = some h → h.record.IsProper

variable {t : RunTable}

theorem IsProper.record (ht : t.IsProper) (htidy : t.Tidy) : ∀ r ∈ t.records, r.IsProper := by
  intro r hr
  obtain ⟨h, hf, rfl⟩ := htidy.find?_of_mem hr
  exact ht _ _ hf

theorem IsProper.put (ht : t.IsProper) (id : String) {h : Handle} (hp : h.record.IsProper) :
    IsProper (Fields.put t id h) := by
  intro other h' hf
  rw [Fields.find?_put] at hf
  split at hf
  · exact Option.some.inj hf ▸ hp
  · exact ht _ _ hf

theorem IsProper.erase (ht : t.IsProper) (id : String) : IsProper (Fields.erase t id) := by
  intro other h hf
  rw [Fields.find?_erase] at hf
  split at hf
  · cases hf
  · exact ht _ _ hf

theorem IsProper.enlist (ht : t.IsProper) (keep : Nat) {r : RunRecord} (hr : r.IsProper) :
    IsProper (t.enlist keep r) := by
  refine IsProper.put ?_ r.runId hr
  unfold RunTable.prune
  generalize t.excess r.projectId keep = rs
  induction rs generalizing t with
  | nil => exact ht
  | cons r rest ih => exact ih (ht.erase r.runId)

theorem IsProper.restore (ht : t.IsProper) {rs : List RunRecord} (hrs : ∀ r ∈ rs, r.IsProper) :
    IsProper (t.restore rs) := by
  unfold RunTable.restore
  induction rs generalizing t with
  | nil => exact ht
  | cons r rest ih =>
    obtain ⟨hr, hrest⟩ := List.forall_mem_cons.mp hrs
    exact ih (ht.put r.runId hr) hrest

theorem IsProper.observe (ht : t.IsProper) (id : String) (event : Event) {clock : Instant}
    (hc : clock.IsProper) : IsProper (t.observe id event clock).2 := by
  unfold RunTable.observe
  split
  · next h hf => exact ht.put id (((ht _ _ hf).touch hc).noted event)
  · exact ht

theorem IsProper.beat (ht : t.IsProper) (id : String) {clock : Instant} (hc : clock.IsProper) :
    IsProper (t.beat id clock).2 := by
  unfold RunTable.beat
  split
  · next h hf =>
    split
    · exact ht.put id ((ht _ _ hf).touch hc)
    · exact ht
  · exact ht

end RunTable

namespace Engine

open Engine.Job
open RunRecord (rested)

section Moments

variable {s : Settings} {e e₁ : Engine} {job : Job} {next : List Job}

/-- A clock that shows a year that the calendar knows shows a moment in the calendar. -/
theorem readClock_proper (h : Instant.isYear (e.readClock s).1.year = true) :
    (e.readClock s).1.IsProper :=
  Instant.ofEpochNanos_proper h

/-- What a job does to the table leaves moments in the calendar. -/
theorem run_proper (h : job.run s e = some (next, e₁)) (ht : e.table.IsProper)
    (hyear : Instant.isYear (e.readClock s).1.year = true)
    (hrestore : ∀ records, job = .restore records → ∀ r ∈ records, r.IsProper) :
    e₁.table.IsProper := by
  have hclock := readClock_proper hyear
  cases run_cases h with
  | aside _ ha _ =>
    rw [ha.table]
    exact ht
  | enrolled => exact ht.enlist _ ⟨hclock, hclock⟩
  | stopped hf _ =>
    obtain ⟨hstarted, -⟩ := ht _ _ hf
    exact ht.put _ ⟨hstarted, hclock⟩
  | removed => exact ht.erase _
  | restored records => exact ht.restore (hrestore records rfl)
  | followed hf =>
    cases hf with
    | gone => exact ht
    | event => exact ht.observe _ _ hclock
    | done => exact ht
    | beat => exact ht.beat _ hclock
  | settled hs =>
    cases hs with
    | gone => exact ht
    | unknown => exact ht
    | known _ hf => exact ht.put _ (((ht _ _ hf).touch hclock).settled _)
  | _ => exact ht

/-- Whoever takes up runs has read them. -/
theorem mem_next_restore (h : job.run s e = some (next, e₁)) {records : List RunRecord}
    (hmem : .restore records ∈ next ∨ .restore records ∈ (job.spawned e).flatten) :
    ∀ r ∈ records, r.IsProper := by
  have hleads : (Job.restore records).isChore = true ∨ Leads s e job (.restore records) :=
    hmem.elim (mem_next h) mem_spawned
  rcases hleads with hchore | hleads
  · cases hchore
  · cases hleads with
    | restore hload => exact Registry.load_proper hload

end Moments

/-! ## The invariant -/

/-- The records that are written can be read back as they are. -/
structure Logged (l : List Moment) (e : Engine) : Prop where
  /-- the table names moments in the calendar -/
  proper : e.table.IsProper
  /-- so do the runs that are to be taken up -/
  restored : ∀ records, .restore records ∈ e.pending → ∀ r ∈ records, r.IsProper
  /-- and the tables of the past -/
  past : ∀ m ∈ l, ∀ r ∈ m.before.table.records, r.IsProper

section Logs

variable {s : Settings} {l : List Moment} {e e₁ : Engine} {id : Nat} {job : Job}
  {rest next : List Job} {reply reply' : Option Reply}

theorem Logged.past_snoc (hl : Logged l e) (ht : e.table.Tidy) (d : Deed) :
    ∀ m ∈ l ++ [⟨e, d⟩], ∀ r ∈ m.before.table.records, r.IsProper :=
  List.forall_mem_append.mpr ⟨hl.past, List.forall_mem_singleton.mpr (hl.proper.record ht)⟩

/-- The invariant is kept by what leaves the table alone. -/
theorem Logged.carry (hl : Logged l e) (ht : e.table.Tidy) {d : Deed} {e' : Engine}
    (htable : e'.table = e.table)
    (hrestore : ∀ records, .restore records ∈ e'.pending → .restore records ∈ e.pending) :
    Logged (l ++ [⟨e, d⟩]) e' where
  proper := by
    rw [htable]
    exact hl.proper
  restored := fun records hmem => hl.restored records (hrestore records hmem)
  past := hl.past_snoc ht d

/-- The work of a task keeps the invariant. -/
theorem Logged.work (hl : Logged l e) (hr : Recorded l e)
    (hyear : Instant.isYear (e.readClock s).1.year = true)
    (ht : e.task? id = some ⟨job :: rest, reply⟩) (h : job.run s e = some (next, e₁)) :
    Logged (l ++ [⟨e, .work id⟩]) (e₁.setTask id ⟨next ++ rest, reply'⟩) := by
  have hj : job ∈ e.pending := mem_pending ht List.mem_cons_self
  refine ⟨?_, ?_, hl.past_snoc hr.tidy _⟩
  · have hkept : e₁.table.IsProper :=
      run_proper h hl.proper hyear fun records heq => hl.restored records (heq ▸ hj)
    exact hkept
  · intro records hmem
    refine forall_pending_work hr.numbered ht h
      (P := fun j => ∀ records, j = .restore records → ∀ r ∈ records, r.IsProper)
      (fun j hj records heq => hl.restored records (heq ▸ hj)) (fun j hj records heq => ?_)
      _ hmem records rfl
    subst heq
    exact mem_next_restore h hj

/-- **A step**: every deed keeps the invariant. -/
theorem Logged.step (hl : Logged l e) (hr : Recorded l e)
    (hyear : Instant.isYear (e.readClock s).1.year = true) {d : Deed} {e' : Engine}
    (h : e.roam s d = some e') : Logged (l ++ [⟨e, d⟩]) e' := by
  cases roam_cases hr.numbered h with
  | worked ht hrun => exact hl.work hr hyear ht hrun
  | asked c =>
    refine hl.carry hr.tidy rfl fun records hmem => ?_
    rcases List.mem_append.mp hmem with hmem | hmem
    · -- a call reads, but takes nothing up by itself
      rcases mem_jobs hmem with haside | ⟨_, _, _, heq⟩ | ⟨_, heq⟩ | ⟨_, heq⟩
      · cases haside
      all_goals cases heq
    · exact hmem
  | still hd hstill =>
    refine hl.carry hr.tidy hstill.table fun records hmem => ?_
    rwa [hstill.pending] at hmem

end Logs

theorem logged_fresh (file : Stored) (source : Option (Option (Fields String)))
    (buffer busCapacity : Nat) : Logged [] (fresh file source buffer busCapacity) where
  proper := fun _ _ hf => by cases hf
  restored := fun _ hmem => nomatch hmem
  past := List.forall_mem_nil _

/-- **A run**: the invariant holds of whatever a fresh engine comes to. -/
theorem Roams.logged {s : Settings} {file : Stored} {source : Option (Option (Fields String))}
    {buffer busCapacity : Nat} {l : List Moment} {e : Engine} (hf : file ≠ .directory)
    (h : Roams s (fresh file source buffer busCapacity) l e)
    (hyears : ∀ m ∈ l, Instant.isYear (m.before.readClock s).1.year = true) : Logged l e := by
  induction h with
  | nil => exact logged_fresh file source buffer busCapacity
  | snoc hroams hd ih =>
    obtain ⟨hearlier, hlast⟩ := List.forall_mem_append.mp hyears
    have hyear := hlast _ List.mem_cons_self
    exact (ih hearlier).step (hroams.recorded hf) hyear hd

/-! ## Agreement -/

/-- Whether a save is not through before a job is done. -/
def Job.isPersisting : Job → Bool
  | snapshot | save _ => true
  | _ => false

/-- **The file agrees with the table** whenever it was written at all and no task has a save to
bring to its end, in whatever order tasks do their jobs: it holds the records of as many runs in
the same order, and of each the same id, project, status, current node and message. That is what the
text of the file says to whoever reads it, if the reader gets through what the active runs hold;
and to load it gives these records back, at rest. -/
theorem Roams.file_agrees {s : Settings} {file : Stored} {source : Option (Option (Fields String))}
    {buffer busCapacity : Nat} {l : List Moment} {e : Engine} (hf : file ≠ .directory)
    (h : Roams s (fresh file source buffer busCapacity) l e)
    (hsaved : ∃ m ∈ l, m.saved?.isSome = true)
    (hidle : ∀ j ∈ e.pending, j.isPersisting = false) :
    ∃ records, e.file = .text (Registry.write records) ∧
      records.map RunRecord.outline = e.table.records.map RunRecord.outline ∧
      ((∀ m ∈ l, Instant.isYear (m.before.readClock s).1.year = true) →
        Registry.Readable records →
        (∃ found, Json.decodeText Registry.decode (Registry.write records).toList = .ok found ∧
          found.map RunRecord.outline = e.table.records.map RunRecord.outline) ∧
        Registry.load s.registryPath e.file = .ok (records.map rested)) := by
  obtain ⟨m, hm, -, hfile, hsame⟩ := (h.recorded hf).written hsaved
    (fun hmem => nomatch hidle _ hmem) fun _ hmem => nomatch hidle _ hmem
  refine ⟨_, hfile, hsame, fun hyears hd => ?_⟩
  have hproper := (h.logged hf hyears).past m hm
  obtain ⟨found, hdecode, hbare⟩ := Registry.decode_write hproper hd
  refine ⟨⟨found, hdecode, ?_⟩, ?_⟩
  · have houtline := congrArg (List.map RunRecord.outline) hbare
    rw [List.map_map, List.map_map] at houtline
    exact houtline.trans hsame
  · rw [hfile]
    exact Registry.read_write _ hproper hd

/-- A run is stopped while an older snapshot waits to be written: the driver of the run has taken
it and writes it after that. -/
def overtaken : List Deed :=
  [.ask trialStart] ++ List.replicate 14 (.work 0) ++ List.replicate 3 (.work 2) ++
    List.replicate 3 (.work 1) ++ [.ask (.stop "#:p"), .work 3] ++ List.replicate 2 (.work 1) ++
    List.replicate 4 (.work 3)

theorem overtaken_spec :
    ∃ l e, (fresh .absent none 8 8).replay trial overtaken = some (l, e) ∧
      (∀ m ∈ l, Instant.isYear (m.before.readClock trial).1.year = true) ∧
      (∃ m ∈ l, m.saved?.isSome = true) ∧ (∀ j ∈ e.pending, j.isPersisting = false) ∧
      e.table.records.map RunRecord.outline = [("#:p", "p", .stopped, some "a", none)] := by
  have hall : ((fresh .absent none 8 8).replay trial overtaken).any (fun x =>
      x.1.all (fun m => Instant.isYear (m.before.readClock trial).1.year) &&
        x.1.any (·.saved?.isSome) && x.2.pending.all (!·.isPersisting) &&
        x.2.table.records.map RunRecord.outline = [("#:p", "p", .stopped, some "a", none)]) =
      true := rfl
  obtain ⟨⟨l, e⟩, hreplay, hspec⟩ := (Option.any_eq_true _ _).mp hall
  simp only [Bool.and_eq_true, List.all_eq_true, List.any_eq_true, Bool.not_eq_true',
    decide_eq_true_eq] at hspec
  obtain ⟨⟨⟨hyears, hsaved⟩, hidle⟩, houtline⟩ := hspec
  exact ⟨l, e, hreplay, hyears, hsaved, hidle, houtline⟩

theorem overtaken_agrees :
    ∃ l e records, Roams trial (fresh .absent none 8 8) l e ∧
      e.file = .text (Registry.write records) ∧
      records.map RunRecord.outline = [("#:p", "p", .stopped, some "a", none)] ∧
      Registry.load trial.registryPath e.file = .ok (records.map rested) := by
  obtain ⟨l, e, hreplay, hyears, hsaved, hidle, houtline⟩ := overtaken_spec
  have hroams := (replay_runs hreplay).roams
  have habsent : Stored.absent ≠ .directory := nofun
  obtain ⟨records, hfile, hsame, hread⟩ := hroams.file_agrees habsent hsaved hidle
  rw [houtline] at hsame
  have hreadable : Registry.Readable records := by
    intro r hr hactive
    -- the one run is stopped
    have hstopped : r.outline = ("#:p", "p", .stopped, some "a", none) :=
      List.mem_singleton.mp (hsame ▸ List.mem_map_of_mem hr)
    rw [show r.status = .stopped from congrArg (·.2.2.1) hstopped] at hactive
    cases hactive
  exact ⟨l, e, records, hroams, hfile, hsame, (hread hyears hreadable).2⟩

/-! ## Reading back -/

/-- **The file is read back if the reader gets through it.** Whatever was written is the table of
some moment at which a snapshot was taken. If the active runs of that table do not nest deeper than
the reader goes, it is read back with all runs at rest; if one does, the registry is refused, and
whoever reads it back takes up no run at all. -/
theorem Roams.reloaded {s : Settings} {file : Stored} {source : Option (Option (Fields String))}
    {buffer busCapacity : Nat} {l : List Moment} {e : Engine} (hf : file ≠ .directory)
    (h : Roams s (fresh file source buffer busCapacity) l e)
    (hyears : ∀ m ∈ l, Instant.isYear (m.before.readClock s).1.year = true)
    (hsaved : ∃ m ∈ l, m.saved?.isSome = true) :
    ∃ m ∈ l, m.job? = some .snapshot ∧
      e.file = .text (Registry.write m.before.table.records) ∧
      (Registry.Readable m.before.table.records →
        Job.reload.run s e = some ([.restore (m.before.table.records.map rested)], e)) ∧
      (¬Registry.Readable m.before.table.records →
        (∃ reason, Registry.load s.registryPath e.file = .error (.registry reason)) ∧
          Job.reload.run s e = some (replying (.restored 0), e)) := by
  obtain ⟨m, hm, hsnap, hfile⟩ := (h.recorded hf).stored hsaved
  have hproper := (h.logged hf hyears).past m hm
  refine ⟨m, hm, hsnap, hfile, fun hd => ?_, fun hd => ?_⟩
  · have hload : Registry.load s.registryPath e.file = .ok (m.before.table.records.map rested) := by
      rw [hfile]
      exact Registry.read_write _ hproper hd
    simp only [Job.run, hload]
  · obtain ⟨reason, hrefused⟩ := Registry.read_deep s.registryPath hd
    have hload : Registry.load s.registryPath e.file = .error (.registry reason) := by
      rw [hfile]
      exact hrefused
    exact ⟨⟨reason, hload⟩, by simp only [Job.run, hload]⟩

/-- Lists in each other. -/
def nested : Nat → Json
  | 0 => .null
  | n + 1 => .arr [nested n]

/-- A project is started whose one node has a setting as deep as it can be in the text of a
definition. The registry stands two levels deeper. -/
def towardsRefusal : List Deed :=
  [.ask (.start "p" { nodes := [{ id := "a", config := [("x", nested 123)] }] } {})] ++
    List.replicate 6 (.work 0)

theorem towardsRefusal_spec :
    ∃ l e, (fresh .absent none 8 8).replay trial towardsRefusal = some (l, e) ∧
      (∀ m ∈ l, Instant.isYear (m.before.readClock trial).1.year = true) ∧
      (∃ m ∈ l, m.saved?.isSome = true) ∧
      ∀ m ∈ l, m.job? = some .snapshot → ¬Registry.Readable m.before.table.records := by
  have hall : ((fresh .absent none 8 8).replay trial towardsRefusal).any (fun x =>
      x.1.all (fun m => Instant.isYear (m.before.readClock trial).1.year) &&
        x.1.any (·.saved?.isSome) &&
        x.1.all fun m => !m.job?.any Job.snaps || !decide (Registry.Readable m.before.table.records)) =
      true := by
    decide +kernel
  obtain ⟨⟨l, e⟩, hreplay, hspec⟩ := (Option.any_eq_true _ _).mp hall
  simp only [Bool.and_eq_true, List.all_eq_true, List.any_eq_true, Bool.or_eq_true,
    Bool.not_eq_true', decide_eq_false_iff_not] at hspec
  obtain ⟨⟨hyears, hsaved⟩, hdeep⟩ := hspec
  refine ⟨l, e, hreplay, hyears, hsaved, fun m hm hsnap => (hdeep m hm).resolve_left ?_⟩
  rw [hsnap]
  exact Bool.noConfusion

theorem refused_when_read_back :
    ∃ l e, Roams trial (fresh .absent none 8 8) l e ∧
      (∃ reason, Registry.load trial.registryPath e.file = .error (.registry reason)) ∧
      Job.reload.run trial e = some (replying (.restored 0), e) := by
  obtain ⟨l, e, hreplay, hyears, hsaved, hdeep⟩ := towardsRefusal_spec
  have hroams := (replay_runs hreplay).roams
  have habsent : Stored.absent ≠ .directory := nofun
  obtain ⟨m, hm, hsnap, -, -, hrefused⟩ := hroams.reloaded habsent hyears hsaved
  exact ⟨l, e, hroams, hrefused (hdeep m hm hsnap)⟩

end Engine

end Workflow
