import Workflow.Proofs.Engine.Enlisted
import Workflow.Proofs.Supervisor.History

/-!
# The history of a project

How many finished runs of a project an engine knows. Enlisting a run forgets the outdated ones, and
no other job but taking up runs from disk adds a record to those of a project (`length_runsOf_run`).
A run is enlisted only while no run of its project is active, and a run that is not active is over
(`Decided`); so once a project had a run enlisted its records are as many as are to be kept, and one
more (`history_bounded`).

The bound needs no more than that: it holds as well where the registry is read back while runs go on,
from the next start of the project.
-/

namespace Workflow

namespace Engine

open Engine.Job

variable {s : Settings} {e e' e₁ : Engine} {job : Job} {next : List Job} {project : String}

/-! ## Active or over -/

/-- **Decided**: every run is active or over, and those that wait to be taken up are over. -/
structure Decided (e : Engine) : Prop where
  /-- known runs are active or over -/
  known : ∀ {run h}, e.table.find? run = some h →
    h.record.status.isActive = true ∨ h.record.status.isTerminal = true
  /-- runs that wait to be taken up are over -/
  read : ∀ {records}, Job.restore records ∈ e.pending → ∀ r ∈ records,
    r.status.isTerminal = true

/-- What becomes of a run leaves it active or over. -/
theorem Fate.decided {run : String} {o : Option Handle} {h' : Handle}
    (hf : Fate s e job run o (some h'))
    (hold : ∀ h, o = some h → h.record.status.isActive = true ∨ h.record.status.isTerminal = true)
    (hread : ∀ {records}, job = .restore records → ∀ r ∈ records, r.status.isTerminal = true) :
    h'.record.status.isActive = true ∨ h'.record.status.isTerminal = true := by
  cases hf with
  | kept => exact hold h' rfl
  | born => exact Or.inl rfl
  | @changed h _ hc =>
    cases hc with
    | stopped => exact Or.inr rfl
    | noted =>
      rw [RunTable.noted_status]
      exact hold h rfl
    | beaten => exact hold h rfl
    | settled => exact Or.inr (RunTable.isTerminal_settled ..)
  | restored hj hr => exact Or.inr (hread hj _ hr)

theorem Decided.step (hd : Decided e) (he : Enlisted s e) {d : Deed} (h : e.roam s d = some e') :
    Decided e' := by
  cases roam_cases he.numbered h with
  | asked c =>
    refine ⟨hd.known, fun hmem => ?_⟩
    rcases List.mem_append.mp hmem with hmem | hmem
    · rcases mem_jobs hmem with haside | ⟨_, _, _, heq⟩ | ⟨_, heq⟩ | ⟨_, heq⟩
      · cases haside
      all_goals cases heq
    · exact hd.read hmem
  | @worked id job rest next reply e₁ ht hrun =>
    have hj : job ∈ e.pending := mem_pending ht List.mem_cons_self
    refine ⟨fun {run h} hf => ?_, fun hmem => ?_⟩
    · have hfate := run_fate hrun he.single.tidy run
      rw [show e₁.table.find? run = some h from hf] at hfate
      exact hfate.decided (fun _ hold => hd.known hold) fun heq => hd.read (heq ▸ hj)
    · rcases mem_pending_advance he.numbered ht hrun hmem with hpending | hchore | hleads
      · exact hd.read hpending
      · cases hchore
      · cases hleads with
        | restore hload => exact Registry.load_over hload
  | still _ hstill =>
    refine ⟨?_, ?_⟩
    · rw [hstill.table]
      exact hd.known
    · rw [hstill.pending]
      exact hd.read

theorem decided_fresh (file : Stored) (source : Option (Option (Fields String)))
    (buffer busCapacity : Nat) : Decided (fresh file source buffer busCapacity) where
  known := fun hf => by cases hf
  read := fun hmem => by cases hmem

theorem Roams.decided {file : Stored} {source : Option (Option (Fields String))}
    {buffer busCapacity : Nat} {l : List Moment}
    (h : Roams s (fresh file source buffer busCapacity) l e) : Decided e := by
  induction h with
  | nil => exact decided_fresh ..
  | snoc hr hd ih => exact ih.step hr.enlisted hd

/-! ## Records of a project -/

/-- **Only enlisting and taking up add records** to those of a project. -/
theorem length_runsOf_run (ht : e.table.Tidy) (hrun : job.run s e = some (next, e₁))
    (hborn : ∀ definition vars, job ≠ .enrol project definition vars)
    (hrestored : ∀ records, job ≠ .restore records) :
    (e₁.table.runsOf project).length ≤ (e.table.runsOf project).length := by
  refine ht.length_runsOf_le (run_tidy hrun ht) fun run h' hf hproject => ?_
  have hfate := run_fate hrun ht run
  rw [hf] at hfate
  generalize e.table.find? run = o at hfate ⊢
  cases hfate with
  | kept => exact ⟨h', rfl, hproject⟩
  | born hj =>
    obtain rfl := hproject
    exact absurd hj (hborn _ _)
  | changed hc => exact ⟨_, rfl, hc.projectId.symm.trans hproject⟩
  | restored hj => exact absurd hj (hrestored _)

/-- **Enlisting a run leaves so many** of its project, and the new one. -/
theorem length_runsOf_enrol (he : Enlisted s e) (hd : Decided e) {definition : Definition}
    {vars : Vars} (hj : Job.enrol project definition vars ∈ e.pending)
    (hrun : (Job.enrol project definition vars).run s e = some (next, e₁)) :
    (e₁.table.runsOf project).length ≤ s.keepFinished + 1 := by
  cases run_cases hrun with
  | aside ha => cases ha
  | enrolled =>
    refine he.single.tidy.length_runsOf_enlist s.keepFinished
      (e.newRecord s project definition vars) fun r hr => ?_
    obtain ⟨hrecord, hproject⟩ := RunTable.mem_runsOf.mp hr
    obtain ⟨h, hf, rfl⟩ := he.single.tidy.find?_of_mem hrecord
    exact (hd.known hf).resolve_left (Bool.eq_false_iff.mp (he.single.free hj hf hproject))

/-- Whether a job takes up runs from disk. -/
def Job.isTakingUp : Job → Bool
  | restore _ => true
  | _ => false

/-- Whether a job enlists a run of a project. -/
def Job.enlists (project : String) : Job → Bool
  | enrol p .. => p = project
  | _ => false

/-- Whether a moment enlists a run of a project. -/
def Moment.enlists (project : String) (m : Moment) : Bool := m.job?.any (·.enlists project)

/-- Whether a moment takes up runs from disk. -/
def Moment.isTakingUp (m : Moment) : Bool := m.job?.any Job.isTakingUp

/-- **The bound** is kept until runs are taken up, and enlisting a run brings it back. -/
theorem capped_step (he : Enlisted s e) (hd : Decided e) {d : Deed} (h : e.roam s d = some e')
    (hcapped : Moment.enlists project ⟨e, d⟩ = true ∨
      (e.table.runsOf project).length ≤ s.keepFinished + 1)
    (hrests : Moment.isTakingUp ⟨e, d⟩ = false) :
    (e'.table.runsOf project).length ≤ s.keepFinished + 1 := by
  cases roam_cases he.numbered h with
  | asked c => exact hcapped.resolve_left Bool.false_ne_true
  | @worked id job rest next reply e₁ ht hrun =>
    have hj : job ∈ e.pending := mem_pending ht List.mem_cons_self
    rw [Moment.enlists, job?_work ht, Option.any_some] at hcapped
    rw [Moment.isTakingUp, job?_work ht, Option.any_some] at hrests
    change (e₁.table.runsOf project).length ≤ _
    by_cases henlists : job.enlists project = true
    · cases job with
      | enrol p definition vars =>
        obtain rfl := of_decide_eq_true henlists
        exact length_runsOf_enrol he hd hj hrun
      | _ => cases henlists
    · refine Nat.le_trans (length_runsOf_run he.single.tidy hrun ?_ ?_)
        (hcapped.resolve_left henlists)
      · rintro definition vars rfl
        exact henlists (decide_eq_true rfl)
      · rintro records rfl
        cases hrests
  | still hw hstill =>
    rw [Moment.enlists, job?_of_ne hw] at hcapped
    rw [hstill.table]
    exact hcapped.resolve_left Bool.false_ne_true

/-- **A bounded history**, from the latest start of a project that nothing was taken up after. -/
theorem Roams.capped {file : Stored} {source : Option (Option (Fields String))}
    {buffer busCapacity : Nat} {l l₁ l₂ : List Moment} {m : Moment}
    (h : Roams s (fresh file source buffer busCapacity) l e) (hl : l = l₁ ++ m :: l₂)
    (hm : m.enlists project = true) (hrests : ∀ m' ∈ l₂, m'.isTakingUp = false) :
    (e.table.runsOf project).length ≤ s.keepFinished + 1 := by
  induction h generalizing l₂ with
  | nil => exact absurd hl (by simp)
  | @snoc l e e' d hr hd ih =>
    rcases List.eq_nil_or_concat l₂ with rfl | ⟨l₃, last, rfl⟩
    · obtain ⟨-, hlast⟩ := List.append_inj' hl rfl
      obtain rfl := (List.cons.inj hlast).1
      refine capped_step hr.enlisted hr.decided hd (Or.inl hm) ?_
      -- a moment that enlists a run takes none up
      rw [Moment.enlists, Option.any_eq_true] at hm
      obtain ⟨job, hjob, henlists⟩ := hm
      rw [Moment.isTakingUp, hjob, Option.any_some]
      cases job <;> first | rfl | cases henlists
    · rw [List.concat_eq_append, ← List.cons_append, ← List.append_assoc] at hl
      obtain ⟨hfront, hlast⟩ := List.append_inj' hl rfl
      obtain rfl := (List.cons.inj hlast).1
      rw [List.concat_eq_append, List.forall_mem_append] at hrests
      refine capped_step hr.enlisted hr.decided hd (Or.inr (ih hfront hrests.1)) ?_
      exact hrests.2 _ List.mem_cons_self

/-! ## Courses -/

/-- The registry is read back only before the first start. -/
theorem Reached.admitted {l : List Moment} (h : Reached s l e) {j : Job} (hj : j ∈ e.pending)
    (hr : j.isRestoring = true) :
    e.started = [] ∧ ∀ j' ∈ e.pending, j'.mayStart = false := by
  refine h.keeps (P := fun e => ∀ j ∈ e.pending, j.isRestoring = true →
    e.started = [] ∧ ∀ j' ∈ e.pending, j'.mayStart = false) ?_ ?_ j hj hr
  · intro _ _ _ _ j hj
    cases hj
  · intro e d e' hn hkept hd j hj hr
    have hadmitted : ∀ {j}, j ∈ e.pending → j.isRestoring = true →
        e.started = [] ∧ ∀ j' ∈ e.pending, j'.mayStart = false := fun {j} => hkept j
    cases after_cases hn hd with
    | asked hadmits => exact admitted_ask hadmits hadmitted hj hr
    | worked ht hrun => exact admitted_work hn hadmitted ht hrun hj hr
    | still _ _ hstill =>
      rw [hstill.pending] at hj ⊢
      rw [hstill.started]
      exact hadmitted hj hr

/-- A name is given by enlisting a run. -/
theorem started_of_enlists {d : Deed} (hn : e.Numbered) (h : e.after s d = some e') {run : String}
    (hnew : (project, run) ∈ e'.started) :
    (project, run) ∈ e.started ∨ Moment.enlists project ⟨e, d⟩ = true := by
  cases after_cases hn h with
  | asked => exact Or.inl hnew
  | @worked id job rest next reply e₁ ht hrun =>
    rcases run_started hrun with heq | ⟨p, definition, vars, rfl, heq⟩
    · exact Or.inl (heq ▸ hnew)
    · rcases List.mem_cons.mp (heq ▸ hnew : (project, run) ∈ (p, _) :: e.started) with heq | hold
      · rw [Moment.enlists, job?_work ht, Option.any_some]
        exact Or.inr (decide_eq_true (Prod.mk.inj heq).1.symm)
      · exact Or.inl hold
  | still _ _ hstill => exact Or.inl (hstill.started ▸ hnew)

/-- **A bounded history**, once a project was started. -/
theorem Reached.capped {l : List Moment} (h : Reached s l e) {run : String}
    (hstarted : (project, run) ∈ e.started) :
    (e.table.runsOf project).length ≤ s.keepFinished + 1 := by
  induction h using Reached.along with
  | start => cases hstarted
  | @snoc l e e' d hreached hd ih =>
    have hn := hreached.numbered
    have hadmitted := @hreached.admitted
    obtain ⟨_, _, _, _, hruns⟩ := hreached
    refine capped_step hruns.roams.enlisted hruns.roams.decided (roam_of_after hd)
      ((started_of_enlists hn hd hstarted).symm.imp_right ih) ?_
    -- while runs are taken up none was started, and none is
    refine Bool.eq_false_iff.mpr fun htaking => ?_
    rw [Moment.isTakingUp, Option.any_eq_true] at htaking
    obtain ⟨job, hjob, htakes⟩ := htaking
    have hrestoring : job.isRestoring = true := by cases job <;> first | rfl | cases htakes
    obtain ⟨hnone, hidle⟩ := hadmitted (mem_pending_of_job? hjob) hrestoring
    rcases started_of_enlists hn hd hstarted with hold | henlists
    · rw [hnone] at hold
      cases hold
    · rw [Moment.enlists, hjob, Option.any_some] at henlists
      cases job <;> first | cases henlists | cases htakes

/-- **A bounded history.** Whatever the table, enlisting a run leaves of the other records of its
project that are over those than which fewer than so many are newer, and all other records as they
are. So in every course of an engine a project that was started has at most so many records that
are over and one more; and if the registry is read back on the way, from any start of the project
after which nothing is taken up any more. -/
theorem history_bounded (s : Settings) (project : String) :
    (∀ e definition vars next e₁, e.table.Tidy →
      (Job.enrol project definition vars).run s e = some (next, e₁) →
      e₁.table.find? (e.newRun s project) =
          some { record := e.newRecord s project definition vars, isOwn := true, listens := true } ∧
        ∀ id, id ≠ e.newRun s project →
          e₁.table.find? id = (e.table.find? id).filter fun h =>
            !(h.record.projectId = project && e.table.isOutdated s.keepFinished h.record)) ∧
    (∀ l e run, Reached s l e → (project, run) ∈ e.started →
      (e.table.ended project).length ≤ s.keepFinished + 1) ∧
    ∀ file source buffer busCapacity l₁ m l₂ e,
      Roams s (fresh file source buffer busCapacity) (l₁ ++ m :: l₂) e →
      m.enlists project = true → (∀ m' ∈ l₂, m'.isTakingUp = false) →
      (e.table.ended project).length ≤ s.keepFinished + 1 := by
  refine ⟨?_, ?_, ?_⟩
  · intro e definition vars next e₁ ht hrun
    cases run_cases hrun with
    | aside ha => cases ha
    | enrolled =>
      refine ⟨(enrolled_spec s e project definition vars).1, fun id hid => ?_⟩
      exact ht.find?_enlist_eq s.keepFinished (e.newRecord s project definition vars) hid
  · intro l e run h hstarted
    exact Nat.le_trans (RunTable.ended_sublist ..).length_le (h.capped hstarted)
  · intro file source buffer busCapacity l₁ m l₂ e h hm hrests
    exact Nat.le_trans (RunTable.ended_sublist ..).length_le (h.capped rfl hm hrests)

/-- An engine that keeps one finished run of a project. -/
def brief : Settings := { trial with keepFinished := 1 }

/-- A run is started and stopped, and started and stopped again, and a third one is about to be
enlisted while the walks of the first two wind down. -/
def restarts : List Deed :=
  .ask trialStart :: works 0 14 ++ .ask (.stop "#:p") :: works 3 10 ++
    .ask trialStart :: works 4 14 ++ .ask (.stop "##:p") :: works 7 10 ++ .ask trialStart :: works 8 2

/-- The third of three starts forgets the first run and keeps the second. -/
theorem third_start_forgets_first :
    ∃ l e next e₁, Reached brief l e ∧ e.table.Tidy ∧
      (Job.enrol "p" { nodes := [{ id := "a" }], edges := [] } {}).run brief e = some (next, e₁) ∧
      e₁.table.find? "#:p" = none ∧ (e₁.table.find? "##:p").isSome = true ∧
      ("p", "#:p") ∈ e.started ∧ (e.table.ended "p").length ≤ brief.keepFinished + 1 ∧
      ∃ m e₂, Roams brief (fresh .absent none 8 8) (l ++ [m]) e₂ ∧ m.enlists "p" = true ∧
        (e₂.table.ended "p").length ≤ brief.keepFinished + 1 := by
  have hsome : ((fresh .absent none 8 8).replay brief restarts).isSome = true := rfl
  have hruns : Runs brief (fresh .absent none 8 8) (Option.get _ hsome).1 (Option.get _ hsome).2 :=
    replay_runs (Option.some_get hsome).symm
  have hreached : Reached brief (Option.get _ hsome).1 (Option.get _ hsome).2 := ⟨_, _, _, _, hruns⟩
  have htidy := hruns.roams.enlisted.single.tidy
  have hstarted : ("p", "#:p") ∈ (Option.get _ hsome).2.started :=
    List.mem_cons_of_mem _ List.mem_cons_self
  obtain ⟨hplace, hbound, hlater⟩ := history_bounded brief "p"
  obtain ⟨-, hother⟩ := hplace _ { nodes := [{ id := "a" }], edges := [] } {} _ _ htidy rfl
  have hnext : ((Option.get _ hsome).2.roam brief (.work 8)).isSome = true := rfl
  have hon := hruns.roams.snoc (Option.some_get hnext).symm
  have hfirst : "#:p" ≠ "###:p" := by decide
  have hsecond : "##:p" ≠ "###:p" := by decide
  refine ⟨_, _, _, _, hreached, htidy, rfl, ?_, ?_, hstarted, hbound _ _ _ hreached hstarted,
    _, _, hon, rfl, hlater _ _ _ _ _ _ [] _ hon rfl (List.forall_mem_nil _)⟩
  · rw [hother "#:p" hfirst]
    rfl
  · rw [hother "##:p" hsecond]
    rfl

end Engine

end Workflow
