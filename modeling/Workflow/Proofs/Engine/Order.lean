import Workflow.Proofs.Engine.SingleRun
import Workflow.Proofs.Interpreter.Stride

/-!
# Order among runs

What holds of all runs between deeds, in whatever order tasks work (`Orderly`): names are
given once, walks are of runs that were given names and announce no ends, a run is about
to be settled only when its walk is over, and the registry is read back only while
nothing was started yet.
-/

namespace Workflow

theorem Event.isTerminal_of_isOfScript {node : String} {event : Event}
    (h : event.isOfScript node = true) : event.isTerminal = false := by
  cases event <;> first | rfl | cases h

/-- No interpreter announces the end of a run. -/
theorem Interpreter.step_told {around : Surroundings} {now : Nat} {r r' : Interpreter}
    {told : Option Event} (hr : r.Sound) (h : r.step around now = some (told, r')) :
    ∀ event ∈ told, event.isTerminal = false := by
  intro event hevent
  obtain rfl : told = some event := hevent
  cases Interpreter.step_cases h with
  | heard _ _ _ ha =>
    rcases (apply_keeps ha).2.2.2.2 with hnone | ⟨vars, hvars⟩
    · cases hnone
    · cases hvars
      rfl
  | told hp => exact Event.isTerminal_of_isOfScript (hr _ _ _ hp event List.mem_cons_self)
  | _ => rfl

namespace Engine

open Engine.Job

/-! ## Walks -/

/-- What a walk has told and has left to tell of scripts announces no end. -/
structure Walk.Sound (w : Walk) : Prop where
  /-- what is left to tell is of scripts -/
  run : w.run.Sound
  /-- nothing that was told announces an end -/
  told : ∀ event ∈ w.told, event.isTerminal = false

theorem newWalk_sound (e : Engine) (definition : Definition) (vars : Vars) :
    (e.newWalk definition vars).Sound where
  run := by
    have hstart := Interpreter.sound_start definition vars (some {})
    unfold newWalk
    dsimp only
    split
    · exact hstart
    · exact hstart
  told := nofun

theorem Onward.sound {around : Surroundings} (hs : around.IsSandboxed) {now : Nat} {w w' : Walk}
    (ho : Onward around now w w') (hw : w.Sound) : w'.Sound := by
  induction ho with
  | same => exact hw
  | trans _ _ ih₁ ih₂ => exact ih₂ (ih₁ hw)
  | stepped hstep =>
    refine ⟨hw.run.step hs (Interpreter.step_cases hstep), ?_⟩
    intro event hevent
    rcases List.mem_append.mp hevent with hevent | hevent
    · exact hw.told event hevent
    · exact Interpreter.step_told hw.run hstep event (Option.mem_toList.mp hevent)
  | seen ht =>
    refine ⟨hw.run, fun event hevent => ?_⟩
    exact hw.told event (ht ▸ List.mem_cons_of_mem _ hevent)
  | timed => exact ⟨hw.run, hw.told⟩
  | cancelled => exact ⟨hw.run, hw.told⟩
  | closed => exact ⟨hw.run, hw.told⟩
  | sent => exact ⟨hw.run, hw.told⟩

/-- A run that is over goes no step. -/
theorem step_of_isOver {around : Surroundings} {now : Nat} {r : Interpreter}
    (hover : r.isOver = true) : r.step around now = none := by
  unfold Interpreter.isOver at hover
  unfold Interpreter.step
  split at hover
  · next hp => rw [hp]
  · next hp => rw [hp]
  · cases hover

/-- A walk that is over stays where it is. -/
theorem Onward.phase {around : Surroundings} {now : Nat} {w w' : Walk}
    (ho : Onward around now w w') (hover : w.run.isOver = true) :
    w'.run.phase = w.run.phase := by
  induction ho with
  | trans _ _ ih₁ ih₂ =>
    have h₁ := ih₁ hover
    refine (ih₂ ?_).trans h₁
    rw [Interpreter.isOver, h₁]
    exact hover
  | stepped hstep => cases hstep.symm.trans (step_of_isOver hover)
  | _ => rfl

theorem Onward.isOver {around : Surroundings} {now : Nat} {w w' : Walk}
    (ho : Onward around now w w') (hover : w.run.isOver = true) : w'.run.isOver = true := by
  rw [Interpreter.isOver, ho.phase hover]
  exact hover

/-- A walk that is over and of which all was seen has nothing more to tell. -/
theorem Onward.silent {around : Surroundings} {now : Nat} {w w' : Walk}
    (ho : Onward around now w w') (hover : w.run.isOver = true) (htold : w.told = []) :
    w'.told = [] := by
  induction ho with
  | trans ho₁ _ ih₁ ih₂ => exact ih₂ (ho₁.isOver hover) (ih₁ hover htold)
  | stepped hstep => cases hstep.symm.trans (step_of_isOver hover)
  | seen ht => cases htold.symm.trans ht
  | _ => exact htold

/-! ## Order -/

/-- Whether a name was given to a run. -/
def Named (e : Engine) (run : String) : Prop := ∃ project, (project, run) ∈ e.started

/-- Names are given to one run each. -/
def NamesApart (s : Settings) : Prop :=
  ∀ project project' n n', s.nameRun project n = s.nameRun project' n' →
    project = project' ∧ n = n'

theorem trial_isSandboxed : trial.around.IsSandboxed :=
  ⟨fun _ _ _ => .error "", fun _ => .ofSeed 0 0, 0, rfl⟩

theorem trial_namesApart : NamesApart trial := by
  intro project project' n n' heq
  have hlists : List.replicate n '#' ++ ':' :: project.toList =
      List.replicate n' '#' ++ ':' :: project'.toList := by
    have htexts := congrArg String.toList heq
    rw [trial, String.toList_ofList, String.toList_ofList] at htexts
    exact htexts
  clear heq
  induction n generalizing n' with
  | zero =>
    cases n' with
    | zero => exact ⟨String.toList_inj.mp (List.cons.inj hlists).2, rfl⟩
    | succ n' => exact absurd (List.cons.inj hlists).1 (by decide)
  | succ n ih =>
    cases n' with
    | zero => exact absurd (List.cons.inj hlists).1 (by decide)
    | succ n' =>
      obtain ⟨hproject, hn⟩ := ih n' (List.cons.inj hlists).2
      exact ⟨hproject, congrArg (· + 1) hn⟩

/-- What holds of all runs between deeds. -/
structure Orderly (s : Settings) (e : Engine) : Prop where
  /-- records stand under their ids, and no project has two active runs -/
  single : e.Single
  /-- names are those that were due -/
  names : ∀ {project run}, (project, run) ∈ e.started →
    ∃ n, n ≤ e.startedOf project ∧ run = s.nameRun project n
  /-- while the registry is read back nothing was started, and nothing may be -/
  admitted : ∀ {j}, j ∈ e.pending → j.isRestoring = true →
    e.started = [] ∧ ∀ j' ∈ e.pending, j'.mayStart = false
  /-- walks announce no ends -/
  sound : ∀ {run w}, e.walks.find? run = some w → w.Sound
  /-- walks are of runs that were given names -/
  walked : ∀ {run w}, e.walks.find? run = some w → e.Named run
  /-- a run is about to be settled only when its walk is over -/
  settles : ∀ {project run}, Job.settle project run ∈ e.pending →
    e.Named run ∧ ∀ {w}, e.walks.find? run = some w → w.run.isOver = true

/-- The next name of a project is new. -/
theorem Orderly.newRun_fresh {s : Settings} {e : Engine} (ho : Orderly s e) (hs : NamesApart s)
    (project : String) : ¬ e.Named (e.newRun s project) := by
  rintro ⟨project', hmem⟩
  obtain ⟨n, hn, heq⟩ := ho.names hmem
  obtain ⟨rfl, rfl⟩ := hs _ _ _ _ heq
  omega

/-- A run is of one project. -/
theorem Orderly.project_unique {s : Settings} {e : Engine} (ho : Orderly s e) (hs : NamesApart s)
    {project project' run : String} (h : (project, run) ∈ e.started)
    (h' : (project', run) ∈ e.started) : project = project' := by
  obtain ⟨n, -, heq⟩ := ho.names h
  obtain ⟨n', -, heq'⟩ := ho.names h'
  exact (hs project project' n n' (heq.symm.trans heq')).1

theorem named_run {s : Settings} {e e₁ : Engine} {job : Job} {next : List Job}
    (h : job.run s e = some (next, e₁)) {run : String} (hr : e.Named run) : e₁.Named run := by
  obtain ⟨project, hmem⟩ := hr
  exact ⟨project, started_mono h _ hmem⟩

/-- Other jobs than its enlisting give no name to a run. -/
theorem named_run_iff {s : Settings} {e e₁ : Engine} {job : Job} {next : List Job}
    (h : job.run s e = some (next, e₁)) (run : String)
    (hborn : ∀ project definition vars, job = .enrol project definition vars →
      run ≠ e.newRun s project) :
    e₁.Named run ↔ e.Named run := by
  refine ⟨?_, named_run h⟩
  rintro ⟨project, hmem⟩
  rcases run_started h with heq | ⟨project', definition, vars, hj, heq⟩
  · exact ⟨project, heq ▸ hmem⟩
  · rw [heq] at hmem
    rcases List.mem_cons.mp hmem with hhead | hmem
    · exact absurd (Prod.mk.inj hhead).2 (hborn project' definition vars hj)
    · exact ⟨project, hmem⟩

/-- Where a walk comes from. -/
theorem walk_from {s : Settings} {e e₁ : Engine} {job : Job} {next : List Job}
    (h : job.run s e = some (next, e₁)) {run : String} {w : Walk}
    (hw : e₁.walks.find? run = some w) :
    (∃ w₀, e.walks.find? run = some w₀ ∧ Onward (s.around.forRun run) e.now w₀ w) ∨
      ∃ project definition vars, job = .enrol project definition vars ∧
        run = e.newRun s project ∧ Onward (s.around.forRun run) e.now (e.newWalk definition vars) w := by
  have hpace := run_pace h run
  rw [hw] at hpace
  generalize e.walks.find? run = o at hpace ⊢
  cases hpace with
  | onward ho => exact Or.inl ⟨_, rfl, ho⟩
  | born hj hr ho => exact Or.inr ⟨_, _, _, hj, hr, ho⟩

theorem started_enrol {s : Settings} {e e₁ : Engine} {project : String} {definition : Definition}
    {vars : Vars} {next : List Job}
    (h : (Job.enrol project definition vars).run s e = some (next, e₁)) :
    e₁.started = (project, e.newRun s project) :: e.started := by
  cases run_cases h with
  | aside ha => cases ha
  | enrolled => rfl

theorem names_run {s : Settings} {e e₁ : Engine} {job : Job} {next : List Job}
    (h : job.run s e = some (next, e₁))
    (hnames : ∀ {project run}, (project, run) ∈ e.started →
      ∃ n, n ≤ e.startedOf project ∧ run = s.nameRun project n) {project run : String}
    (hmem : (project, run) ∈ e₁.started) :
    ∃ n, n ≤ e₁.startedOf project ∧ run = s.nameRun project n := by
  rcases run_started h with heq | ⟨project', _, _, -, heq⟩
  · rw [heq] at hmem
    obtain ⟨n, hle, hrun⟩ := hnames hmem
    refine ⟨n, ?_, hrun⟩
    rw [startedOf, heq]
    exact hle
  · have hcount : e₁.startedOf project =
        e.startedOf project + if project' = project then 1 else 0 := by
      rw [startedOf, heq, List.countP_cons]
      simp [startedOf]
    rw [heq] at hmem
    rcases List.mem_cons.mp hmem with hhead | hmem
    · obtain ⟨rfl, rfl⟩ := Prod.mk.inj hhead
      exact ⟨e.startedOf project + 1, Nat.le_of_eq (by rw [hcount, if_pos rfl]), rfl⟩
    · obtain ⟨n, hle, hrun⟩ := hnames hmem
      exact ⟨n, by omega, hrun⟩

/-- The registry is read back only by itself. -/
theorem admitted_work {s : Settings} {e e₁ : Engine} (hn : e.Numbered)
    (hadmitted : ∀ {j}, j ∈ e.pending → j.isRestoring = true →
      e.started = [] ∧ ∀ j' ∈ e.pending, j'.mayStart = false) {id : Nat}
    {job : Job} {rest next : List Job} {reply reply' : Option Reply}
    (ht : e.task? id = some ⟨job :: rest, reply⟩) (h : job.run s e = some (next, e₁)) {j : Job}
    (hmem : j ∈ (e₁.setTask id ⟨next ++ rest, reply'⟩).pending) (hr : j.isRestoring = true) :
    e₁.started = [] ∧
      ∀ j' ∈ (e₁.setTask id ⟨next ++ rest, reply'⟩).pending, j'.mayStart = false := by
  have hj : job ∈ e.pending := mem_pending ht List.mem_cons_self
  -- some job reads the registry back already
  have hold : ∃ j₀ ∈ e.pending, j₀.isRestoring = true := by
    rcases mem_pending_advance hn ht h hmem with hpending | hchore | hleads
    · exact ⟨j, hpending, hr⟩
    · cases j <;> first | cases hr; done | cases hchore
    · cases hleads with
      | restore => exact ⟨.reload, hj, rfl⟩
      | _ => cases hr
  obtain ⟨j₀, hj₀, hr₀⟩ := hold
  obtain ⟨hnone, hnot⟩ := hadmitted hj₀ hr₀
  refine ⟨?_, ?_⟩
  · rcases run_started h with heq | ⟨_, _, _, rfl, -⟩
    · rw [heq]
      exact hnone
    -- enlisting is a job that may start a run, and there is none of those
    · exact nomatch hnot _ hj
  · intro j' hj'
    rcases mem_pending_advance hn ht h hj' with hpending | hchore | hleads
    · exact hnot j' hpending
    · cases j' <;> first | rfl | cases hchore
    · have hidle := hnot job hj
      cases hleads <;> first | rfl | cases hidle

/-- The work of a task keeps order. -/
theorem orderly_work {s : Settings} (hsandbox : s.around.IsSandboxed)
    (hs : NamesApart s) {e e₁ : Engine} (hn : e.Numbered) (ho : Orderly s e) {id : Nat} {job : Job}
    {rest next : List Job} {reply reply' : Option Reply}
    (ht : e.task? id = some ⟨job :: rest, reply⟩) (h : job.run s e = some (next, e₁)) :
    Orderly s (e₁.setTask id ⟨next ++ rest, reply'⟩) where
  single := single_work hn ho.single ht h
  names := names_run h ho.names
  admitted := admitted_work hn ho.admitted ht h
  sound := by
    intro run w hw
    rcases walk_from h hw with ⟨w₀, hw₀, honward⟩ | ⟨_, definition, vars, -, -, honward⟩
    · exact honward.sound (hsandbox.forRun _) (ho.sound hw₀)
    · exact honward.sound (hsandbox.forRun _) (newWalk_sound e definition vars)
  walked := by
    intro run w hw
    rcases walk_from h hw with ⟨w₀, hw₀, -⟩ | ⟨project, _, _, rfl, rfl, -⟩
    · exact named_run h (ho.walked hw₀)
    · exact ⟨project, started_enrol h ▸ List.mem_cons_self⟩
  settles := by
    intro project run hmem
    have hold : e.Named run ∧ ∀ {w}, e.walks.find? run = some w → w.run.isOver = true := by
      rcases mem_pending_advance hn ht h hmem with hpending | hchore | hleads
      · exact ho.settles hpending
      · cases hchore
      · cases hleads with
        | settle hw hover =>
          refine ⟨ho.walked hw, fun hw' => ?_⟩
          obtain rfl := Option.some.inj (hw.symm.trans hw')
          exact hover
    refine ⟨named_run h hold.1, fun {w} hw => ?_⟩
    rcases walk_from h hw with ⟨w₀, hw₀, honward⟩ | ⟨project', _, _, -, rfl, -⟩
    · exact honward.isOver (hold.2 hw₀)
    · exact absurd hold.1 (ho.newRun_fresh hs project')

theorem eq_false_of_not_any {q : Job → Bool} {jobs : List Job} (h : (!jobs.any q) = true) {j : Job}
    (hj : j ∈ jobs) : q j = false :=
  any_none.mp ((Bool.not_eq_true' _).mp h) j hj

/-- A call is taken up only if the registry is not read back meanwhile. -/
theorem admitted_ask {e : Engine} {c : Call} (hadmits : e.admits c = true)
    (hold : ∀ {j}, j ∈ e.pending → j.isRestoring = true →
      e.started = [] ∧ ∀ j' ∈ e.pending, j'.mayStart = false) {j : Job}
    (hmem : j ∈ (e.ask c.jobs).pending) (hr : j.isRestoring = true) :
    e.started = [] ∧ ∀ j' ∈ (e.ask c.jobs).pending, j'.mayStart = false := by
  rw [admits, Bool.and_eq_true, Bool.or_eq_true, Bool.or_eq_true, Bool.and_eq_true] at hadmits
  obtain ⟨hrestoring, hstarting⟩ := hadmits
  rcases List.mem_append.mp hmem with hj | hj
  · have hany : c.jobs.any Job.isRestoring = true := List.any_eq_true.mpr ⟨j, hj, hr⟩
    obtain ⟨hnone, hidle⟩ := hrestoring.resolve_left (by rw [hany]; exact Bool.false_ne_true)
    refine ⟨List.isEmpty_iff.mp hnone, fun j' hj' => ?_⟩
    rcases List.mem_append.mp hj' with hj' | hj'
    · -- the only call that reads the registry back starts nothing
      cases c with
      | restore =>
        obtain rfl := List.mem_singleton.mp hj'
        rfl
      | send run m => cases m <;> cases hany
      | _ => cases hany
    · exact eq_false_of_not_any hidle hj'
  -- while the registry is read back a call that may come to start a run is not admitted
  · obtain ⟨hnone, hidle⟩ := hold hj hr
    refine ⟨hnone, fun j' hj' => ?_⟩
    rcases List.mem_append.mp hj' with hj' | hj'
    · have hany : e.pending.any Job.isRestoring = true := List.any_eq_true.mpr ⟨j, hj, hr⟩
      have hfree := hstarting.resolve_right (by rw [hany]; exact Bool.false_ne_true)
      exact eq_false_of_not_any hfree hj'
    · exact hidle j' hj'

/-- Every deed keeps order. -/
theorem orderly_after {s : Settings} (hsandbox : s.around.IsSandboxed) (hs : NamesApart s)
    {e e' : Engine} {d : Deed} (hn : e.Numbered) (ho : Orderly s e)
    (h : e.after s d = some e') : Orderly s e' := by
  have hsingle := single_after hn ho.single h
  cases after_cases hn h with
  | worked ht hrun => exact orderly_work hsandbox hs hn ho ht hrun
  | @asked c hadmits =>
    refine ⟨hsingle, ho.names, admitted_ask hadmits ho.admitted, ho.sound, ho.walked, ?_⟩
    intro project run hmem
    rcases List.mem_append.mp hmem with hmem | hmem
    · rcases mem_jobs hmem with haside | ⟨_, _, _, heq⟩ | ⟨_, heq⟩ | ⟨_, heq⟩
      · cases haside
      all_goals cases heq
    · exact ho.settles hmem
  | still _ _ hstill =>
    have hnamed : ∀ {run}, e'.Named run ↔ e.Named run := by
      intro run
      unfold Named
      rw [hstill.started]
    refine ⟨hsingle, ?_, ?_, ?_, ?_, ?_⟩
    · intro project run hmem
      rw [hstill.started] at hmem
      rw [startedOf, hstill.started]
      exact ho.names hmem
    · rw [hstill.pending, hstill.started]
      exact ho.admitted
    · rw [hstill.walks]
      exact ho.sound
    · intro run w hw
      rw [hstill.walks] at hw
      exact hnamed.mpr (ho.walked hw)
    · intro project run hmem
      rw [hstill.pending] at hmem
      rw [hstill.walks]
      exact (ho.settles hmem).imp_left hnamed.mpr

theorem orderly_fresh (s : Settings) (file : Stored) (source : Option (Option (Fields String)))
    (buffer busCapacity : Nat) : Orderly s (fresh file source buffer busCapacity) where
  single := single_fresh file source buffer busCapacity
  names := fun hmem => by cases hmem
  admitted := fun hmem => by cases hmem
  sound := fun hw => by cases hw
  walked := fun hw => by cases hw
  settles := fun hmem => by cases hmem

/-- Engines are in order. -/
theorem Reached.orderly {s : Settings} (hsandbox : s.around.IsSandboxed) (hs : NamesApart s)
    {l : List Moment} {e : Engine} (h : Reached s l e) : Orderly s e :=
  h.keeps (orderly_fresh s) fun _ _ _ hn ho hd => orderly_after hsandbox hs hn ho hd

end Engine

end Workflow
