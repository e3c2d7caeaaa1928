import Workflow.Engine.Schedule

/-!
# Courses of an engine

Everything that can happen to an engine, in every order. A *deed* is one indivisible
thing: a client asks for something, a task does its next job, time passes, a watcher
reads, or a file of a project changes. Each job is what one critical section does, so
a row of deeds is an interleaving of all tasks.

* `Engine.after` says what comes of a deed, and when it is possible at all;
* `Engine.Runs` goes from one engine to another by a row of deeds, and keeps with each
  the engine it was done to, so one can ask later what was the case at that moment;
* `Engine.Reached` are the engines that a fresh one can come to.

One thing is ruled out: the registry is read back only before the first run is started
(`Engine.admits`).

A course that is written down is done by `Engine.replay`, if it is possible.
-/

namespace Workflow.Engine

/-! ## Calls -/

/-- What a client asks for. -/
inductive Call where
  /-- to read the registry back -/
  | restore
  /-- to start a run of a project -/
  | start (project : String) (definition : Definition) (vars : Vars)
  /-- to stop a run -/
  | stop (run : String)
  /-- to forget a run -/
  | remove (run : String)
  /-- to pass a message on to a run -/
  | send (run : String) (message : Control)
  /-- to watch a subject -/
  | watch (subject : String)
  /-- to stop all runs, and those to come -/
  | shutDown
  /-- to look after a project -/
  | upsert (p : Project)
  /-- to change what is wanted of a project -/
  | setDesired (project : String) (desired : Desired)
  /-- to forget a project -/
  | forget (project : String)
  /-- to make a pass over the projects -/
  | pass

/-- The jobs that a call comes to. -/
def Call.jobs : Call → List Job
  | restore => [.reload]
  | start project definition vars => [.beginStart project definition vars]
  | stop run => [.stop run]
  | remove run => [.remove run]
  | send run m => [match m with
      | .stop => .stop run
      | m => .address run m]
  | watch subject => [.greet subject]
  | shutDown => [.shutDown]
  | upsert p => [.upsert p]
  | setDesired project desired => [.setDesired project desired]
  | forget project => [.forget project]
  | pass => passing

/-- Whether a job may come to start a run. -/
def Job.mayStart : Job → Bool
  | beginStart .. | findActive .. | enrol .. | plan => true
  | _ => false

/-- Whether a job reads the registry back. -/
def Job.isRestoring : Job → Bool
  | reload | restore _ => true
  | _ => false

/-- The jobs that all tasks have left. -/
def pending (e : Engine) : List Job := e.tasks.flatMap fun (_, t) => t.left

/-- Whether a call may come now: the registry is read back only before the first start. -/
def admits (e : Engine) (c : Call) : Bool :=
  (!c.jobs.any Job.isRestoring || (e.started.isEmpty && !e.pending.any Job.mayStart)) &&
    (!c.jobs.any Job.mayStart || !e.pending.any Job.isRestoring)

/-- Takes up a row of jobs as a task that is preferred to all others. -/
def ask (e : Engine) (jobs : List Job) : Engine :=
  { e with tasks := (e.nextTask, { left := jobs }) :: e.tasks, nextTask := e.nextTask + 1 }

/-! ## Deeds -/

/-- What can happen to an engine. -/
inductive Deed where
  /-- a client calls -/
  | ask (c : Call)
  /-- a task does its next job -/
  | work (task : Nat)
  /-- time passes, up to some time -/
  | wait (until_ : Nat)
  /-- a watcher reads an envelope -/
  | read (watcher : Nat)
  /-- a watcher goes away -/
  | leave (watcher : Nat)
  /-- the files of the projects change -/
  | edit (files : Option (Fields String))
  /-- the reply of a task that is done is fetched -/
  | collect (task : Nat)

/-- What comes of a deed, if it is possible. -/
def after (s : Settings) (e : Engine) : Deed → Option Engine
  | .ask c => if e.admits c then some (e.ask c.jobs) else none
  | .work id => e.advance s id
  | .wait t => if e.now ≤ t then some { e with now := t } else none
  | .read id => some { e with broadcaster := (e.broadcaster.receive id).2 }
  | .leave id => some { e with broadcaster := e.broadcaster.drop id }
  | .edit files => if e.source.isSome then some { e with source := some files } else none
  | .collect id =>
    if e.isDone id then some { e with tasks := e.tasks.filter fun (i, _) => i ≠ id } else none

/-- A deed, and the engine it is done to. -/
structure Moment where
  /-- the engine before -/
  before : Engine
  /-- what is done -/
  deed : Deed

/-- The job that a task does next. -/
def nextJob? (e : Engine) (id : Nat) : Option Job := (e.task? id).bind (·.left.head?)

/-- The job that is done, if it is one. -/
def Moment.job? (m : Moment) : Option Job :=
  match m.deed with
  | .work id => m.before.nextJob? id
  | _ => none

/-- What a moment publishes on a subject. -/
def Moment.published? (subject : String) (m : Moment) : Option Event :=
  match m.job? with
  | some (.deliver recipient event) => if recipient = subject then some event else none
  | _ => none

/-- All that was published on a subject, in order. -/
def published (subject : String) (l : List Moment) : List Event :=
  l.filterMap (Moment.published? subject)

theorem published_append (subject : String) (l l' : List Moment) :
    published subject (l ++ l') = published subject l ++ published subject l' :=
  List.filterMap_append

theorem published_snoc (subject : String) (l : List Moment) (m : Moment) :
    published subject (l ++ [m]) = published subject l ++ (m.published? subject).toList := by
  rw [published, List.filterMap_append]
  cases hm : m.published? subject <;> simp [published, hm]

/-- Going from one engine to another by a row of deeds. -/
inductive Runs (s : Settings) (e₀ : Engine) : List Moment → Engine → Prop
  /-- nothing happens -/
  | nil : Runs s e₀ [] e₀
  /-- one more deed -/
  | snoc {l : List Moment} {e e' : Engine} {d : Deed} :
      Runs s e₀ l e → e.after s d = some e' → Runs s e₀ (l ++ [⟨e, d⟩]) e'

/-- An engine at its start: nobody has asked for anything. -/
def fresh (file : Stored) (source : Option (Option (Fields String))) (buffer busCapacity : Nat) :
    Engine :=
  { file := file, source := source, broadcaster := .ofBuffer buffer busCapacity }

/-- What a fresh engine can come to, by some row of deeds. -/
def Reached (s : Settings) (l : List Moment) (e : Engine) : Prop :=
  ∃ file source buffer busCapacity, Runs s (fresh file source buffer busCapacity) l e

theorem Runs.trans {s : Settings} {e₀ e₁ e₂ : Engine} {l₁ l₂ : List Moment}
    (h₁ : Runs s e₀ l₁ e₁) (h₂ : Runs s e₁ l₂ e₂) : Runs s e₀ (l₁ ++ l₂) e₂ := by
  induction h₂ with
  | nil =>
    rw [List.append_nil]
    exact h₁
  | snoc _ hd ih =>
    rw [← List.append_assoc]
    exact ih.snoc hd

/-- What is reached goes on being reached. -/
theorem Reached.trans {s : Settings} {e e' : Engine} {l l' : List Moment} (h : Reached s l e)
    (h' : Runs s e l' e') : Reached s (l ++ l') e' := by
  obtain ⟨file, source, buffer, busCapacity, hruns⟩ := h
  exact ⟨file, source, buffer, busCapacity, hruns.trans h'⟩

theorem Runs.one {s : Settings} {e e' : Engine} {d : Deed} (h : e.after s d = some e') :
    Runs s e [⟨e, d⟩] e' :=
  Runs.nil.snoc h

theorem Reached.snoc {s : Settings} {e e' : Engine} {l : List Moment} {d : Deed}
    (h : Reached s l e) (hd : e.after s d = some e') : Reached s (l ++ [⟨e, d⟩]) e' :=
  h.trans (.one hd)

/-- **Along a course**: what holds of every fresh engine, and after every deed if it did before,
holds of all that is reached. -/
@[elab_as_elim]
theorem Reached.along {s : Settings} {motive : ∀ l e, Reached s l e → Prop}
    (start : ∀ file source buffer busCapacity, motive [] (fresh file source buffer busCapacity)
      ⟨file, source, buffer, busCapacity, .nil⟩)
    (snoc : ∀ {l : List Moment} {e e' : Engine} {d : Deed} (h : Reached s l e)
      (hd : e.after s d = some e'), motive l e h → motive (l ++ [⟨e, d⟩]) e' (h.snoc hd))
    {l : List Moment} {e : Engine} (h : Reached s l e) : motive l e h := by
  obtain ⟨file, source, buffer, busCapacity, hruns⟩ := h
  induction hruns with
  | nil => exact start file source buffer busCapacity
  | snoc hr hd ih => exact snoc ⟨file, source, buffer, busCapacity, hr⟩ hd ih

/-- Does a row of deeds, if all of them are possible. -/
def replay (s : Settings) (e : Engine) : List Deed → Option (List Moment × Engine)
  | [] => some ([], e)
  | d :: rest =>
    match e.after s d with
    | some e₁ => (replay s e₁ rest).map fun (l, e') => (⟨e, d⟩ :: l, e')
    | none => none

theorem replay_runs {s : Settings} {e e' : Engine} {ds : List Deed} {l : List Moment}
    (h : e.replay s ds = some (l, e')) : Runs s e l e' := by
  induction ds generalizing e l with
  | nil =>
    cases h
    exact .nil
  | cons d rest ih =>
    rw [replay] at h
    split at h
    · next e₁ hd =>
      obtain ⟨⟨l', e''⟩, hrest, heq⟩ := Option.map_eq_some_iff.mp h
      cases heq
      exact (Runs.one hd).trans (ih hrest)
    · cases h

/-- What is done is what was written down. -/
theorem replay_deeds {s : Settings} {e e' : Engine} {ds : List Deed} {l : List Moment}
    (h : e.replay s ds = some (l, e')) : l.map Moment.deed = ds := by
  induction ds generalizing e l with
  | nil =>
    cases h
    rfl
  | cons d rest ih =>
    rw [replay] at h
    split at h
    · obtain ⟨⟨l', e''⟩, hrest, heq⟩ := Option.map_eq_some_iff.mp h
      cases heq
      exact congrArg (d :: ·) (ih hrest)
    · cases h

/-- What every deed keeps is kept all along. -/
theorem Runs.keeps {s : Settings} {P : Engine → Prop}
    (hstep : ∀ e d e', P e → e.after s d = some e' → P e') {e₀ e : Engine} {l : List Moment}
    (h : Runs s e₀ l e) (h₀ : P e₀) : P e := by
  induction h with
  | nil => exact h₀
  | snoc _ hd ih => exact hstep _ _ _ ih hd

/-! ## Trying out -/

/-- Settings to try courses out: no script is found, since the search for it breaks
down, and runs are named after their project and number. -/
def trial : Settings where
  around := { config := {}, shared := fun _ => .broken
              execute := fun _ => Sandbox.executeAmid (fun _ _ => .error "") (.ofSeed 0 0) 0 }
  epoch := ⟨2024, 1, 1, 0, 0, 0, 0⟩
  nameRun := fun project n => String.ofList (List.replicate n '#' ++ ':' :: project.toList)

/-- A call to start a project of one node. -/
def trialStart : Call := .start "p" { nodes := [{ id := "a" }], edges := [] } {}

/-- A task does some jobs, one after the other. -/
def works (id n : Nat) : List Deed := List.replicate n (.work id)

/-! ## Tasks -/

theorem setTask_nextTask (e : Engine) (id : Nat) (t : Task) :
    (e.setTask id t).nextTask = e.nextTask := rfl

/-- Tasks have numbers of their own, and no number is used twice. -/
structure Numbered (e : Engine) : Prop where
  /-- numbers to come are free -/
  below : ∀ x ∈ e.tasks, x.1 < e.nextTask
  /-- no two tasks have the same -/
  distinct : (e.tasks.map Prod.fst).Nodup

/-- The place of a task among all tasks. -/
theorem tasks_split {e : Engine} (hn : e.Numbered) {id : Nat} {t : Task}
    (ht : e.task? id = some t) :
    ∃ front back, e.tasks = front ++ (id, t) :: back ∧ (∀ x ∈ front, x.1 ≠ id) ∧
      ∀ x ∈ back, x.1 ≠ id := by
  obtain ⟨⟨i, t'⟩, hfind, rfl⟩ := Option.map_eq_some_iff.mp ht
  obtain ⟨hi, front, back, hsplit, hfront⟩ := List.find?_eq_some_iff_append.mp hfind
  obtain rfl : i = id := of_decide_eq_true hi
  refine ⟨front, back, hsplit, ?_, ?_⟩
  · intro x hx
    simpa using hfront x hx
  · intro x hx heq
    have hd := hn.distinct
    rw [hsplit, List.map_append, List.map_cons] at hd
    have hcons := (List.nodup_append.mp hd).2.1
    exact (List.nodup_cons.mp hcons).1 (List.mem_map.mpr ⟨x, hx, heq⟩)

theorem filter_others {id : Nat} {l : List (Nat × Task)} (h : ∀ x ∈ l, x.1 ≠ id) :
    (l.filter fun (i, _) => i ≠ id) = l :=
  List.filter_eq_self.mpr fun x hx => decide_eq_true (h x hx)

/-- Setting a task changes it in its place. -/
theorem setTask_tasks {e : Engine} {id : Nat} {old t : Task} {front back : List (Nat × Task)}
    (hsplit : e.tasks = front ++ (id, old) :: back) (hfront : ∀ x ∈ front, x.1 ≠ id)
    (hback : ∀ x ∈ back, x.1 ≠ id) :
    (e.setTask id t).tasks =
      front ++ (if t.left.isEmpty && t.reply.isNone then [] else [(id, t)]) ++ back := by
  have hmap : ∀ l : List (Nat × Task), (∀ x ∈ l, x.1 ≠ id) →
      (l.map fun x => if x.1 = id then (x.1, t) else (x.1, x.2)) = l := by
    intro l hl
    refine (List.map_congr_left fun x hx => ?_).trans (List.map_id l)
    rw [if_neg (hl x hx)]
    rfl
  change (if t.left.isEmpty && t.reply.isNone then e.tasks.filter (fun (i, _) => i ≠ id)
    else e.tasks.map fun x => if x.1 = id then (x.1, t) else (x.1, x.2)) = _
  split
  · rw [hsplit, List.filter_append, List.filter_cons, filter_others hfront, filter_others hback]
    simp
  · rw [hsplit, List.map_append, List.map_cons, hmap front hfront, hmap back hback]
    simp

end Workflow.Engine
