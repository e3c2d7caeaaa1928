import Workflow.Proofs.Engine.Settling
import Workflow.Proofs.Watch.Fanout

/-!
# What watchers get

From its registration on a watcher gets its greeting and then all that is published on its subject
at moments at which it can take it (`Broadcaster.takes`): it is registered, its reading end is there and its
queue has room. What does not fit is lost, and nothing else is: what the watcher has read and what
is queued for it is its greeting and what has arrived, in order (`Attending`), whatever happens, as
long as it does not go away.

The watchers of journals come in between as well; their jobs mind numbers of their own
(`Job.minds?`).
-/

namespace Workflow

/-! ## Handing out -/

section Deliver

variable {subject : String} {w : Broadcaster.Watcher}

/-- Handing out an event gives it to the watchers of its subject. -/
theorem Broadcaster.Holds.deliver {b : Broadcaster} {watcher : Nat} (ht : b.Tidy)
    (h : b.Holds subject watcher w) (s : String) (event : Event) :
    (b.deliver s event).Holds subject watcher
      (if s = subject then w.after subject (.publish event) else w) := by
  have hp := h.publish ht s event
  exact ⟨hp.box, hp.listed, hp.elsewhere⟩

/-- A watcher with room in its queue gets what is handed out. -/
theorem Broadcaster.Watcher.publish_with_room (hl : w.isListed = true)
    (hr : w.box.dropped = false) (hroom : w.box.items.length < w.box.capacity) (event : Event) :
    w.after subject (.publish event) =
      { w with box := { w.box with items := w.box.items ++ [⟨subject, event⟩] } } := by
  have houtcome : w.box.outcome = .queued := by
    rw [Mailbox.outcome, hr, if_neg Bool.false_ne_true, if_pos hroom]
  rw [Watcher.after, if_pos hl, hr, if_neg Bool.false_ne_true, Mailbox.send, houtcome]

/-- A watcher whose queue is full goes on without what is handed out. -/
theorem Broadcaster.Watcher.publish_without_room (hl : w.isListed = true)
    (hr : w.box.dropped = false) (hfull : w.box.capacity ≤ w.box.items.length) (event : Event) :
    w.after subject (.publish event) = w := by
  have houtcome : w.box.outcome = .full := by
    rw [Mailbox.outcome, hr, if_neg Bool.false_ne_true, if_neg (Nat.not_lt.mpr hfull)]
  rw [Watcher.after, if_pos hl, hr, if_neg Bool.false_ne_true, Mailbox.send, houtcome]

/-- Whether a watcher can take what is published on a subject: it is registered there, its reading
end is there, and its queue has room. -/
def Broadcaster.takes (b : Broadcaster) (subject : String) (watcher : Nat) : Bool :=
  (b.watchers subject).contains watcher && (b.box? watcher).any fun box => box.outcome = .queued

/-- A watcher that is registered and whose reading end is there takes what there is room for. -/
theorem Broadcaster.Holds.takes_iff {b : Broadcaster} {watcher : Nat}
    (h : b.Holds subject watcher w) (hl : w.isListed = true) (hr : w.box.dropped = false) :
    b.takes subject watcher = true ↔ w.box.items.length < w.box.capacity := by
  have hlisted := h.listed.mpr hl
  simp [takes, h.box, hlisted, Mailbox.outcome, hr]

end Deliver

namespace Engine

open Engine.Job

/-! ## Cutting courses -/

section Courses

variable {s : Settings} {e₀ e : Engine} {l l₁ l₂ : List Moment} {m : Moment}

/-- A course can be cut anywhere. -/
theorem Runs.cut (h : Runs s e₀ (l₁ ++ l₂) e) : ∃ e₁, Runs s e₀ l₁ e₁ ∧ Runs s e₁ l₂ e := by
  generalize heq : l₁ ++ l₂ = l at h
  induction h generalizing l₂ with
  | nil =>
    obtain ⟨rfl, rfl⟩ := List.append_eq_nil_iff.mp heq
    exact ⟨e₀, .nil, .nil⟩
  | @snoc front e e' d hr hd ih =>
    -- the last deed is behind the cut, unless nothing is
    rcases List.eq_nil_or_concat l₂ with rfl | ⟨rest, last, rfl⟩
    · rw [List.append_nil] at heq
      subst heq
      exact ⟨e', hr.snoc hd, .nil⟩
    · rw [List.concat_eq_append] at heq ⊢
      rw [← List.append_assoc] at heq
      obtain ⟨hfront, hlast⟩ := List.append_inj' heq rfl
      obtain rfl := List.singleton_inj.mp hlast
      obtain ⟨e₁, hl, hrest⟩ := ih hfront
      exact ⟨e₁, hl, hrest.snoc hd⟩

/-- What a moment of a course comes from, what it is, and what comes of it. -/
theorem Runs.split (h : Runs s e₀ (l₁ ++ m :: l₂) e) :
    ∃ e₁, Runs s e₀ l₁ m.before ∧ m.before.after s m.deed = some e₁ ∧ Runs s e₁ l₂ e := by
  rw [List.append_cons] at h
  obtain ⟨e₁, hfront, hrest⟩ := h.cut
  generalize hl : l₁ ++ [m] = l at hfront
  cases hfront with
  | nil => exact absurd hl (by simp)
  | @snoc front e e' d hr hd =>
    obtain ⟨rfl, hm⟩ := List.append_inj' hl rfl
    obtain rfl := List.singleton_inj.mp hm
    exact ⟨e₁, hr, hd, hrest⟩

/-- What came before a moment. -/
theorem Reached.upTo (h : Reached s (l₁ ++ m :: l₂) e) :
    Reached s l₁ m.before := by
  obtain ⟨file, source, buffer, busCapacity, hruns⟩ := h
  obtain ⟨_, hfront, -⟩ := hruns.split
  exact ⟨file, source, buffer, busCapacity, hfront⟩

end Courses

/-! ## What jobs do to watchers -/

/-- Whether a job hands out an event. -/
def Job.delivers : Job → Bool
  | deliver .. => true
  | _ => false

/-- What a job makes of the watchers. -/
inductive Casts (b : Broadcaster) : Job → Broadcaster → Prop
  /-- a watcher is registered -/
  | joined (subject : String) (greeting : List Event) :
      Casts b (.subscribe subject greeting) (b.subscribe subject greeting).2
  /-- a journal is -/
  | kept (run : String) : Casts b (.keepJournal run) (b.subscribe run []).2
  /-- an event is handed out -/
  | delivered (subject : String) (event : Event) :
      Casts b (.deliver subject event) (b.deliver subject event)
  /-- an envelope is put on the bus -/
  | announced (envelope : Envelope) : Casts b (.announce envelope) (b.announce envelope)
  /-- a journal takes what came in -/
  | drained (run : String) (watcher : Nat) :
      Casts b (.writeJournal run watcher) (b.drain watcher).2
  /-- a watcher is taken off -/
  | left (subject : String) (watcher : Nat) :
      Casts b (.unsubscribe subject watcher) (b.unsubscribe subject watcher).2
  /-- nothing -/
  | aside {job : Job} : job.delivers = false → Casts b job b

/-- What a deed that is no work of a task makes of the watchers. -/
def Deed.casts (b : Broadcaster) : Deed → Broadcaster
  | read id => (b.receive id).2
  | leave id => b.drop id
  | _ => b

/-- The watcher of a journal that a job minds. -/
def Job.minds? : Job → Option Nat
  | openJournal _ watcher | writeJournal _ watcher | unsubscribe _ watcher => some watcher
  | _ => none

/-- Whether a job is there for a watcher. -/
def Job.attends : Job → Bool
  | subscribe .. | openJournal .. | writeJournal .. | unsubscribe .. => true
  | _ => false

theorem Job.attends_of_minds? {j : Job} {watcher : Nat} (h : j.minds? = some watcher) :
    j.attends = true := by
  cases j <;> first | rfl | cases h

/-- Which jobs for watchers come of which. -/
inductive Attends (e : Engine) : Job → Job → Prop
  /-- who is to be greeted is registered, with what is known now -/
  | greeted (subject : String) :
      Attends e (.greet subject) (.subscribe subject (e.table.greeting subject))
  /-- the watcher of a journal is the next one -/
  | kept (run : String) : Attends e (.keepJournal run) (.openJournal run e.broadcaster.nextId)
  /-- a journal that is opened is written -/
  | opened (run : String) (watcher : Nat) :
      Attends e (.openJournal run watcher) (.writeJournal run watcher)
  /-- and on and on -/
  | written (run : String) (watcher : Nat) :
      Attends e (.writeJournal run watcher) (.writeJournal run watcher)
  /-- until nothing more comes -/
  | ended (run : String) (watcher : Nat) :
      Attends e (.writeJournal run watcher) (.unsubscribe run watcher)

section Jobs

variable {s : Settings} {e e₁ : Engine} {job : Job} {next : List Job}

/-- **What becomes of the watchers** when a job is done. -/
theorem run_casts (h : job.run s e = some (next, e₁)) : Casts e.broadcaster job e₁.broadcaster := by
  cases job
  case subscribe subject greeting =>
    cases h
    exact .joined subject greeting
  case keepJournal run =>
    cases h
    exact .kept run
  case deliver subject event =>
    cases h
    exact .delivered subject event
  case announce envelope =>
    cases h
    exact .announced envelope
  case unsubscribe subject watcher =>
    cases h
    exact .left subject watcher
  case writeJournal run watcher =>
    simp only [Job.run, writeDown] at h
    split at h
    · cases h
    · cases h
      exact .drained run watcher
  case stop run =>
    cases run_cases h with
    | aside ha => cases ha
    | notStopped => exact .aside rfl
    | stopped =>
      have hsame : ∀ (own : Bool) (t : RunTable), ((if own then (e.readClock s).2.cancel run
          else (e.readClock s).2).setTable t).broadcaster = e.broadcaster := by
        intro own t
        cases own with
        | false => rfl
        | true =>
          obtain ⟨walks, heq⟩ := (e.readClock s).2.cancel_eq run
          rw [if_pos rfl, heq]
          rfl
      rw [hsame]
      exact .aside rfl
  case drive project run =>
    cases run_cases h with
    | aside ha => cases ha
    | followed hf => cases hf <;> exact .aside rfl
  case settle project run =>
    cases run_cases h with
    | aside ha => cases ha
    | settled hs => cases hs <;> exact .aside rfl
  all_goals
    simp only [Job.run, goOn, postMessage] at h
    repeat' split at h
  all_goals cases h
  all_goals exact .aside rfl

/-- **Jobs for watchers come of such jobs**, or of a greeting or a journal. -/
theorem attends_next (h : job.run s e = some (next, e₁)) {j : Job}
    (hj : j ∈ next ∨ j ∈ (job.spawned e).flatten) (ha : j.attends = true) : Attends e job j := by
  rcases hj with hj | hj
  case inr =>
    cases job <;> simp only [spawned, List.flatten_cons, List.flatten_nil, List.append_nil,
      List.mem_append, List.mem_singleton, List.not_mem_nil] at hj
    case keepJournal run =>
      subst hj
      exact .kept run
    case launch project run => rcases hj with rfl | rfl <;> cases ha
  case inl =>
    cases hjob : job.isAside with
    | false =>
      rcases mem_next_routine h hjob hj with hroutine | hleads
      · cases j <;> first | cases hroutine; done | cases ha
      · cases hleads <;> cases ha
    | true =>
      cases job
      case greet subject =>
        cases h
        obtain rfl := List.mem_singleton.mp hj
        exact .greeted subject
      case openJournal run watcher =>
        cases h
        obtain rfl := List.mem_singleton.mp hj
        exact .opened run watcher
      case writeJournal run watcher =>
        simp only [Job.run, writeDown] at h
        split at h
        · cases h
        · cases h
          split at hj
          · obtain rfl := List.mem_singleton.mp hj
            exact .ended run watcher
          · obtain rfl := List.mem_singleton.mp hj
            exact .written run watcher
      -- what these leave to do is not there for watchers
      all_goals exfalso
      case plan =>
        cases h
        obtain ⟨decision, -, hj⟩ := List.mem_flatMap.mp hj
        cases decision <;> simp only [ofDecision, List.mem_cons, List.not_mem_nil, or_false] at hj
        · rcases hj with rfl | rfl <;> cases ha
        · subst hj
          cases ha
      case shutDown =>
        cases h
        simp only [List.mem_append, List.mem_map, List.mem_cons, List.not_mem_nil, or_false] at hj
        rcases hj with ⟨run, -, rfl⟩ | rfl | rfl <;> cases ha
      case dropMissing ids =>
        cases h
        obtain ⟨project, -, rfl⟩ := List.mem_map.mp hj
        cases ha
      case loadProjects =>
        simp only [Job.run] at h
        repeat' split at h
        all_goals cases h
        · cases hj
        · cases hj
        · simp only [List.mem_append, List.mem_map, List.mem_singleton] at hj
          rcases hj with ⟨p, -, rfl⟩ | rfl <;> cases ha
      -- all others aside leave a short row of jobs to do
      all_goals first
        | cases hjob; done
        | skip
      all_goals
        refine absurd ha (Bool.eq_false_iff.mp ?_)
        clear ha
        revert j
        simp only [Job.run] at h
        repeat' split at h
      all_goals cases h
      all_goals simp [replying, Job.attends]

end Jobs

/-! ## What a watcher gets -/

/-- What a watcher reads at a moment. -/
def Moment.reads? (watcher : Nat) (m : Moment) : Option Envelope :=
  match m.deed with
  | .read id => if id = watcher then (m.before.broadcaster.receive id).1 else none
  | _ => none

/-- All that a watcher has read, in order. -/
def readBy (watcher : Nat) (l : List Moment) : List Envelope :=
  l.filterMap (Moment.reads? watcher)

/-- What arrives at a watcher of a subject at a moment. -/
def Moment.arrived? (subject : String) (watcher : Nat) (m : Moment) : Option Event :=
  if m.before.broadcaster.takes subject watcher then m.published? subject else none

/-- All that has arrived at a watcher of a subject, in order. -/
def arrived (subject : String) (watcher : Nat) (l : List Moment) : List Event :=
  l.filterMap (Moment.arrived? subject watcher)

/-- All that a watcher has got: what it has read and what is queued for it. -/
def got (watcher : Nat) (l : List Moment) (e : Engine) : List Envelope :=
  readBy watcher l ++ e.broadcaster.queued watcher

/-- What is published on a subject at a moment finds the queue of a watcher full. -/
def Moment.Overflows (subject : String) (watcher : Nat) (m : Moment) : Prop :=
  (m.published? subject).isSome = true ∧
    ∃ box, m.before.broadcaster.box? watcher = some box ∧ box.capacity ≤ box.items.length

/-- The watchers are in order: nobody is registered twice, and jobs mind watchers that have come. -/
structure Watched (e : Engine) : Prop where
  /-- nobody is registered twice -/
  tidy : e.broadcaster.Tidy
  /-- who is minded has a number that was given -/
  minded : ∀ j ∈ e.pending, ∀ watcher, j.minds? = some watcher → watcher < e.broadcaster.nextId

/-- **Attending**: a watcher was greeted and registered, and has got its greeting and all that has
arrived on its subject since. -/
structure Attending (subject : String) (watcher : Nat) (greeting : List Event) (l : List Moment)
    (e : Engine) : Prop where
  /-- it is registered, can be reached, and has got all -/
  held : ∃ w, Broadcaster.Holds e.broadcaster subject watcher w ∧ w.isListed = true ∧
    w.box.dropped = false ∧ w.box.closed = false ∧ readBy watcher l ++ w.box.items =
      (greeting ++ arrived subject watcher l).map (⟨subject, ·⟩)
  /-- it is no journal's -/
  apart : ∀ j ∈ e.pending, j.minds? ≠ some watcher

section Watchers

variable {s : Settings} {e e' e₁ : Engine} {job : Job} {next rest : List Job} {id : Nat}
  {reply reply' : Option Reply} {subject : String} {watcher : Nat} {greeting : List Event}
  {l : List Moment}

theorem jobs_attends (c : Call) : ∀ j ∈ c.jobs, j.attends = false := by
  intro j hj
  cases c with
  | send run m =>
    obtain rfl := List.mem_singleton.mp hj
    cases m <;> rfl
  | pass =>
    simp only [Call.jobs, passing, List.mem_cons, List.not_mem_nil, or_false] at hj
    rcases hj with rfl | rfl | rfl <;> rfl
  | _ =>
    obtain rfl := List.mem_singleton.mp hj
    rfl

/-- Who minds a watcher comes of one who does, or the watcher is the next one. -/
theorem minds_next (h : job.run s e = some (next, e₁)) {j : Job}
    (hj : j ∈ next ∨ j ∈ (job.spawned e).flatten) (hminds : j.minds? = some watcher) :
    job.minds? = some watcher ∨ watcher = e.broadcaster.nextId := by
  cases attends_next h hj (Job.attends_of_minds? hminds) with
  | greeted => cases hminds
  | kept =>
    cases hminds
    exact Or.inr rfl
  | opened => exact Or.inl hminds
  | written => exact Or.inl hminds
  | ended => exact Or.inl hminds

/-- No number of a watcher is given back. -/
theorem Casts.nextId {b b' : Broadcaster} (h : Casts b job b') : b.nextId ≤ b'.nextId := by
  cases h with
  | joined => exact Nat.le_succ _
  | kept => exact Nat.le_succ _
  | delivered s event =>
    obtain ⟨_, _, heq⟩ := b.deliver_eq s event
    exact Nat.le_of_eq (by rw [heq])
  | announced => exact Nat.le_refl _
  | drained => exact Nat.le_refl _
  | left s i =>
    rw [Broadcaster.unsubscribe]
    split <;> exact Nat.le_refl _
  | aside => exact Nat.le_refl _

theorem Casts.tidy {b b' : Broadcaster} (h : Casts b job b') (ht : b.Tidy) : b'.Tidy := by
  cases h with
  | joined s greeting => exact ht.subscribe s greeting
  | kept run => exact ht.subscribe run []
  | delivered s event => exact ht.deliver s event
  | announced => exact ⟨ht.distinct, ht.below, ht.boxed⟩
  | drained run i => exact ht.updateBox i fun m => { m with items := [] }
  | left s i => exact ht.after (.unsubscribe s i)
  | aside => exact ht

/-- The number of a new watcher of a journal is counted. -/
theorem nextId_of_minds (h : job.run s e = some (next, e₁)) {j : Job}
    (hj : j ∈ next ∨ j ∈ (job.spawned e).flatten) (hminds : j.minds? = some watcher)
    (hold : ∀ w, job.minds? = some w → w < e.broadcaster.nextId) :
    watcher < e₁.broadcaster.nextId := by
  have hmono := (run_casts h).nextId
  cases attends_next h hj (Job.attends_of_minds? hminds) with
  | greeted => cases hminds
  | kept =>
    cases hminds
    cases h
    exact Nat.lt_succ_self _
  | opened => exact Nat.lt_of_lt_of_le (hold _ hminds) hmono
  | written => exact Nat.lt_of_lt_of_le (hold _ hminds) hmono
  | ended => exact Nat.lt_of_lt_of_le (hold _ hminds) hmono

theorem after_watchers {d : Deed} (hwork : ∀ id, d ≠ .work id) (h : e.after s d = some e') :
    e'.broadcaster = d.casts e.broadcaster := by
  cases d
  case work id => exact absurd rfl (hwork id)
  all_goals
    simp only [after] at h
    repeat' split at h
  all_goals
    cases h
  all_goals rfl

/-- No number of a watcher is given back, whatever happens. -/
theorem nextId_after (hn : e.Numbered) {d : Deed} (hd : e.after s d = some e') :
    e.broadcaster.nextId ≤ e'.broadcaster.nextId := by
  cases after_cases hn hd with
  | worked _ hrun =>
    have hmono := (run_casts hrun).nextId
    exact hmono
  | asked => exact Nat.le_refl _
  | still _ hwork _ =>
    rw [after_watchers hwork hd]
    unfold Deed.casts
    split <;> exact Nat.le_refl _

theorem watched_after (hn : e.Numbered) (hw : Watched e) {d : Deed} (hd : e.after s d = some e') :
    Watched e' := by
  cases after_cases hn hd with
  | @worked _ _ _ _ _ e₁ ht hrun =>
    have hold := hw.minded _ (mem_pending ht List.mem_cons_self)
    have hmono := (run_casts hrun).nextId
    refine ⟨(run_casts hrun).tidy hw.tidy, ?_⟩
    refine forall_pending_work hn ht hrun (fun j hj w hminds => ?_) fun j hj w hminds => ?_
    · exact Nat.lt_of_lt_of_le (hw.minded j hj w hminds) hmono
    · have hnew := nextId_of_minds hrun hj hminds hold
      exact hnew
  | @asked c =>
    refine ⟨hw.tidy, List.forall_mem_append.mpr ⟨fun j hj w hminds => ?_, hw.minded⟩⟩
    cases (jobs_attends c j hj).symm.trans (Job.attends_of_minds? hminds)
  | still _ hwork hstill =>
    have hcasts := after_watchers hwork hd
    refine ⟨?_, ?_⟩
    · rw [hcasts]
      unfold Deed.casts
      split
      · exact hw.tidy.updateBox _ (·.receive)
      · exact hw.tidy.updateBox _ fun m => { m with items := [], dropped := true }
      · exact hw.tidy
    · have hnext : e'.broadcaster.nextId = e.broadcaster.nextId := by
        rw [hcasts]
        unfold Deed.casts
        split <;> rfl
      rw [hstill.pending, hnext]
      exact hw.minded

theorem watched_fresh (file : Stored) (source : Option (Option (Fields String)))
    (buffer busCapacity : Nat) : Watched (fresh file source buffer busCapacity) where
  tidy := Broadcaster.tidy_ofBuffer buffer busCapacity
  minded := fun _ hj => nomatch hj

theorem Reached.watched (h : Reached s l e) : Watched e :=
  h.keeps watched_fresh fun _ _ _ hn hw hd => watched_after hn hw hd

/-! ### One watcher -/

theorem reads?_idle {d : Deed} (hread : ∀ id, d ≠ .read id) (watcher : Nat) :
    (⟨e, d⟩ : Moment).reads? watcher = none := by
  cases d
  case read id => exact absurd rfl (hread id)
  all_goals rfl

theorem arrived_snoc (subject : String) (watcher : Nat) (l : List Moment) (m : Moment) :
    arrived subject watcher (l ++ [m]) =
      arrived subject watcher l ++ (m.arrived? subject watcher).toList := by
  rw [arrived, List.filterMap_append]
  cases hm : m.arrived? subject watcher <;> simp [arrived, hm]

theorem arrived?_none (watcher : Nat) {m : Moment} (h : m.published? subject = none) :
    m.arrived? subject watcher = none := by
  rw [Moment.arrived?, h, ite_self]

theorem readBy_snoc (watcher : Nat) (l : List Moment) (m : Moment) :
    readBy watcher (l ++ [m]) = readBy watcher l ++ (m.reads? watcher).toList := by
  rw [readBy, List.filterMap_append]
  cases hm : m.reads? watcher <;> simp [readBy, hm]

/-- Nothing arrives at a watcher that has not come yet. -/
theorem Reached.arrived_unborn (h : Reached s l e) (hnew : e.broadcaster.nextId ≤ watcher)
    (subject : String) : arrived subject watcher l = [] := by
  induction h using Reached.along with
  | start => rfl
  | @snoc l e e' d hreached hd ih =>
    have hbefore := Nat.le_trans (nextId_after hreached.numbered hd) hnew
    have hnone : e.broadcaster.box? watcher = none :=
      Option.eq_none_iff_forall_ne_some.mpr fun _ hbox =>
        Nat.not_lt.mpr hbefore (hreached.watched.tidy.boxed hbox)
    have hnot : e.broadcaster.takes subject watcher = false := by
      simp [Broadcaster.takes, hnone]
    rw [arrived_snoc, ih hbefore, Moment.arrived?, hnot]
    rfl

/-- **One watcher, and a job that does not mind it**: it gets what the job hands out on its subject,
and is left as it was by all else. -/
theorem Casts.holds {b b' : Broadcaster} {w : Broadcaster.Watcher} (h : Casts b job b')
    (ht : b.Tidy) (hheld : b.Holds subject watcher w) (hminds : job.minds? ≠ some watcher) :
    (∃ event, job = .deliver subject event ∧
        b'.Holds subject watcher (w.after subject (.publish event))) ∨
      ((∀ event, job ≠ .deliver subject event) ∧ b'.Holds subject watcher w) := by
  cases h with
  | joined s greeting => exact Or.inr ⟨by rintro _ ⟨⟩, hheld.subscribe ht s greeting⟩
  | kept run => exact Or.inr ⟨by rintro _ ⟨⟩, hheld.subscribe ht run []⟩
  | announced =>
    exact Or.inr ⟨by rintro _ ⟨⟩, ⟨hheld.box, hheld.listed, hheld.elsewhere⟩⟩
  | drained run i =>
    have hother := hheld.updateBox i fun m => { m with items := [] }
    rw [if_neg (fun heq => hminds (congrArg some heq))] at hother
    exact Or.inr ⟨by rintro _ ⟨⟩, hother⟩
  | left s i =>
    have hother := hheld.unsubscribe s i
    rw [if_neg (fun hboth => hminds (congrArg some hboth.2))] at hother
    exact Or.inr ⟨by rintro _ ⟨⟩, hother⟩
  | aside hnot =>
    refine Or.inr ⟨?_, hheld⟩
    rintro event rfl
    cases hnot
  | delivered recipient event =>
    have hnow := hheld.deliver ht recipient event
    by_cases hrecipient : recipient = subject
    · subst hrecipient
      rw [if_pos rfl] at hnow
      exact Or.inl ⟨event, rfl, hnow⟩
    · rw [if_neg hrecipient] at hnow
      refine Or.inr ⟨fun other heq => ?_, hnow⟩
      cases heq
      exact hrecipient rfl

/-- The work of a task leaves a watcher with what it has got, and what arrives now. -/
theorem Attending.work (ha : Attending subject watcher greeting l e) (hn : e.Numbered)
    (hw : Watched e) (ht : e.task? id = some ⟨job :: rest, reply⟩)
    (h : job.run s e = some (next, e₁)) :
    Attending subject watcher greeting (l ++ [⟨e, .work id⟩])
      (e₁.setTask id ⟨next ++ rest, reply'⟩) where
  held := by
    obtain ⟨w, hheld, hlisted, hdropped, hclosed, hgot⟩ := ha.held
    have hjob := job?_work ht
    have hread : readBy watcher (l ++ [⟨e, .work id⟩]) = readBy watcher l := by
      rw [readBy_snoc]
      exact List.append_nil _
    -- unless an event arrives, it is enough that the watcher stays
    have hstays : (⟨e, .work id⟩ : Moment).arrived? subject watcher = none →
        e₁.broadcaster.Holds subject watcher w →
        ∃ w, e₁.broadcaster.Holds subject watcher w ∧ w.isListed = true ∧ w.box.dropped = false ∧
          w.box.closed = false ∧ readBy watcher (l ++ [⟨e, .work id⟩]) ++ w.box.items =
            (greeting ++ arrived subject watcher (l ++ [⟨e, .work id⟩])).map (⟨subject, ·⟩) := by
      intro hnone hheld'
      refine ⟨w, hheld', hlisted, hdropped, hclosed, ?_⟩
      rw [hread, arrived_snoc, hnone, Option.toList_none, List.append_nil]
      exact hgot
    change ∃ w, e₁.broadcaster.Holds subject watcher w ∧ _
    rcases (run_casts h).holds hw.tidy hheld (ha.apart job (mem_pending ht List.mem_cons_self)) with
      ⟨event, rfl, hheld'⟩ | ⟨hnot, hheld'⟩
    · have hpublished : (⟨e, .work id⟩ : Moment).published? subject = some event := by
        rw [Moment.published?, hjob]
        exact if_pos rfl
      have htakes := hheld.takes_iff hlisted hdropped
      by_cases hfree : w.box.items.length < w.box.capacity
      · rw [Broadcaster.Watcher.publish_with_room hlisted hdropped hfree] at hheld'
        have harrived : (⟨e, .work id⟩ : Moment).arrived? subject watcher = some event := by
          rw [Moment.arrived?, if_pos (htakes.mpr hfree), hpublished]
        refine ⟨_, hheld', hlisted, hdropped, hclosed, ?_⟩
        rw [hread, arrived_snoc, harrived, ← List.append_assoc, hgot]
        simp only [List.map_append, Option.toList_some, List.map_cons, List.map_nil,
          List.append_assoc]
      · have hfull := Nat.not_lt.mp hfree
        rw [Broadcaster.Watcher.publish_without_room hlisted hdropped hfull] at hheld'
        refine hstays ?_ hheld'
        rw [Moment.arrived?, if_neg (mt htakes.mp hfree)]
    · refine hstays (arrived?_none watcher ?_) hheld'
      rw [Moment.published?, hjob]
      split
      · next recipient event heq =>
        cases heq
        exact if_neg fun heq : recipient = subject => hnot event (heq ▸ rfl)
      · rfl
  apart := by
    refine forall_pending_work hn ht h ha.apart fun j hj hminds => ?_
    rcases minds_next h hj hminds with hjob | hnew
    · exact ha.apart job (mem_pending ht List.mem_cons_self) hjob
    -- the number of the next watcher is not that of one who has come
    · obtain ⟨w, hheld, -⟩ := ha.held
      exact Nat.lt_irrefl _ (hnew ▸ hw.tidy.boxed hheld.box)

/-- **Every deed leaves a watcher with what it has got, and what arrives now**, if it does not go
away. -/
theorem Attending.after (ha : Attending subject watcher greeting l e) (hn : e.Numbered)
    (hw : Watched e) {d : Deed} (hd : e.after s d = some e') (hstay : d ≠ .leave watcher) :
    Attending subject watcher greeting (l ++ [⟨e, d⟩]) e' := by
  have hidle : (∀ id, d ≠ .work id) → (∀ j ∈ e'.pending, j.minds? ≠ some watcher) →
      Attending subject watcher greeting (l ++ [⟨e, d⟩]) e' := by
    intro hwork hapart
    obtain ⟨w, hheld, hlisted, hdropped, hclosed, hgot⟩ := ha.held
    have hcasts := after_watchers hwork hd
    have hsilent : (⟨e, d⟩ : Moment).arrived? subject watcher = none := by
      refine arrived?_none watcher ?_
      rw [Moment.published?, job?_of_ne hwork]
    refine ⟨?_, hapart⟩
    rw [arrived_snoc, hsilent, Option.toList_none, List.append_nil, readBy_snoc, hcasts, ← hgot]
    unfold Deed.casts
    split
    · next i =>
      have hother := hheld.updateBox i (·.receive)
      by_cases hi : i = watcher
      · subst hi
        rw [if_pos rfl] at hother
        refine ⟨_, hother, hlisted, hdropped, hclosed, ?_⟩
        have hfirst : (⟨e, .read i⟩ : Moment).reads? i = w.box.next? := by
          rw [Moment.reads?]
          dsimp only
          rw [if_pos rfl, Broadcaster.receive, hheld.box]
          rfl
        rw [hfirst, List.append_assoc]
        exact congrArg _ (Broadcaster.Watcher.items_eq_read subject w).symm
      · rw [if_neg hi] at hother
        refine ⟨w, hother, hlisted, hdropped, hclosed, ?_⟩
        have hnone : (⟨e, .read i⟩ : Moment).reads? watcher = none := if_neg hi
        rw [hnone, Option.toList_none, List.append_nil]
    · next i =>
      have hother := hheld.updateBox i fun m => { m with items := [], dropped := true }
      rw [if_neg (fun heq => hstay (congrArg Deed.leave heq))] at hother
      refine ⟨w, hother, hlisted, hdropped, hclosed, ?_⟩
      exact congrArg (· ++ w.box.items) (List.append_nil _)
    · next hread hleave =>
      refine ⟨w, hheld, hlisted, hdropped, hclosed, ?_⟩
      rw [reads?_idle hread, Option.toList_none, List.append_nil]
  cases after_cases hn hd with
  | worked ht hrun => exact ha.work hn hw ht hrun
  | @asked c =>
    refine hidle (by rintro _ ⟨⟩)
      (List.forall_mem_append.mpr ⟨fun j hj hminds => ?_, ha.apart⟩)
    cases (jobs_attends c j hj).symm.trans (Job.attends_of_minds? hminds)
  | still _ hwork hstill =>
    refine hidle hwork ?_
    rw [hstill.pending]
    exact ha.apart

/-- A watcher that is registered has got its greeting. -/
theorem attending_subscribe (hn : e.Numbered) (hw : Watched e)
    (ht : e.task? id = some ⟨.subscribe subject greeting :: rest, reply⟩)
    (h : (Job.subscribe subject greeting).run s e = some (next, e₁)) :
    Attending subject e.broadcaster.nextId greeting [] (e₁.setTask id ⟨next ++ rest, reply'⟩) where
  held := by
    cases h
    have hheld := hw.tidy.holds subject greeting
    refine ⟨_, hheld, rfl, rfl, rfl, ?_⟩
    rw [arrived, List.filterMap_nil, List.append_nil]
    rfl
  apart := by
    refine forall_pending_work hn ht h (fun j hj hminds => ?_) fun j hj hminds => ?_
    · exact Nat.lt_irrefl _ (hw.minded j hj _ hminds)
    · have hattends := attends_next h hj (Job.attends_of_minds? hminds)
      cases hattends

/-- **A watcher that stays gets all that arrives**, whatever happens. -/
theorem Attending.runs {l l' : List Moment} (ha : Attending subject watcher greeting [] e)
    (hreached : Reached s l e) (h : Runs s e l' e') (hstay : ∀ m ∈ l', m.deed ≠ .leave watcher) :
    Attending subject watcher greeting l' e' := by
  induction h with
  | nil => exact ha
  | @snoc l' e₁ e₂ d hr hd ih =>
    obtain ⟨hstays, hleaves⟩ := List.forall_mem_append.mp hstay
    have hthere := hreached.trans hr
    exact (ih hstays).after hthere.numbered hthere.watched hd (hleaves _ List.mem_cons_self)

/-- What is published arrives unless it finds the queue full. -/
theorem Attending.arrived?_eq (ha : Attending subject watcher greeting l e) {d : Deed}
    (hroom : ¬ (⟨e, d⟩ : Moment).Overflows subject watcher) :
    (⟨e, d⟩ : Moment).arrived? subject watcher = (⟨e, d⟩ : Moment).published? subject := by
  obtain ⟨w, hheld, hlisted, hdropped, -⟩ := ha.held
  cases hpublished : (⟨e, d⟩ : Moment).published? subject with
  | none => exact arrived?_none watcher hpublished
  | some event =>
    have hfree : w.box.items.length < w.box.capacity := by
      refine Nat.lt_of_not_le fun hfull => hroom ⟨?_, w.box, hheld.box, hfull⟩
      rw [hpublished]
      rfl
    rw [Moment.arrived?, if_pos ((hheld.takes_iff hlisted hdropped).mpr hfree), hpublished]

/-- What finds the queue of a watcher full does not arrive. -/
theorem Moment.Overflows.lost {m : Moment} (h : m.Overflows subject watcher) :
    m.arrived? subject watcher = none := by
  obtain ⟨-, box, hbox, hfull⟩ := h
  have houtcome : box.outcome ≠ .queued := by
    rw [Mailbox.outcome, if_neg (Nat.not_lt.mpr hfull)]
    split <;> rintro ⟨⟩
  have hnot : m.before.broadcaster.takes subject watcher = false := by
    simp [Broadcaster.takes, hbox, houtcome]
  rw [Moment.arrived?, hnot]
  rfl

/-- **All that is published arrives at a watcher that stays and has room.** -/
theorem Attending.arrived_eq {l l' : List Moment} (ha : Attending subject watcher greeting [] e)
    (hreached : Reached s l e) (h : Runs s e l' e') (hstay : ∀ m ∈ l', m.deed ≠ .leave watcher)
    (hroom : ∀ m ∈ l', ¬ m.Overflows subject watcher) :
    arrived subject watcher l' = published subject l' := by
  induction h with
  | nil => rfl
  | @snoc l' e₁ e₂ d hr hd ih =>
    obtain ⟨hstays, -⟩ := List.forall_mem_append.mp hstay
    obtain ⟨hrooms, hfits⟩ := List.forall_mem_append.mp hroom
    have hnow := (ha.runs hreached hr hstays).arrived?_eq (hfits _ List.mem_cons_self)
    rw [arrived_snoc, published_snoc, hnow, ih hstays hrooms]

/-- Who is registered at a moment attends from then on. -/
theorem Reached.subscribed {l l₂ : List Moment} {m : Moment} (h : Reached s (l ++ m :: l₂) e)
    (hjob : m.job? = some (.subscribe subject greeting)) :
    ∃ e₁, Reached s (l ++ [m]) e₁ ∧ Runs s e₁ l₂ e ∧
      Attending subject m.before.broadcaster.nextId greeting [] e₁ := by
  obtain ⟨file, source, buffer, busCapacity, hruns⟩ := h
  obtain ⟨_, hfront, hd, hback⟩ := hruns.split
  have hreached : Reached s l m.before := ⟨file, source, buffer, busCapacity, hfront⟩
  obtain ⟨e₀, d⟩ := m
  cases d
  case work task =>
    obtain ⟨job, rest, reply, next, e₁, ht, hrun, rfl⟩ := advance_cases hd
    obtain rfl := Option.some.inj ((job?_work ht).symm.trans hjob)
    exact ⟨_, ⟨file, source, buffer, busCapacity, hfront.snoc hd⟩, hback,
      attending_subscribe hreached.numbered hreached.watched ht hrun⟩
  all_goals cases hjob

/-- What is published on the subject of a watcher that stays arrives if and only if it does not find
the queue full. -/
theorem Reached.arrives_iff {l l₂ : List Moment} {m m' : Moment} (h : Reached s (l ++ m :: l₂) e)
    (hjob : m.job? = some (.subscribe subject greeting))
    (hstay : ∀ m' ∈ l₂, m'.deed ≠ .leave m.before.broadcaster.nextId) (hm' : m' ∈ l₂)
    {event : Event} (hpublished : m'.published? subject = some event) :
    m'.arrived? subject m.before.broadcaster.nextId = some event ↔
      ¬ m'.Overflows subject m.before.broadcaster.nextId := by
  obtain ⟨e₁, hregistered, hruns, hattending⟩ := h.subscribed hjob
  obtain ⟨front, back, rfl⟩ := List.append_of_mem hm'
  obtain ⟨_, hfront, -, -⟩ := hruns.split
  have hnow := hattending.runs hregistered hfront fun m₀ hm₀ =>
    hstay m₀ (List.mem_append_left _ hm₀)
  constructor
  · intro harrived hover
    cases hover.lost.symm.trans harrived
  · intro hroom
    rw [hnow.arrived?_eq hroom]
    exact hpublished

/-- **What a watcher has got** is its greeting and all that has arrived since its registration. -/
theorem Reached.got_eq {l l₂ : List Moment} {m : Moment} (h : Reached s (l ++ m :: l₂) e)
    (hjob : m.job? = some (.subscribe subject greeting))
    (hstay : ∀ m' ∈ l₂, m'.deed ≠ .leave m.before.broadcaster.nextId) :
    got m.before.broadcaster.nextId l₂ e =
      (greeting ++ arrived subject m.before.broadcaster.nextId l₂).map (⟨subject, ·⟩) := by
  obtain ⟨e₁, hregistered, hruns, hattending⟩ := h.subscribed hjob
  obtain ⟨⟨w, hheld, -, -, -, hitems⟩, -⟩ := hattending.runs hregistered hruns hstay
  rw [got, hheld.queued]
  exact hitems

/-- What arrives at a watcher arrives after its registration. -/
theorem Reached.arrived_since {l l₂ : List Moment} {m : Moment} (h : Reached s (l ++ m :: l₂) e)
    (hjob : m.job? = some (.subscribe subject greeting)) :
    arrived subject m.before.broadcaster.nextId (l ++ m :: l₂) =
      arrived subject m.before.broadcaster.nextId l₂ := by
  have hunborn := h.upTo.arrived_unborn (Nat.le_refl _) subject
  have hsilent : m.published? subject = none := by rw [Moment.published?, hjob]
  rw [arrived] at hunborn ⊢
  rw [List.filterMap_append, hunborn, List.nil_append,
    List.filterMap_cons_none (arrived?_none _ hsilent), arrived]

end Watchers

end Engine

end Workflow
