import Workflow.CommandLine.Session
import Workflow.Proofs.Engine.Ledger
import Workflow.Proofs.Engine.Registration

/-!
# Printing until a run is over

Who starts a run and follows it (`Session.follow`) watches its project from before the start on,
and prints what its watcher gets up to the first event that says that a run is over. But the end of
a run is published like anything else: a queue that is full at that time loses it. Nothing else
tells the printer that the run is over, and the end is not published again. So if all that says so
was lost, the printer has printed all there is and goes on waiting, whatever happens to that run
(`Reached.left_waiting`).
-/

namespace Workflow

/-! ## Who prints -/

namespace CommandLine.Session

/-- Who has nothing to print, while no task can go on and nothing is due, waits for nothing. -/
theorem follow_hang {session : Session} {watcher : Nat}
    (hnone : (session.engine.broadcaster.receive watcher).1 = none)
    (hrest : session.engine.advanceFirst session.settings = none)
    (hdue : session.engine.deadline? = none) (write : Envelope → String) :
    session.follow watcher write = .hang := by
  obtain ⟨turns, hturns⟩ : ∃ turns, maxTurns = turns + 1 := Nat.exists_eq_succ_of_ne_zero (by decide)
  rw [follow, hturns, followFor]
  split
  · next heq =>
    rw [heq] at hnone
    cases hnone
  · rw [hrest, hdue]

end CommandLine.Session

namespace Engine

open Engine.Job

/-- **Left waiting**: who prints what a watcher gets, up to the end of a run, has printed all that
is there, and that was no end of any run; and more may come, for all it knows. -/
def LeftWaiting (watcher : Nat) (l : List Moment) (e : Engine) : Prop :=
  (∀ envelope ∈ readBy watcher l, envelope.event.isTerminal = false) ∧
    ∃ box, e.broadcaster.box? watcher = some box ∧ box.items = [] ∧ box.closed = false

/-- Who is left waiting has nothing to read. -/
theorem LeftWaiting.receive {watcher : Nat} {l : List Moment} {e : Engine}
    (h : LeftWaiting watcher l e) : (e.broadcaster.receive watcher).1 = none := by
  obtain ⟨-, box, hbox, hitems, -⟩ := h
  rw [Broadcaster.receive, hbox]
  exact congrArg List.head? hitems

section Watchers

variable {s : Settings} {e : Engine} {l l₂ : List Moment} {m : Moment} {subject run : String}
  {greeting : List Event}

/-- What arrived was published. -/
theorem mem_arrived {watcher : Nat} {event : Event} (h : event ∈ arrived subject watcher l) :
    ∃ m ∈ l, m.arrived? subject watcher = some event ∧ m.published? subject = some event := by
  obtain ⟨m, hm, harrived⟩ := List.mem_filterMap.mp h
  have hpublished : m.published? subject = some event := by
    rw [Moment.arrived?] at harrived
    split at harrived
    · exact harrived
    · cases harrived
  exact ⟨m, hm, harrived, hpublished⟩

/-- **Who has nothing to read is left waiting** if and only if all that said that a run is over
found the queue full. -/
theorem Reached.left_waiting_iff (h : Reached s (l ++ m :: l₂) e)
    (hjob : m.job? = some (.subscribe subject greeting))
    (hstay : ∀ m' ∈ l₂, m'.deed ≠ .leave m.before.broadcaster.nextId) :
    LeftWaiting m.before.broadcaster.nextId l₂ e ↔
      e.broadcaster.queued m.before.broadcaster.nextId = [] ∧
        ∀ m' ∈ l₂, ∀ event, m'.published? subject = some event → event.isTerminal = true →
          m'.Overflows subject m.before.broadcaster.nextId := by
  have hgot := h.got_eq hjob hstay
  have harrives : ∀ m' ∈ l₂, ∀ event, m'.published? subject = some event →
      (m'.arrived? subject m.before.broadcaster.nextId = some event ↔
        ¬ m'.Overflows subject m.before.broadcaster.nextId) :=
    fun m' hm' event hpublished => h.arrives_iff hjob hstay hm' hpublished
  obtain ⟨-, -, l₀, m₀, l₁, -, -, -, hgreeting⟩ := h.looked_up hjob
  obtain ⟨e₁, hregistered, hruns, hattending⟩ := h.subscribed hjob
  obtain ⟨⟨w, hheld, -, -, hopen, -⟩, -⟩ := hattending.runs hregistered hruns hstay
  generalize m.before.broadcaster.nextId = watcher at *
  rw [got, hheld.queued] at hgot
  rw [hheld.queued]
  constructor
  · rintro ⟨hread, box, hbox, hitems, -⟩
    obtain rfl := Option.some.inj (hheld.box.symm.trans hbox)
    refine ⟨hitems, fun m' hm' event hpublished hends => Classical.not_not.mp fun hroom => ?_⟩
    -- an end that arrived was read, since nothing is queued
    have harrived : event ∈ arrived subject watcher l₂ :=
      List.mem_filterMap.mpr ⟨m', hm', (harrives m' hm' event hpublished).mpr hroom⟩
    rw [hitems, List.append_nil] at hgot
    have hmem : ⟨subject, event⟩ ∈ readBy watcher l₂ := by
      rw [hgot]
      exact List.mem_map.mpr ⟨event, List.mem_append_right _ harrived, rfl⟩
    have hnot := hread _ hmem
    cases hends.symm.trans hnot
  · rintro ⟨hitems, hlost⟩
    refine ⟨fun envelope hmem => ?_, w.box, hheld.box, hitems, hopen⟩
    rw [hitems, List.append_nil] at hgot
    rw [hgot] at hmem
    obtain ⟨event, hevent, rfl⟩ := List.mem_map.mp hmem
    rcases List.mem_append.mp hevent with hgreeted | harrived
    · rw [hgreeting] at hgreeted
      exact isTerminal_greeting _ _ event hgreeted
    · obtain ⟨m', hm', harrived, hpublished⟩ := mem_arrived harrived
      refine Bool.eq_false_iff.mpr fun hends => ?_
      have hover := hlost m' hm' event hpublished hends
      cases hover.lost.symm.trans harrived

/-- A run that was started since, that is over and has nothing left to announce on its project, was
announced to be over there since. -/
theorem Reached.end_published (hsandbox : s.around.IsSandboxed) (hs : NamesApart s)
    (h : Reached s (l ++ l₂) e) {e₀ : Engine} (h₀ : Reached s l e₀) (hlater : ¬ e₀.Named run)
    {project : String} (hname : (project, run) ∈ e.started)
    (hover : ∀ h', e.table.find? run = some h' → h'.record.status.isActive = false)
    (hdone : ∀ event ∈ outstanding project e, event.endsRun run = false) :
    ∃ event ∈ published project l₂, event.endsRun run = true := by
  have hsome : ends run (l ++ l₂) e ≠ [] := by
    cases h.standing hsandbox hs run with
    | unborn hnot => exact absurd ⟨project, hname⟩ hnot
    | active _ _ hf ha => exact nomatch ha.symm.trans (hover _ hf)
    | stopped _ _ _ hone => simp [hone]
    | ended _ _ _ hone => exact List.ne_nil_of_length_pos (by omega)
    | relapsed _ _ _ htwo => exact fun hnil => by simpa [hnil] using htwo.length_eq
  have hperm := h.ends_alike hsandbox hs hname
  have hnothing : (outstanding project e).filter (Event.endsRun run) = [] :=
    List.filter_eq_nil_iff.mpr fun event hmem => by simp [hdone event hmem]
  have hearlier : (published project l).filter (Event.endsRun run) = [] := by
    have hnone := h₀.endsOn_unborn hsandbox hs hlater project
    rw [endsOn, List.filter_append] at hnone
    exact (List.append_eq_nil_iff.mp hnone).1
  rw [endsOn, published_append, List.filter_append, List.filter_append, hnothing, hearlier,
    List.append_nil, List.nil_append] at hperm
  have hsince : (published project l₂).filter (Event.endsRun run) ≠ [] := by
    intro hnil
    rw [hnil] at hperm
    exact hsome hperm.nil_eq.symm
  obtain ⟨event, hmem⟩ := List.exists_mem_of_ne_nil _ hsince
  obtain ⟨hpublished, hends⟩ := List.mem_filter.mp hmem
  exact ⟨event, hpublished, hends⟩

end Watchers

/-- **Who follows a run may wait for its end for ever.** Someone watches a project, then a run of it
is started. Whatever tasks do and in whatever order, however much room the watcher has and whenever
it is read: once the run is over and nothing is left to announce on the project, its end was
announced there. But who prints what the watcher gets and has nothing to read is left waiting for
it if and only if the queue was full whenever it was announced that a run is over; otherwise it has
read such an announcement and is done.

Once the run has also wound up, its end is never announced again. And if no task can go on and
nothing is due, the printer waits for nothing. -/
theorem Reached.left_waiting {s : Settings} (hsandbox : s.around.IsSandboxed) (hs : NamesApart s)
    {l l₂ : List Moment} {m : Moment} {e : Engine} (h : Reached s (l ++ m :: l₂) e)
    {project : String} {greeting : List Event}
    (hjob : m.job? = some (.subscribe project greeting))
    (hstay : ∀ m' ∈ l₂, m'.deed ≠ .leave m.before.broadcaster.nextId)
    {run : String} (hlater : ¬ m.before.Named run) (hname : (project, run) ∈ e.started)
    (hover : ∀ h', e.table.find? run = some h' → h'.record.status.isActive = false)
    (hdone : ∀ event ∈ outstanding project e, event.endsRun run = false) :
    (∃ event ∈ published project l₂, event.endsRun run = true) ∧
      (e.broadcaster.queued m.before.broadcaster.nextId = [] →
        (LeftWaiting m.before.broadcaster.nextId l₂ e ↔
          ∀ m' ∈ l₂, ∀ event, m'.published? project = some event → event.isTerminal = true →
            m'.Overflows project m.before.broadcaster.nextId)) ∧
      (e.walks.find? run = none → ∀ l' e', Runs s e l' e' →
        ∀ event ∈ published project l', event.endsRun run = false) ∧
      (LeftWaiting m.before.broadcaster.nextId l₂ e → ∀ session : CommandLine.Session,
        session.engine = e → e.advanceFirst session.settings = none → e.deadline? = none →
        ∀ write, session.follow m.before.broadcaster.nextId write = .hang) := by
  have hsilent : m.published? project = none := by rw [Moment.published?, hjob]
  have hwaiting := h.left_waiting_iff hjob hstay
  refine ⟨?_, fun hread => ?_, fun hgone l' e' hruns => ?_, ?_⟩
  · have hsince := h.end_published hsandbox hs h.upTo hlater hname hover hdone
    rw [published, List.filterMap_cons_none hsilent] at hsince
    exact hsince
  · rw [hwaiting]
    exact and_iff_right hread
  · exact h.silent_after hsandbox hs hruns hname hgone hdone
  · rintro hleft session rfl hrest hdue write
    exact CommandLine.Session.follow_hang hleft.receive hrest hdue write

/-- A course to the registration of a watcher of a project. -/
def towardsWatching : List Deed := [.ask (.watch "p"), .work 0]

/-- And on from there to the end of a run of the project, of which the watcher reads nothing
before. -/
def towardsSilence : List Deed :=
  [.work 0, .ask trialStart] ++ works 1 14 ++ works 3 2 ++ works 2 20 ++ [.work 3, .read 1]

theorem towardsSilence_spec :
    ∃ l e e₁ l₂ e₂ h, (fresh .absent none 1 8).replay trial towardsWatching = some (l, e) ∧
      e.nextJob? 0 = some (.subscribe "p" [.currentStatus none none]) ∧ e.started = [] ∧
      e.broadcaster.nextId = 1 ∧ e.after trial (.work 0) = some e₁ ∧
      e₁.replay trial towardsSilence = some (l₂, e₂) ∧ e₂.started = [("p", "#:p")] ∧
      e₂.table.find? "#:p" = some h ∧ h.record.status = .error ∧ outstanding "p" e₂ = [] ∧
      e₂.walks.find? "#:p" = none ∧ LeftWaiting 1 l₂ e₂ ∧ e₂.advanceFirst trial = none ∧
      e₂.deadline? = none := by
  have hall : ((fresh .absent none 1 8).replay trial towardsWatching).any (fun x =>
      x.2.started.isEmpty && x.2.broadcaster.nextId = 1 &&
        (x.2.after trial (.work 0)).any fun e₁ => (e₁.replay trial towardsSilence).any fun y =>
          y.2.started = [("p", "#:p")] &&
            (y.2.table.find? "#:p").any (·.record.status = .error) &&
            (outstanding "p" y.2).isEmpty && (y.2.walks.find? "#:p").isNone &&
            ((readBy 1 y.1).all (!·.event.isTerminal) &&
              (y.2.broadcaster.box? 1).any fun box => box.items.isEmpty && !box.closed) &&
            (y.2.advanceFirst trial).isNone && y.2.deadline?.isNone) = true := by
    decide +kernel
  obtain ⟨⟨l, e⟩, hfront, hspec⟩ := (Option.any_eq_true _ _).mp hall
  simp only [Bool.and_eq_true, decide_eq_true_eq, Option.any_eq_true, List.isEmpty_iff,
    Option.isNone_iff_eq_none, List.all_eq_true, Bool.not_eq_true'] at hspec
  obtain ⟨⟨hnobody, hnext⟩, e₁, hafter, ⟨l₂, e₂⟩, hback, hspec⟩ := hspec
  obtain ⟨⟨⟨⟨⟨⟨hnames, h, hf, herror⟩, hdone⟩, hgone⟩, hread, hbox⟩, hrest⟩, hdue⟩ := hspec
  have hjob : ((fresh .absent none 1 8).replay trial towardsWatching).map (·.2.nextJob? 0) =
      some (some (.subscribe "p" [.currentStatus none none])) := rfl
  rw [hfront] at hjob
  exact ⟨l, e, e₁, l₂, e₂, h, hfront, Option.some.inj hjob, hnobody, hnext, hafter, hback, hnames, hf,
    herror, hdone, hgone, ⟨hread, hbox⟩, hrest, hdue⟩

/-- **A queue for one envelope**: the greeting fills it, so all that is published of the run finds
it full. The run has broken down, and its printer, who has printed the greeting, waits for
nothing. -/
theorem left_waiting_for_breakdown :
    ∃ l m l₂ e, Reached trial (l ++ m :: l₂) e ∧
      m.job? = some (.subscribe "p" [.currentStatus none none]) ∧
      (∃ h, e.table.find? "#:p" = some h ∧ h.record.status = .error) ∧ LeftWaiting 1 l₂ e ∧
      (∃ event ∈ published "p" l₂, event.endsRun "#:p" = true) ∧
      (∀ m' ∈ l₂, ∀ event, m'.published? "p" = some event → event.isTerminal = true →
        m'.Overflows "p" 1) ∧
      (∀ l' e', Runs trial e l' e' → ∀ event ∈ published "p" l', event.endsRun "#:p" = false) ∧
      ∀ session : CommandLine.Session, session.engine = e → session.settings = trial →
        ∀ write, session.follow 1 write = .hang := by
  obtain ⟨l, e, e₁, l₂, e₂, h, hfront, hjob, hnobody, hnext, hafter, hback, hnames, hf, herror,
    hdone, hgone, hleft, hrest, hdue⟩ := towardsSilence_spec
  have hreached : Reached trial (l ++ ⟨e, .work 0⟩ :: l₂) e₂ := by
    rw [List.append_cons]
    exact ⟨_, _, _, _, ((replay_runs hfront).snoc hafter).trans (replay_runs hback)⟩
  have hstay : ∀ m' ∈ l₂, m'.deed ≠ .leave 1 := by
    intro m' hm'
    have hdeed : m'.deed ∈ towardsSilence := replay_deeds hback ▸ List.mem_map_of_mem hm'
    intro heq
    rw [heq] at hdeed
    simp [towardsSilence, works] at hdeed
  have hlater : ¬ e.Named "#:p" := by
    rintro ⟨project, hmem⟩
    rw [hnobody] at hmem
    cases hmem
  have hleaves := hreached.left_waiting trial_isSandboxed trial_namesApart hjob
    (fun m' hm' => hnext ▸ hstay m' hm') hlater (hnames ▸ List.mem_cons_self)
    (fun h' hf' => by
      obtain rfl := Option.some.inj (hf.symm.trans hf')
      rw [herror]
      rfl)
    (by simp [hdone])
  change _ ∧ (e₂.broadcaster.queued e.broadcaster.nextId = [] → _) ∧ _ ∧
    (LeftWaiting e.broadcaster.nextId _ _ → _) at hleaves
  rw [hnext] at hleaves
  obtain ⟨hpublished, hwaiting, hnever, hhang⟩ := hleaves
  obtain ⟨-, box, hbox, hitems, -⟩ := id hleft
  have hqueued : e₂.broadcaster.queued 1 = [] := by
    rw [Broadcaster.queued, hbox]
    exact hitems
  refine ⟨l, _, l₂, e₂, hreached, hjob, ⟨h, hf, herror⟩, hleft, hpublished,
    (hwaiting hqueued).mp hleft, hnever hgone, ?_⟩
  intro session hengine hsettings write
  exact hhang hleft session hengine (hsettings ▸ hrest) hdue write

end Engine

end Workflow
