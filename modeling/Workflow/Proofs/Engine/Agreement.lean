import Workflow.Proofs.Engine.Courier
import Workflow.Proofs.Engine.Ledger
import Workflow.Proofs.Engine.Listening

/-!
# Two watchers of one run

All that is published of a run is published twice, on its project and on the run itself, one after
the other. Its driver does that event by event, so who watches the project and who watches the run
hear what the run tells, and the end that it comes to, in the same order
(`Reached.heard_in_order`), as far as both of them hear it.

A call that stops the run says so at once, from a task of its own, and in between the two
publications of its driver as well as before or behind them. So it may be heard before an event of
the run by one of the two and behind it by the other (`stop_heard_apart`).
-/

namespace Workflow

/-- Whether an event says that a run was stopped. -/
def Event.isStop (run : String) : Event → Bool
  | runStopped r => r = run
  | _ => false

namespace Engine

open Engine.Job

/-! ## What is published of a run -/

/-- What is published of a run on a subject at a moment: what its interpreter told, or its end. -/
def Moment.publishedOf? (run subject : String) (m : Moment) : Option Event :=
  (m.relayed? run subject).or ((m.published? subject).filter (Event.endsRun run))

/-- Those of some events of a run that were published on a subject, in order. -/
def publishedOf (run subject : String) (among : Event → Bool) (l : List Moment) : List Event :=
  l.filterMap fun m => (m.publishedOf? run subject).filter among

/-- Some events are no announcements of a call that stopped a run. -/
def Uncalled (run : String) (among : Event → Bool) (l : List Moment) : Prop :=
  (∀ m ∈ l, ¬ m.Stops run) ∨ ∀ event, among event = true → event.isStop run = false

section Ends

variable {s : Settings} {e : Engine} {l : List Moment} {m : Moment} {project run subject : String}
  {among : Event → Bool}

theorem Uncalled.mono {l' : List Moment} (h : Uncalled run among (l ++ l')) :
    Uncalled run among l :=
  h.imp_left fun hnone m hm => hnone m (List.mem_append_left l' hm)

theorem publishedOf_snoc (run subject : String) (among : Event → Bool) (l : List Moment)
    (m : Moment) : publishedOf run subject among (l ++ [m]) =
      publishedOf run subject among l ++ ((m.publishedOf? run subject).filter among).toList := by
  rw [publishedOf, List.filterMap_append]
  cases hm : (m.publishedOf? run subject).filter among <;> simp [publishedOf, hm]

/-- What is published of a run is published. -/
theorem published?_of_publishedOf? {event : Event} (h : m.publishedOf? run subject = some event) :
    m.published? subject = some event := by
  rcases Option.or_eq_some_iff.mp h with hrelayed | ⟨-, hends⟩
  · exact published?_of_relayed? hrelayed
  · exact (Option.filter_eq_some_iff.mp hends).1

/-- A run that is announced to have been stopped while it is on its way was stopped by a call. -/
theorem Reached.stops_of_ends (hsandbox : s.around.IsSandboxed) (hs : NamesApart s)
    (h : Reached s l e) (hw : (e.walks.find? run).isSome = true) (hends : ends run l e ≠ []) :
    ∃ m ∈ l, m.Stops run := by
  refine Classical.byContradiction fun hnone => hends ?_
  exact h.unended hsandbox hs (fun m hm hstops => hnone ⟨m, hm, hstops⟩) hw

/-- A run that relapses was stopped by a call. -/
theorem Reached.stops_of_relapse (hsandbox : s.around.IsSandboxed) (hs : NamesApart s)
    (h : Reached s l e) (hm : m ∈ l) (hrelapse : m.IsRelapse run) : ∃ m' ∈ l, m'.Stops run := by
  obtain ⟨front, back, rfl⟩ := List.append_of_mem hm
  obtain ⟨_, w, handle, -, hw, -, hf, hstopped⟩ := hrelapse
  have hends : ends run front m.before ≠ [] := by
    cases h.upTo.standing hsandbox hs run with
    | unborn _ hw' => cases hw.symm.trans hw'
    | active _ _ hf' ha =>
      obtain rfl := Option.some.inj (hf.symm.trans hf')
      rw [hstopped] at ha
      cases ha
    | stopped _ _ _ hone => simp [hone]
    | ended _ hw' => cases hw.symm.trans hw'
    | relapsed _ hw' => cases hw.symm.trans hw'
  obtain ⟨m', hm', hstops⟩ := h.upTo.stops_of_ends hsandbox hs (hw ▸ rfl) hends
  exact ⟨m', List.mem_append_left _ hm', hstops⟩

/-- A call that stopped a run is left out. -/
theorem Uncalled.of_stops (h : Uncalled run among l) (hstops : ∃ m ∈ l, m.Stops run) :
    among (.runStopped run) = false := by
  obtain ⟨m, hm, hstops⟩ := hstops
  rcases h with hnone | hall
  · exact absurd hstops (hnone m hm)
  · refine Bool.eq_false_iff.mpr fun hamong => ?_
    have hnot := hall _ hamong
    simp [Event.isStop] at hnot

/-- **One end**: without what calls announce a run has one end at most, and none on its way. -/
theorem Reached.one_end (hsandbox : s.around.IsSandboxed) (hs : NamesApart s) (h : Reached s l e)
    (huncalled : Uncalled run among l) :
    ((ends run l e).filter among).length ≤ 1 ∧
      ((e.walks.find? run).isSome = true → (ends run l e).filter among = []) := by
  cases h.standing hsandbox hs run with
  | unborn _ _ _ hnone => simp [hnone]
  | active _ _ _ _ hnone => simp [hnone]
  | stopped _ hw _ hone =>
    have hsome : ends run l e ≠ [] := by simp [hone]
    have hstops := h.stops_of_ends hsandbox hs (Option.isSome_iff_exists.mpr ⟨_, hw⟩) hsome
    simp [hone, huncalled.of_stops hstops]
  | ended _ hw _ hone =>
    refine ⟨hone ▸ List.length_filter_le among _, fun hsome => ?_⟩
    rw [hw] at hsome
    cases hsome
  | relapsed _ hw _ htwo hrelapse =>
    obtain ⟨m, hm, hrelapse⟩ := hrelapse
    have hstops := h.stops_of_relapse hsandbox hs hm hrelapse
    refine ⟨?_, fun hsome => ?_⟩
    · rw [(htwo.filter among).length_eq,
        List.filter_cons_of_neg (by simp [huncalled.of_stops hstops])]
      exact List.length_filter_le among _
    · rw [hw] at hsome
      cases hsome

/-- On its project a run has the same ends. -/
theorem Reached.ends_on (hsandbox : s.around.IsSandboxed) (hs : NamesApart s) (h : Reached s l e)
    (hproject : ∀ project', (project', run) ∈ e.started → project' = project)
    (hsubject : subject = run ∨ subject = project) :
    ((endsOn subject run l e).filter among).Perm ((ends run l e).filter among) := by
  rcases hsubject with rfl | rfl
  · rw [endsOn_self]
  · exact (h.endsOn_perm hsandbox hs hproject).filter among

/-- A run on its way has no end that is published, without what calls announce. -/
theorem Reached.none_ended (hsandbox : s.around.IsSandboxed) (hs : NamesApart s)
    (h : Reached s l e) (huncalled : Uncalled run among l)
    (hproject : ∀ project', (project', run) ∈ e.started → project' = project)
    (hsubject : subject = run ∨ subject = project) (hw : (e.walks.find? run).isSome = true) :
    ((published subject l).filter (Event.endsRun run)).filter among = [] := by
  have hperm : ((endsOn subject run l e).filter among).Perm ((ends run l e).filter among) :=
    h.ends_on hsandbox hs hproject hsubject
  rw [(h.one_end hsandbox hs huncalled).2 hw, endsOn, List.filter_append,
    List.filter_append] at hperm
  exact (List.append_eq_nil_iff.mp hperm.eq_nil).1

/-- **What is published of a run** is what it told and after that its end, without what calls
announce. -/
theorem Reached.publishedOf_eq (hsandbox : s.around.IsSandboxed) (hs : NamesApart s)
    (h : Reached s l e) (huncalled : Uncalled run among l)
    (hproject : ∀ project', (project', run) ∈ e.started → project' = project)
    (hsubject : subject = run ∨ subject = project) :
    publishedOf run subject among l = (relayed run subject l).filter among ++
      ((published subject l).filter (Event.endsRun run)).filter among := by
  induction h using Reached.along with
  | start => rfl
  | @snoc l e e' d hreached hd ih =>
    have hmore := started_after hreached.numbered hd
    have hproject' : ∀ project', (project', run) ∈ e.started → project' = project :=
      fun project' hname => hproject project' (hmore _ hname)
    have hbefore := ih huncalled.mono hproject'
    rw [publishedOf_snoc, hbefore, relayed_snoc, published_snoc, Moment.publishedOf?]
    cases hrelayed : (⟨e, d⟩ : Moment).relayed? run subject with
    | none =>
      rw [Option.none_or, Option.toList_none, List.append_nil, List.filter_append,
        List.filter_append, ← List.append_assoc]
      cases hpublished : (⟨e, d⟩ : Moment).published? subject with
      | none => rfl
      | some event => cases hends : event.endsRun run <;> cases hamong : among event <;>
          simp [Option.filter, hends, hamong]
    | some event =>
      -- the run is still served, so it has no end yet
      obtain ⟨id, rest, reply, rfl, hserves, ht⟩ := relayed?_task hrelayed
      obtain ⟨j, hj, hserves⟩ := List.any_eq_true.mp hserves
      have hpending : j ∈ e.pending := mem_pending ht (List.mem_cons_of_mem _ hj)
      have hwalk : (e.walks.find? run).isSome = true := by
        cases hreached.courier hsandbox hs run with
        | unborn _ _ hnone => exact nomatch hserves.symm.trans (hnone j hpending)
        | served _ _ _ _ hw => exact hw
        | done _ hnone => exact nomatch hserves.symm.trans (hnone j hpending)
      have hnone := hreached.none_ended hsandbox hs huncalled.mono hproject' hsubject hwalk
      have hduties : (⟨e, .work id⟩ : Moment).before.Duties := hreached.duties hsandbox hs
      obtain ⟨hpublished, hnot⟩ := hduties.published hrelayed
      have hgoes := Event.endsRun_of_isTerminal hnot run
      rw [hnone, hpublished]
      cases hamong : among event <;> simp [Option.filter, hgoes, hamong, hnone]

/-- What is relayed of a run are the first of the events that it told. -/
theorem Reached.relayed_prefix (hsandbox : s.around.IsSandboxed) (hs : NamesApart s)
    (h : Reached s l e) (hname : (project, run) ∈ e.started)
    (hsubject : subject = run ∨ subject = project) :
    relayed run subject l <+: .runStarted run :: emitted s run l := by
  cases h.courier hsandbox hs run with
  | unborn hnot => exact absurd ⟨project, hname⟩ hnot
  | served hname' _ _ _ _ _ hbalanced =>
    obtain rfl := (h.orderly hsandbox hs).project_unique hs hname' hname
    rw [← hbalanced subject hsubject, List.append_assoc]
    exact List.prefix_append ..
  | done hname' _ _ hall =>
    obtain rfl := (h.orderly hsandbox hs).project_unique hs hname' hname
    exact hall subject hsubject ▸ List.prefix_rfl

/-- The front of a row of one event at most is a first part of it, however the row is ordered. -/
theorem front_prefix {front back row : List Event} (h : (front ++ back).Perm row)
    (hfew : row.length ≤ 1) : front <+: row := by
  cases row with
  | nil =>
    obtain ⟨rfl, -⟩ := List.append_eq_nil_iff.mp h.eq_nil
    exact List.prefix_rfl
  | cons last others =>
    obtain rfl : others = [] :=
      List.length_eq_zero_iff.mp (Nat.le_zero.mp (Nat.le_of_succ_le_succ hfew))
    rcases List.append_eq_singleton_iff.mp (List.perm_singleton.mp h) with ⟨rfl, -⟩ | ⟨rfl, -⟩
    · exact List.nil_prefix
    · exact List.prefix_rfl

/-- **What is published of a run on its subjects** are the first of the events that it told and, as
the last one, its end, without what calls announce. -/
theorem Reached.publishedOf_prefix (hsandbox : s.around.IsSandboxed) (hs : NamesApart s)
    (h : Reached s l e) (hname : (project, run) ∈ e.started) (huncalled : Uncalled run among l)
    (hsubject : subject = run ∨ subject = project) :
    publishedOf run subject among l <+:
      (Event.runStarted run :: emitted s run l).filter among ++ (ends run l e).filter among := by
  have hproject : ∀ project', (project', run) ∈ e.started → project' = project :=
    fun _ hname' => (h.orderly hsandbox hs).project_unique hs hname' hname
  rw [h.publishedOf_eq hsandbox hs huncalled hproject hsubject]
  cases h.courier hsandbox hs run with
  | unborn hnot => exact absurd ⟨project, hname⟩ hnot
  | served _ _ _ _ hw =>
    rw [h.none_ended hsandbox hs huncalled hproject hsubject hw, List.append_nil]
    have htold := (h.relayed_prefix hsandbox hs hname hsubject).filter among
    exact htold.trans (List.prefix_append ..)
  | @done project' hname' _ _ hall =>
    obtain rfl := hproject project' hname'
    have hperm : ((endsOn subject run l e).filter among).Perm ((ends run l e).filter among) :=
      h.ends_on hsandbox hs hproject hsubject
    rw [endsOn, List.filter_append, List.filter_append] at hperm
    rw [hall subject hsubject, List.prefix_append_right_inj]
    exact front_prefix hperm (h.one_end hsandbox hs huncalled).1

/-- **The two subjects of a run agree**: without what calls announce, what is published of the run
on one of them are the first of the events that are published on the other. -/
theorem Reached.published_alike (hsandbox : s.around.IsSandboxed) (hs : NamesApart s)
    (h : Reached s l e) (hname : (project, run) ∈ e.started) (huncalled : Uncalled run among l) :
    publishedOf run project among l <+: publishedOf run run among l ∨
      publishedOf run run among l <+: publishedOf run project among l :=
  List.prefix_or_prefix_of_prefix
    (h.publishedOf_prefix hsandbox hs hname huncalled (Or.inr rfl))
    (h.publishedOf_prefix hsandbox hs hname huncalled (Or.inl rfl))

end Ends

/-! ## What two watchers hear -/

/-- Those of some events of a run that arrive at a watcher of a subject, each with its number among
those that are published there. -/
def heardOf (run subject : String) (among : Event → Bool) (watcher : Nat) (l : List Moment) :
    List (Event × Nat) :=
  ((l.filter fun m => ((m.publishedOf? run subject).filter among).isSome).zipIdx).filterMap
    fun x => (x.1.arrived? subject watcher).map fun event => (event, x.2)

section Hearing

variable {run subject : String} {among : Event → Bool} {watcher : Nat} {l : List Moment}

/-- Who hears something hears it as it was published. -/
theorem heardOf_sublist_from (n : Nat) :
    (((l.filter fun m => ((m.publishedOf? run subject).filter among).isSome).zipIdx n).filterMap
      fun x => (x.1.arrived? subject watcher).map fun event => (event, x.2)).Sublist
        ((publishedOf run subject among l).zipIdx n) := by
  induction l generalizing n with
  | nil => exact List.nil_sublist _
  | cons m l ih =>
    rw [List.filter_cons, publishedOf, List.filterMap_cons]
    cases hm : (m.publishedOf? run subject).filter among with
    | none => exact ih n
    | some event =>
      have hpublished := published?_of_publishedOf? (Option.filter_eq_some_iff.mp hm).1
      rw [Option.isSome_some, if_pos rfl, List.zipIdx_cons, List.zipIdx_cons, List.filterMap_cons]
      rw [Moment.arrived?, hpublished]
      split
      · next hnone => exact (ih (n + 1)).cons _
      · next x hsome =>
        split at hsome
        · cases hsome
          exact (ih (n + 1)).cons_cons _
        · cases hsome

theorem heardOf_sublist : (heardOf run subject among watcher l).Sublist
    (publishedOf run subject among l).zipIdx :=
  heardOf_sublist_from 0

/-- What is heard of a run is among what arrives. -/
theorem heardOf_arrived : ((heardOf run subject among watcher l).map Prod.fst).Sublist
    (arrived subject watcher l) := by
  have hfst : ∀ x : Moment × Nat, ((x.1.arrived? subject watcher).map fun event =>
      (event, x.2)).map Prod.fst = x.1.arrived? subject watcher := by
    intro x
    cases x.1.arrived? subject watcher <;> rfl
  have hforget : ∀ zs : List (Moment × Nat), zs.filterMap (fun x => x.1.arrived? subject watcher) =
      (zs.map Prod.fst).filterMap (Moment.arrived? subject watcher) := by
    intro zs
    rw [List.filterMap_map]
    rfl
  rw [heardOf, List.map_filterMap]
  simp only [hfst]
  rw [hforget, List.zipIdx_map_fst]
  exact List.filter_sublist.filterMap _

/-- What is heard is found by its numbers. -/
theorem eq_filter_of_sublist {α : Type} {part all : List (α × Nat)} (h : part.Sublist all)
    (hnodup : (all.map Prod.snd).Nodup) :
    part = all.filter fun x => (part.map Prod.snd).contains x.2 := by
  induction h with
  | slnil => rfl
  | @cons part all x h ih =>
    obtain ⟨hfresh, hnodup⟩ := List.nodup_cons.mp hnodup
    have hnot : x.2 ∉ part.map Prod.snd := fun hmem => hfresh ((h.map Prod.snd).subset hmem)
    rw [List.filter_cons_of_neg (by simpa using hnot)]
    exact ih hnodup
  | @cons_cons part all x h ih =>
    obtain ⟨hfresh, hnodup⟩ := List.nodup_cons.mp hnodup
    rw [List.filter_cons_of_pos (by simp)]
    congr 1
    refine (ih hnodup).trans (List.filter_congr fun y hy => ?_)
    have hne : y.2 ≠ x.2 := fun heq => hfresh (heq ▸ List.mem_map_of_mem hy)
    simp [hne]

/-- Two rows of numbered things that are found in the same things agree on what is in both. -/
theorem filter_eq_filter {α : Type} {all these those : List (α × Nat)} (hthese : these.Sublist all)
    (hthose : those.Sublist all) (hnodup : (all.map Prod.snd).Nodup) :
    (these.filter fun x => (those.map Prod.snd).contains x.2) =
      those.filter fun x => (these.map Prod.snd).contains x.2 := by
  conv_lhs => rw [eq_filter_of_sublist hthese hnodup]
  conv_rhs => rw [eq_filter_of_sublist hthose hnodup]
  rw [List.filter_filter, List.filter_filter]
  exact List.filter_congr fun x _ => Bool.and_comm ..

/-- What is a part of the first of some numbered things is a part of all of them. -/
theorem sublist_zipIdx {α : Type} {part : List (α × Nat)} {front all : List α}
    (h : part.Sublist front.zipIdx) (hfront : front <+: all) : part.Sublist all.zipIdx := by
  obtain ⟨back, rfl⟩ := hfront
  rw [List.zipIdx_append]
  exact h.trans (List.sublist_append_left ..)

theorem nodup_numbers {α : Type} (all : List α) : (all.zipIdx.map Prod.snd).Nodup := by
  rw [List.zipIdx_map_snd]
  exact List.nodup_range'

end Hearing

/-- **In the same order**: whatever tasks do and in whatever order, who watches a run and who
watches its project hear what the run tells, and its end, in the same order, but for the
announcement of a call that stops the run.

What is published on one of the two subjects are the first of the events that are published on the
other, so the events can be told apart by their numbers, those that are alike as well. What one
watcher hears and the other hears as well, is what the other hears and the one as well, in this
order. And this is in what they get: after its greeting a watcher that stays gets what arrives, and
what it hears of the run is among that. -/
theorem Reached.heard_in_order {s : Settings} (hsandbox : s.around.IsSandboxed) (hs : NamesApart s)
    {l : List Moment} {e : Engine} (h : Reached s l e) {project run : String}
    (hname : (project, run) ∈ e.started) {among : Event → Bool} (huncalled : Uncalled run among l)
    (ofRun ofProject : Nat) :
    (publishedOf run project among l <+: publishedOf run run among l ∨
        publishedOf run run among l <+: publishedOf run project among l) ∧
      ((heardOf run run among ofRun l).filter fun x =>
          ((heardOf run project among ofProject l).map Prod.snd).contains x.2) =
        ((heardOf run project among ofProject l).filter fun x =>
          ((heardOf run run among ofRun l).map Prod.snd).contains x.2) ∧
      ∀ subject l₁ m l₂ greeting, l = l₁ ++ m :: l₂ →
        m.job? = some (.subscribe subject greeting) →
        (∀ m' ∈ l₂, m'.deed ≠ .leave m.before.broadcaster.nextId) →
        got m.before.broadcaster.nextId l₂ e =
            (greeting ++ arrived subject m.before.broadcaster.nextId l).map (⟨subject, ·⟩) ∧
          ((heardOf run subject among m.before.broadcaster.nextId l).map Prod.fst).Sublist
            (arrived subject m.before.broadcaster.nextId l) := by
  have halike := h.published_alike hsandbox hs hname huncalled
  refine ⟨halike, ?_, ?_⟩
  · rcases halike with hprefix | hprefix
    · exact filter_eq_filter heardOf_sublist (sublist_zipIdx heardOf_sublist hprefix)
        (nodup_numbers _)
    · exact filter_eq_filter (sublist_zipIdx heardOf_sublist hprefix) heardOf_sublist
        (nodup_numbers _)
  · rintro subject l₁ m l₂ greeting rfl hjob hstay
    rw [h.got_eq hjob hstay, h.arrived_since hjob]
    refine ⟨rfl, ?_⟩
    rw [← h.arrived_since hjob]
    exact heardOf_arrived

/-- A course on which a run and its project are watched and a call stops the run, after its driver
has published an event on the project and before it publishes it on the run. -/
def towardsStop : List Deed :=
  [.ask (.watch "#:p"), .work 0, .work 0, .ask (.watch "p"), .work 1, .work 1, .ask trialStart] ++
    works 2 14 ++ works 4 2 ++ works 3 7 ++ .ask (.stop "#:p") :: works 5 8 ++ [.work 3]

theorem towardsStop_spec :
    ∃ l e, (fresh .absent none 8 8).replay trial towardsStop = some (l, e) ∧
      e.started = [("p", "#:p")] ∧
      got 1 l e = [.currentStatus none none, .runStarted "#:p", .runStopped "#:p",
        .nodeStart "a"].map (⟨"#:p", ·⟩) ∧
      got 2 l e = [.currentStatus none none, .runStarted "#:p", .nodeStart "a",
        .runStopped "#:p"].map (⟨"p", ·⟩) ∧
      heardOf "#:p" "#:p" (!·.isStop "#:p") 1 l = [(.runStarted "#:p", 0), (.nodeStart "a", 1)] ∧
      heardOf "#:p" "p" (!·.isStop "#:p") 2 l = [(.runStarted "#:p", 0), (.nodeStart "a", 1)] := by
  have hsome : ((fresh .absent none 8 8).replay trial towardsStop).isSome = true := rfl
  exact ⟨_, _, (Option.some_get hsome).symm, rfl, rfl, rfl, rfl, rfl⟩

/-- **In the same order around a stop**: both watchers hear first that the run was started and then
that its node is visited, though the announcement of the call comes before that for the one, and
behind it for the other. -/
theorem heard_in_order_around_stop :
    ∃ l e, Reached trial l e ∧ ("p", "#:p") ∈ e.started ∧
      heardOf "#:p" "#:p" (!·.isStop "#:p") 1 l = [(.runStarted "#:p", 0), (.nodeStart "a", 1)] ∧
      ((heardOf "#:p" "#:p" (!·.isStop "#:p") 1 l).filter fun x =>
          ((heardOf "#:p" "p" (!·.isStop "#:p") 2 l).map Prod.snd).contains x.2) =
        ((heardOf "#:p" "p" (!·.isStop "#:p") 2 l).filter fun x =>
          ((heardOf "#:p" "#:p" (!·.isStop "#:p") 1 l).map Prod.snd).contains x.2) := by
  obtain ⟨l, e, hreplay, hnames, -, -, hheard, -⟩ := towardsStop_spec
  have hreached : Reached trial l e := ⟨_, _, _, _, replay_runs hreplay⟩
  have hname : ("p", "#:p") ∈ e.started := hnames ▸ List.mem_cons_self
  have huncalled : Uncalled "#:p" (!·.isStop "#:p") l :=
    Or.inr fun event hamong => (Bool.not_eq_true' _).mp hamong
  obtain ⟨-, hsame, -⟩ :=
    hreached.heard_in_order trial_isSandboxed trial_namesApart hname huncalled 1 2
  exact ⟨l, e, hreached, hname, hheard, hsame⟩

/-- **Heard apart**: of a call that stops the run, who watches the run hears before the driver
publishes there that a node is visited, and who watches the project hears it the other way round. -/
theorem stop_heard_apart :
    ∃ l e, Reached trial l e ∧ ("p", "#:p") ∈ e.started ∧
      got 1 l e = [.currentStatus none none, .runStarted "#:p", .runStopped "#:p",
        .nodeStart "a"].map (⟨"#:p", ·⟩) ∧
      got 2 l e = [.currentStatus none none, .runStarted "#:p", .nodeStart "a",
        .runStopped "#:p"].map (⟨"p", ·⟩) := by
  obtain ⟨l, e, hreplay, hnames, hrun, hproject, -⟩ := towardsStop_spec
  have hname : ("p", "#:p") ∈ e.started := hnames ▸ List.mem_cons_self
  exact ⟨l, e, ⟨_, _, _, _, replay_runs hreplay⟩, hname, hrun, hproject⟩

end Engine

end Workflow
