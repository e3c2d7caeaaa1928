import Workflow.Proofs.Coordinator.Steering

/-!
# Runs of projects that were forgotten

A pass decides in one job what to start and what to stop, and carries it out in later ones. A
project may be forgotten in between: its active run is stopped, but one that a pass has decided to
start comes only after that. It is a *stray* (`EnlistedAstray`): a run that was enlisted when its
project was no longer looked after.

Strays are the only active runs whose project is not looked after, once nothing that steers is left
to do (`Roams.strays`). The invariant, `Tracked`, says what becomes of every other run whose project
is forgotten: a job that will stop it is left. And no pass ever stops a stray, since passes plan
only for the projects they find (`Adrift`).
-/

namespace Workflow.Engine

open Engine.Job

/-! ## Strays -/

/-- A run was enlisted when its project was not looked after, and it was not since. -/
def EnlistedAstray (s : Settings) (run project : String) (l : List Moment) : Prop :=
  ∃ (l₁ : List Moment) (m : Moment) (l₂ : List Moment), l = l₁ ++ m :: l₂ ∧
    (∃ definition vars, m.job? = some (.enrol project definition vars)) ∧
    m.before.newRun s project = run ∧ ∀ m' ∈ m :: l₂, m'.before.projects.find? project = none

theorem EnlistedAstray.snoc {s : Settings} {run project : String} {l : List Moment} {e : Engine}
    (h : EnlistedAstray s run project l) (habsent : e.projects.find? project = none) (d : Deed) :
    EnlistedAstray s run project (l ++ [⟨e, d⟩]) := by
  obtain ⟨l₁, m, l₂, rfl, hjob, hrun, hsince⟩ := h
  refine ⟨l₁, m, l₂ ++ [⟨e, d⟩], by simp, hjob, hrun, ?_⟩
  rw [← List.cons_append]
  refine List.forall_mem_append.mpr ⟨hsince, fun m' hm' => ?_⟩
  obtain rfl := List.mem_singleton.mp hm'
  exact habsent

/-! ## The invariant -/

/-- What becomes of the active runs of projects that are not looked after: some job will stop them,
or they are strays. -/
structure Tracked (s : Settings) (l : List Moment) (e : Engine) : Prop where
  /-- active runs were enlisted, and are alone -/
  enlisted : Enlisted s e
  /-- an active run of a project that is not looked after is to be stopped, or a stray -/
  owned : ∀ {run h}, e.table.find? run = some h → h.record.status.isActive = true →
    e.projects.find? h.record.projectId = none →
    .stopActive h.record.projectId ∈ e.pending ∨ .stop run ∈ e.pending ∨
      EnlistedAstray s run h.record.projectId l

section Work

variable {s : Settings} {l : List Moment} {e e₁ e' : Engine} {id : Nat} {job : Job}
  {rest next : List Job} {reply reply' : Option Reply}

theorem Tracked.work (ht : Tracked s l e) (htask : e.task? id = some ⟨job :: rest, reply⟩)
    (h : job.run s e = some (next, e₁)) {run : String} {handle : Handle}
    (hf : e₁.table.find? run = some handle) (ha : handle.record.status.isActive = true)
    (habsent : e₁.projects.find? handle.record.projectId = none) :
    .stopActive handle.record.projectId ∈ (e₁.setTask id ⟨next ++ rest, reply'⟩).pending ∨
      .stop run ∈ (e₁.setTask id ⟨next ++ rest, reply'⟩).pending ∨
      EnlistedAstray s run handle.record.projectId (l ++ [⟨e, .work id⟩]) := by
  have he := ht.enlisted
  have hstays := fun j => mem_pending_work he.numbered htask h reply' (j := j)
  rcases he.origin (mem_pending htask List.mem_cons_self) h hf ha with
    ⟨old, hold, hactive, hp, -⟩ | ⟨definition, vars, rfl, rfl, -⟩
  · rw [← hp] at habsent ⊢
    rcases (run_projects h).1.gone habsent with hgone | ⟨rfl, entry, hentry⟩
    · rcases ht.owned hold hactive hgone with hstop | hstop | hstray
      · rcases hstays _ (Or.inl hstop) with rfl | hleft
        · -- the run is found, and is to be stopped
          have hmem := mem_stopActive h (he.active?_eq hold hactive)
          rw [he.single.tidy.named hold] at hmem
          exact Or.inr (Or.inl ((hstays _ (Or.inr hmem)).resolve_left nofun))
        · exact Or.inl hleft
      · rcases hstays _ (Or.inl hstop) with rfl | hleft
        · exact nomatch ha.symm.trans (stop_inactive h hf)
        · exact Or.inr (Or.inl hleft)
      · exact Or.inr (Or.inr (hstray.snoc hgone _))
    · exact Or.inl ((hstays _ (Or.inr (mem_forget h hentry))).resolve_left nofun)
  · -- the run was enlisted just now, and its project was not there
    refine Or.inr (Or.inr ⟨l, ⟨e, .work id⟩, [], rfl, ⟨definition, vars, job?_work htask⟩, rfl, ?_⟩)
    intro m' hm'
    obtain rfl := List.mem_singleton.mp hm'
    change e.projects.find? _ = none
    rw [← (run_apart h rfl nofun).projects]
    exact habsent

/-- **A step**: every deed keeps the invariant. -/
theorem Tracked.step (ht : Tracked s l e) {d : Deed} (hd : e.roam s d = some e') :
    Tracked s (l ++ [⟨e, d⟩]) e' := by
  refine ⟨ht.enlisted.step hd, fun {run handle} hf ha habsent => ?_⟩
  cases roam_cases ht.enlisted.numbered hd with
  | asked c =>
    rcases ht.owned hf ha habsent with hstop | hstop | hstray
    · exact Or.inl (List.mem_append_right _ hstop)
    · exact Or.inr (Or.inl (List.mem_append_right _ hstop))
    · exact Or.inr (Or.inr (hstray.snoc (e := e) habsent _))
  | worked htask hrun => exact ht.work htask hrun hf ha habsent
  | still hw hstill =>
    rw [hstill.table] at hf
    rw [(roam_apart hw hd).1] at habsent
    rw [hstill.pending]
    exact (ht.owned hf ha habsent).imp_right fun h => h.imp_right fun hstray =>
      hstray.snoc habsent _

end Work

/-- **A run**: the invariant holds of whatever a fresh engine comes to. -/
theorem Roams.tracked {s : Settings} {file : Stored} {source : Option (Option (Fields String))}
    {buffer busCapacity : Nat} {l : List Moment} {e : Engine}
    (h : Roams s (fresh file source buffer busCapacity) l e) : Tracked s l e := by
  induction h with
  | nil => exact ⟨enlisted_fresh s file source buffer busCapacity, fun hf => nomatch hf⟩
  | snoc _ hd ih => exact ih.step hd

/-! ## No pass stops a stray -/

/-- Whether a job has nothing to do with a run of a project that is not looked after. -/
def Job.spares (project run : String) : Job → Bool
  | stop id => id ≠ run
  | stopActive id => id ≠ project
  | upsert _ | forget _ | dropMissing _ | reload | restore _ | shutDown => false
  | _ => true

/-- Whether clients ask for nothing but passes at a moment, and a run is not settled. -/
def Moment.leavesOn (run : String) (m : Moment) : Bool :=
  (match m.deed with
    | .ask .pass => true
    | .ask _ => false
    | _ => true) &&
  match m.job? with
    | some (.settle _ id) => id ≠ run
    | _ => true

theorem Moment.pass_of_leavesOn {run : String} {e : Engine} {c : Call}
    (h : (⟨e, .ask c⟩ : Moment).leavesOn run = true) : c = .pass := by
  cases c <;> first | rfl | cases h

theorem Moment.settle_of_leavesOn {run : String} {m : Moment} (h : m.leavesOn run = true)
    (project : String) : m.job? ≠ some (.settle project run) := by
  intro heq
  rw [leavesOn, heq, Bool.and_eq_true] at h
  exact of_decide_eq_true h.2 rfl

theorem Job.spares_of_not_steers {j : Job} (h : j.steers = false) (project run : String) :
    j.spares project run = true := by
  cases j <;> first | rfl | cases h

/-- An active run of a project that is not looked after, with which no job has to do. -/
structure Adrift (s : Settings) (project run : String) (e : Engine) : Prop where
  /-- active runs were enlisted, and are alone -/
  enlisted : Enlisted s e
  /-- projects stand under their ids -/
  tidy : e.projects.Tidy
  /-- no project comes from a source -/
  source : e.source = none
  /-- the project is not looked after -/
  absent : e.projects.find? project = none
  /-- the run is active -/
  active : ∃ h, e.table.find? run = some h ∧ h.record.status.isActive = true ∧
    h.record.projectId = project
  /-- no job has to do with it -/
  spared : ∀ j ∈ e.pending, j.spares project run = true

section Adrift

variable {s : Settings} {project run : String} {e e₁ e' : Engine} {id : Nat} {job : Job}
  {rest next : List Job} {reply reply' : Option Reply}

/-- Jobs that spare a run leave only such to do. -/
theorem Adrift.sparing (ha : Adrift s project run e) (hspares : job.spares project run = true)
    (h : job.run s e = some (next, e₁)) {j : Job} (hj : j ∈ next) :
    j.spares project run = true := by
  cases hsteers : j.steers with
  | false => exact Job.spares_of_not_steers hsteers project run
  | true =>
    cases steers_next h hj hsteers with
    | find => rfl
    | enrol => rfl
    | restore => cases hspares
    | shut => cases hspares
    | load _ hsome => exact absurd ha.source hsome
    | drop => cases hspares
    | disown => cases hspares
    | start => rfl
    | note => rfl
    | @halt id entry hmem =>
      have hf := ha.tidy.sorted.find?_of_mem hmem
      refine decide_eq_true fun heq => ?_
      rw [ha.tidy.named hf] at heq
      subst heq
      cases ha.absent.symm.trans hf
    | @stop id r hr =>
      refine decide_eq_true fun heq => ?_
      obtain ⟨found, hfound, rfl, hproject, -⟩ := ha.enlisted.of_active? hr
      obtain ⟨own, hown, -, rfl⟩ := ha.active
      rw [heq] at hfound
      cases hfound.symm.trans hown
      exact of_decide_eq_true hspares hproject.symm

theorem Adrift.work (ha : Adrift s project run e) (hs : NamesApart s)
    (ht : e.task? id = some ⟨job :: rest, reply⟩) (h : job.run s e = some (next, e₁))
    (hsettle : ∀ p, job ≠ .settle p run)
    (henlisted : Enlisted s (e₁.setTask id ⟨next ++ rest, reply'⟩)) :
    Adrift s project run (e₁.setTask id ⟨next ++ rest, reply'⟩) := by
  have hspares := ha.spared job (mem_pending ht List.mem_cons_self)
  obtain ⟨hamends, hsource⟩ := run_projects h
  refine ⟨henlisted, hamends.tidy ha.tidy, hsource.trans ha.source, ?_, ?_, ?_⟩
  · change e₁.projects.find? project = none
    have habsent := ha.absent
    generalize e₁.projects = ps at hamends ⊢
    cases hamends with
    | kept => exact habsent
    | upserted => cases hspares
    | wished desired hf =>
      rw [Fields.find?_put, if_neg ?_]
      · exact habsent
      · rintro rfl
        cases habsent.symm.trans hf
    | forgotten => cases hspares
    | noted id revision =>
      unfold ProjectSet.noteStarted
      split
      · next entry hf =>
        rw [Fields.find?_put, if_neg ?_]
        · exact habsent
        · rintro rfl
          cases habsent.symm.trans hf
      · exact habsent
  · obtain ⟨own, hown, hactive, rfl⟩ := ha.active
    have hstop : job ≠ .stop run := by
      rintro rfl
      exact of_decide_eq_true hspares rfl
    have hrestore : ∀ records, job ≠ .restore records := by
      rintro records rfl
      cases hspares
    obtain ⟨own', hown', hactive', hproject⟩ :=
      ha.enlisted.stays hs h hown hactive hstop hsettle hrestore
    exact ⟨own', hown', hactive', hproject⟩
  · refine forall_pending_work ha.enlisted.numbered ht h ha.spared fun j hj => ?_
    rcases hj with hj | hj
    · exact ha.sparing hspares h hj
    · exact Job.spares_of_not_steers (steers_spawned j hj) project run

/-- Passes, and what runs do on their own, keep a run adrift until it is settled. -/
theorem Adrift.step (ha : Adrift s project run e) (hs : NamesApart s) {d : Deed}
    (hd : e.roam s d = some e') (hleaves : (⟨e, d⟩ : Moment).leavesOn run = true) :
    Adrift s project run e' := by
  have henlisted := ha.enlisted.step hd
  cases roam_cases ha.enlisted.numbered hd with
  | asked c =>
    obtain rfl := Moment.pass_of_leavesOn hleaves
    refine ⟨henlisted, ha.tidy, ha.source, ha.absent, ha.active, ?_⟩
    refine List.forall_mem_append.mpr ⟨fun j hj => ?_, ha.spared⟩
    simp only [Call.jobs, passing, List.mem_cons, List.not_mem_nil, or_false] at hj
    rcases hj with rfl | rfl | rfl <;> rfl
  | worked ht hrun =>
    refine ha.work hs ht hrun (fun p heq => ?_) henlisted
    subst heq
    exact Moment.settle_of_leavesOn hleaves p (job?_work ht)
  | still hw hstill =>
    obtain ⟨hprojects, hsource⟩ := roam_apart hw hd
    refine ⟨henlisted, ?_, hsource ha.source, ?_, ?_, ?_⟩
    · rw [hprojects]
      exact ha.tidy
    · rw [hprojects]
      exact ha.absent
    · rw [hstill.table]
      exact ha.active
    · rw [hstill.pending]
      exact ha.spared

end Adrift

theorem Roams.adrift {s : Settings} (hs : NamesApart s) {project run : String} {e e' : Engine}
    {l : List Moment} (h : Roams s e l e') (ha : Adrift s project run e)
    (hl : ∀ m ∈ l, m.leavesOn run = true) : Adrift s project run e' := by
  induction h with
  | nil => exact ha
  | @snoc l e₁ e₂ d _ hd ih =>
    have hlast := hl ⟨e₁, d⟩ (List.mem_append_right _ List.mem_cons_self)
    exact (ih fun m hm => hl m (List.mem_append_left _ hm)).step hs hd hlast

theorem Roams.projects_tidy {s : Settings} {e₀ e : Engine} {l : List Moment} (h : Roams s e₀ l e)
    (hn : e₀.Numbered) (h₀ : e₀.projects.Tidy) : e.Numbered ∧ e.projects.Tidy := by
  induction h with
  | nil => exact ⟨hn, h₀⟩
  | snoc _ hd ih =>
    obtain ⟨hn, ht⟩ := ih
    have hturn := roam_cases hn hd
    refine ⟨hturn.numbered hn, ?_⟩
    cases hturn with
    | asked => exact ht
    | worked _ hrun => exact (run_projects hrun).1.tidy ht
    | still hw =>
      rw [(roam_apart hw hd).1]
      exact ht

/-! ## Which runs are left -/

/-- **Strays**. Whatever is done and in whatever order, once nothing that steers is left to do,
every active run is of a project that is looked after, except for strays: those that were enlisted
when their project was not, as it happens when a pass has decided to start one before its project is
forgotten. A stray is there to stay. As long as clients ask for nothing but passes, and projects do
not come from a source, its project is not looked after and it is active, until its own interpreter
is done. -/
theorem Roams.strays {s : Settings} (hs : NamesApart s) {file : Stored}
    {source : Option (Option (Fields String))} {buffer busCapacity : Nat} {l : List Moment}
    {e : Engine} (h : Roams s (fresh file source buffer busCapacity) l e)
    (hidle : ∀ j ∈ e.pending, j.steers = false) {run : String} {handle : Handle}
    (hf : e.table.find? run = some handle) (ha : handle.record.status.isActive = true) :
    ((e.projects.find? handle.record.projectId).isSome = true ∨
      EnlistedAstray s run handle.record.projectId l) ∧
    (e.projects.find? handle.record.projectId = none → e.source = none →
      ∀ l' e', Roams s e l' e' → (∀ m ∈ l', m.leavesOn run = true) →
        e'.projects.find? handle.record.projectId = none ∧
          ∃ handle', e'.table.find? run = some handle' ∧
            handle'.record.status.isActive = true) := by
  have ht := h.tracked
  constructor
  · cases hp : e.projects.find? handle.record.projectId with
    | some entry => exact Or.inl rfl
    | none =>
      refine Or.inr ?_
      rcases ht.owned hf ha hp with hstop | hstop | hstray
      · exact nomatch hidle _ hstop
      · exact nomatch hidle _ hstop
      · exact hstray
  · intro habsent hsource l' e' hroams hl
    have htidy := (h.projects_tidy (fresh_numbered ..) ⟨List.Pairwise.nil, nofun⟩).2
    have hadrift : Adrift s handle.record.projectId run e :=
      ⟨ht.enlisted, htidy, hsource, habsent, ⟨handle, hf, ha, rfl⟩, fun j hj =>
        Job.spares_of_not_steers (hidle j hj) _ _⟩
    have hend := hroams.adrift hs hadrift hl
    obtain ⟨handle', hf', ha', -⟩ := hend.active
    exact ⟨hend.absent, handle', hf', ha'⟩

/-- A project is forgotten after a pass has decided to start it, and before it is started. -/
def overtakenPass : List Deed :=
  [.ask (.upsert { id := "p", desired := .running, definition := { nodes := [{ id := "a" }] } })] ++
    works 0 2 ++ [.ask .pass] ++ works 1 2 ++ [.ask (.forget "p")] ++ works 2 3 ++ works 1 16

/-- Two further passes. -/
def furtherPasses : List Deed :=
  [.ask .pass] ++ works 5 3 ++ [.ask .pass] ++ works 6 3

theorem overtakenPass_spec :
    ∃ l e l' e' h, (fresh .absent none 8 8).replay trial overtakenPass = some (l, e) ∧
      e.replay trial furtherPasses = some (l', e') ∧ e.pending.all (!·.steers) = true ∧
      e.table.find? "#:p" = some h ∧ h.record.status.isActive = true ∧
      h.record.projectId = "p" ∧ e.projects.find? "p" = none ∧ e.source = none ∧
      l'.all (·.leavesOn "#:p") = true := by
  have hall : ((fresh .absent none 8 8).replay trial overtakenPass).any (fun x =>
      (x.2.replay trial furtherPasses).any (fun y => y.1.all (·.leavesOn "#:p")) &&
        x.2.pending.all (!·.steers) && (x.2.table.find? "#:p").any (fun h =>
          h.record.status.isActive && h.record.projectId = "p") &&
        (x.2.projects.find? "p").isNone && x.2.source.isNone) = true := rfl
  obtain ⟨⟨l, e⟩, hreplay, hspec⟩ := (Option.any_eq_true _ _).mp hall
  simp only [Bool.and_eq_true] at hspec
  obtain ⟨⟨⟨⟨hpasses, hidle⟩, hactive⟩, habsent⟩, hsource⟩ := hspec
  obtain ⟨⟨l', e'⟩, hreplay', hleaves⟩ := (Option.any_eq_true _ _).mp hpasses
  obtain ⟨h, hf, hh⟩ := (Option.any_eq_true _ _).mp hactive
  rw [Bool.and_eq_true, decide_eq_true_eq] at hh
  exact ⟨l, e, l', e', h, hreplay, hreplay', hidle, hf, hh.1, hh.2,
    Option.isNone_iff_eq_none.mp habsent, Option.isNone_iff_eq_none.mp hsource, hleaves⟩

theorem overtakenPass_strays :
    ∃ l e l' e' h, Roams trial (fresh .absent none 8 8) l e ∧ Roams trial e l' e' ∧
      EnlistedAstray trial "#:p" "p" l ∧ e'.projects.find? "p" = none ∧
      e'.table.find? "#:p" = some h ∧ h.record.status.isActive = true := by
  obtain ⟨l, e, l', e', h, hreplay, hreplay', hidle, hf, ha, hproject, habsent, hsource, hleaves⟩ :=
    overtakenPass_spec
  have hroams := (replay_runs hreplay).roams
  obtain ⟨hstray, hstays⟩ := hroams.strays trial_namesApart
    (fun j hj => by simpa using List.all_eq_true.mp hidle j hj) hf ha
  rw [hproject] at hstray hstays
  obtain ⟨habsent', h', hf', ha'⟩ := hstays habsent hsource l' e' (replay_runs hreplay').roams
    (List.all_eq_true.mp hleaves)
  refine ⟨l, e, l', e', h', hroams, (replay_runs hreplay').roams, ?_, habsent', hf', ha'⟩
  exact hstray.resolve_left (by rw [habsent]; exact Bool.false_ne_true)

end Workflow.Engine
