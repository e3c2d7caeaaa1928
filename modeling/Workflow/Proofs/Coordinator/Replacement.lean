import Workflow.Proofs.Coordinator.Steering
import Workflow.Proofs.Sameness

/-!
# Replacing all projects by a list

What a source gives replaces all projects there are (`ProjectSet.replaceAll`): the projects of the
list are taken up one after the other, and those that it does not name are forgotten. For each
project this is about the versions that the list has of it (`find?_replaceAll`): the last one stays,
and each that differs from the one before it is a new revision.

A set mirrors a list if it holds the last version of each project, as it does after such a
replacement (`replaceAll_mirrors`). To replace it by the same list again then changes nothing but
revisions, and not even these exactly if the list has no two versions of a project whose definitions
differ (`Mirrors.replaceAll_eq_iff`). Where it has, the revision rises every time.
-/

namespace Workflow

/-! ## Versions of a project -/

namespace Project

/-- The versions of a project in a list. -/
def versions (ps : List Project) (id : String) : List Project := ps.filter fun p => p.id = id

/-- How often the definition changes from a project on through a row of versions. -/
def changes (p : Project) : List Project → Nat
  | [] => 0
  | q :: rest => (if p.definition.same q.definition then 0 else 1) + changes q rest

/-- Whether the versions of a project in a list all have the same definition. -/
def Agree (ps : List Project) (id : String) : Prop :=
  ∀ p ∈ ps, ∀ q ∈ ps, p.id = id → q.id = id → p.definition.same q.definition = true

theorem mem_versions {ps : List Project} {id : String} {p : Project} :
    p ∈ versions ps id ↔ p ∈ ps ∧ p.id = id := by
  rw [versions, List.mem_filter, decide_eq_true_eq]

theorem changes_cons_eq_zero {p q : Project} {rest : List Project} :
    p.changes (q :: rest) = 0 ↔ p.definition.same q.definition = true ∧ q.changes rest = 0 := by
  rw [changes]
  cases p.definition.same q.definition <;> simp

/-- Without a change all definitions are the same as the first. -/
theorem same_of_changes {p : Project} {ps : List Project} (h : p.changes ps = 0) :
    ∀ q ∈ ps, p.definition.same q.definition = true := by
  induction ps generalizing p with
  | nil => exact nofun
  | cons r rest ih =>
    obtain ⟨hr, hrest⟩ := changes_cons_eq_zero.mp h
    intro q hq
    rcases List.mem_cons.mp hq with rfl | hq
    · exact hr
    · exact Definition.same_trans hr (ih hrest q hq)

/-- And the same as the last. -/
theorem same_last_of_changes {p last : Project} {ps : List Project} (h : p.changes ps = 0)
    (hlast : ps.getLast? = some last) (hself : last.definition.same last.definition = true) :
    ∀ q ∈ ps, q.definition.same last.definition = true := by
  induction ps generalizing p with
  | nil => exact nofun
  | cons r rest ih =>
    obtain ⟨-, hrest⟩ := changes_cons_eq_zero.mp h
    intro q hq
    cases rest with
    | nil =>
      cases hlast
      obtain rfl := List.mem_singleton.mp hq
      exact hself
    | cons r' rest =>
      rw [List.getLast?_cons_cons] at hlast
      rcases List.mem_cons.mp hq with rfl | hq
      · exact same_of_changes hrest last (List.mem_of_getLast? hlast)
      · exact ih hrest hlast q hq

/-- Where all definitions are the same there is no change. -/
theorem changes_of_same {p : Project} {ps : List Project}
    (h : ∀ a ∈ p :: ps, ∀ b ∈ p :: ps, a.definition.same b.definition = true) :
    p.changes ps = 0 := by
  induction ps generalizing p with
  | nil => rfl
  | cons q rest ih =>
    refine changes_cons_eq_zero.mpr ⟨?_, ih fun a ha b hb => ?_⟩
    · exact h p List.mem_cons_self q (List.mem_cons_of_mem _ List.mem_cons_self)
    · exact h a (List.mem_cons_of_mem _ ha) b (List.mem_cons_of_mem _ hb)

/-- From the last version on through all of them nothing changes exactly if all are the same: the
way is a circle, and sameness is transitive. -/
theorem changes_last_eq_zero {p : Project} {ps : List Project} (hlast : ps.getLast? = some p) :
    p.changes ps = 0 ↔ ∀ a ∈ ps, ∀ b ∈ ps, a.definition.same b.definition = true := by
  have hp := List.mem_of_getLast? hlast
  constructor
  · intro h a ha b hb
    have hfirst := same_of_changes h
    exact Definition.same_trans (same_last_of_changes h hlast (hfirst p hp) a ha) (hfirst b hb)
  · intro h
    have hmem : ∀ {q}, q ∈ p :: ps → q ∈ ps := fun hq =>
      (List.mem_cons.mp hq).elim (fun heq => heq ▸ hp) fun hq => hq
    exact changes_of_same fun a ha b hb => h a (hmem ha) b (hmem hb)

theorem agree_iff {ps : List Project} {id : String} :
    Agree ps id ↔
      ∀ p ∈ versions ps id, ∀ q ∈ versions ps id, p.definition.same q.definition = true := by
  constructor
  · intro h p hp q hq
    obtain ⟨hp, hpid⟩ := mem_versions.mp hp
    obtain ⟨hq, hqid⟩ := mem_versions.mp hq
    exact h p hp q hq hpid hqid
  · intro h p hp q hq hpid hqid
    exact h p (mem_versions.mpr ⟨hp, hpid⟩) q (mem_versions.mpr ⟨hq, hqid⟩)

end Project

/-! ## Taking up versions -/

namespace ProjectEntry

/-- The entry of a project when a version of it is taken up. -/
def takeUp (old? : Option ProjectEntry) (p : Project) : ProjectEntry :=
  match old? with
  | some entry => entry.revise p
  | none => { project := p }

/-- The entry of a project when a row of versions replaces it; without a version it is forgotten. -/
def takeUpAll (old? : Option ProjectEntry) : List Project → Option ProjectEntry
  | [] => none
  | p :: rest => some (rest.foldl revise (takeUp old? p))

/-- Of a row of versions the last one stays, and every change is a revision. -/
theorem foldl_revise (ps : List Project) (entry : ProjectEntry) :
    ps.foldl revise entry =
      { entry with
        project := ps.getLast?.getD entry.project
        revision := entry.revision + entry.project.changes ps } := by
  induction ps generalizing entry with
  | nil => rfl
  | cons p rest ih =>
    rw [List.foldl_cons, ih, List.getLast?_cons, Option.getD_some]
    cases hsame : entry.project.definition.same p.definition <;>
      simp [revise, Project.changes, hsame, Nat.add_assoc]

/-- The last version is what stays. -/
theorem takeUpAll_project (old? : Option ProjectEntry) (ps : List Project) :
    (takeUpAll old? ps).map (·.project) = ps.getLast? := by
  cases ps with
  | nil => rfl
  | cons p rest =>
    have hp : (takeUp old? p).project = p := by cases old? <;> rfl
    rw [takeUpAll, Option.map_some, foldl_revise, List.getLast?_cons, hp]

/-- If the last version is there already, only the revision may rise. -/
theorem takeUpAll_mirrored {entry : ProjectEntry} {ps : List Project}
    (hlast : ps.getLast? = some entry.project) :
    takeUpAll (some entry) ps =
      some { entry with revision := entry.revision + entry.project.changes ps } := by
  cases ps with
  | nil => cases hlast
  | cons p rest =>
    have hall : takeUpAll (some entry) (p :: rest) = some ((p :: rest).foldl revise entry) := rfl
    rw [hall, foldl_revise, hlast, Option.getD_some]

end ProjectEntry

/-! ## Replacing the set -/

namespace ProjectSet

open Project ProjectEntry

/-- Replaces all projects by those of a list: takes up each, and forgets those that the list does
not name. -/
def replaceAll (ps : ProjectSet) (specs : List Project) : ProjectSet :=
  let taken := specs.foldl upsert ps
  (taken.missing (specs.map (·.id))).foldl Fields.erase taken

theorem upsert_eq (ps : ProjectSet) (p : Project) :
    ps.upsert p = ps.put p.id (takeUp (ps.find? p.id) p) := by
  unfold upsert takeUp
  cases ps.find? p.id <;> rfl

theorem Tidy.upsert {ps : ProjectSet} (ht : ps.Tidy) (p : Project) : (ps.upsert p).Tidy := by
  rw [upsert_eq]
  refine ht.put ?_
  cases ps.find? p.id <;> rfl

theorem Tidy.foldl_upsert {ps : ProjectSet} (ht : ps.Tidy) (specs : List Project) :
    Tidy (specs.foldl ProjectSet.upsert ps) := by
  induction specs generalizing ps with
  | nil => exact ht
  | cons p rest ih => exact ih (ht.upsert p)

theorem Tidy.foldl_erase {ps : ProjectSet} (ht : ps.Tidy) (ids : List String) :
    Tidy (ids.foldl Fields.erase ps) := by
  induction ids generalizing ps with
  | nil => exact ht
  | cons id rest ih => exact ih (ht.erase id)

theorem Tidy.replaceAll {ps : ProjectSet} (ht : ps.Tidy) (specs : List Project) :
    (ps.replaceAll specs).Tidy := (ht.foldl_upsert specs).foldl_erase _

/-- Taking up a list takes up, for each project, its versions. -/
theorem find?_foldl_upsert (specs : List Project) (ps : ProjectSet) (id : String) :
    (specs.foldl upsert ps).find? id =
      (takeUpAll (ps.find? id) (versions specs id)).or (ps.find? id) := by
  induction specs generalizing ps with
  | nil => rfl
  | cons p rest ih =>
    rw [List.foldl_cons, ih, upsert_eq, Fields.find?_put]
    by_cases hp : p.id = id
    · subst hp
      have hversions : versions (p :: rest) p.id = p :: versions rest p.id :=
        List.filter_cons_of_pos (decide_eq_true rfl)
      rw [if_pos rfl, hversions]
      cases hrest : versions rest p.id with
      | nil => rfl
      | cons q more => rfl
    · have hversions : versions (p :: rest) id = versions rest id :=
        List.filter_cons_of_neg (by simpa using hp)
      rw [if_neg hp, hversions]

/-- **What a replacement makes of each project.** -/
theorem find?_replaceAll (ps : ProjectSet) (specs : List Project) (id : String) :
    (ps.replaceAll specs).find? id = takeUpAll (ps.find? id) (versions specs id) := by
  have herase := Fields.find?_foldl_erase (fun name => name)
    (missing (specs.foldl upsert ps) (specs.map (·.id))) (specs.foldl upsert ps) id
  rw [replaceAll, herase]
  cases hversions : versions specs id with
  | nil =>
    -- no version: the project is missing, unless it was not there anyway
    have hnot : id ∉ specs.map (·.id) := by
      intro hmem
      obtain ⟨p, hp, hid⟩ := List.mem_map.mp hmem
      have hmem := mem_versions.mpr ⟨hp, hid⟩
      rw [hversions] at hmem
      cases hmem
    rw [takeUpAll]
    split
    · rfl
    · next hkept =>
      refine Fields.find?_eq_none fun hname => hkept ⟨id, List.mem_filter.mpr ⟨hname, ?_⟩, rfl⟩
      simpa using hnot
  | cons p rest =>
    have hmem : p ∈ versions specs id := by
      rw [hversions]
      exact List.mem_cons_self
    obtain ⟨hp, hid⟩ := mem_versions.mp hmem
    have hnamed : id ∈ specs.map (·.id) := List.mem_map.mpr ⟨p, hp, hid⟩
    rw [if_neg, find?_foldl_upsert, hversions]
    · rfl
    · rintro ⟨_, hmissing, rfl⟩
      have hnot := (List.mem_filter.mp hmissing).2
      simp [hnamed] at hnot

/-! ## Sets that mirror a list -/

/-- That a set has the last version of each project of a list, and no other projects. -/
def Mirrors (ps : ProjectSet) (specs : List Project) : Prop :=
  ∀ id, (ps.find? id).map (·.project) = (versions specs id).getLast?

theorem replaceAll_mirrors (ps : ProjectSet) (specs : List Project) :
    (ps.replaceAll specs).Mirrors specs := by
  intro id
  rw [find?_replaceAll, takeUpAll_project]

section Mirrored

variable {ps : ProjectSet} {specs : List Project} {id : String} {entry : ProjectEntry}

theorem Mirrors.last (hm : ps.Mirrors specs) (hf : ps.find? id = some entry) :
    (versions specs id).getLast? = some entry.project := by
  rw [← hm id, hf, Option.map_some]

/-- To replace a set by the list that it mirrors raises revisions and changes nothing else. -/
theorem Mirrors.find?_replaceAll (hm : ps.Mirrors specs) (id : String) :
    (ps.replaceAll specs).find? id =
      (ps.find? id).map fun entry =>
        { entry with revision := entry.revision + entry.project.changes (versions specs id) } := by
  rw [ProjectSet.find?_replaceAll]
  cases hf : ps.find? id with
  | none =>
    have hlast := hm id
    rw [hf, Option.map_none] at hlast
    rw [List.getLast?_eq_none_iff.mp hlast.symm]
    rfl
  | some entry => exact takeUpAll_mirrored (hm.last hf)

/-- A revision stays exactly if the versions of the project agree. -/
theorem Mirrors.changes_eq_zero (hm : ps.Mirrors specs) (hf : ps.find? id = some entry) :
    entry.project.changes (versions specs id) = 0 ↔ Agree specs id :=
  (changes_last_eq_zero (hm.last hf)).trans agree_iff.symm

/-- **Replacing by the same list again** leaves everything as it was exactly if the versions of each
project agree. -/
theorem Mirrors.replaceAll_eq_iff (hm : ps.Mirrors specs) (ht : ps.Tidy) :
    ps.replaceAll specs = ps ↔ ∀ id, Agree specs id := by
  constructor
  · intro h id
    cases hf : ps.find? id with
    | none =>
      intro p hp _ _ hid _
      have hlast := hm id
      rw [hf, Option.map_none] at hlast
      have hmem := mem_versions.mpr ⟨hp, hid⟩
      rw [List.getLast?_eq_none_iff.mp hlast.symm] at hmem
      cases hmem
    | some entry =>
      have hagain := hm.find?_replaceAll id
      rw [h, hf, Option.map_some] at hagain
      have hrevision := congrArg ProjectEntry.revision (Option.some.inj hagain)
      exact (hm.changes_eq_zero hf).mp (Nat.left_eq_add.mp hrevision)
  · intro h
    refine (ht.replaceAll specs).sorted.ext ht.sorted fun id => ?_
    rw [hm.find?_replaceAll]
    cases hf : ps.find? id with
    | none => rfl
    | some entry =>
      rw [Option.map_some, (hm.changes_eq_zero hf).mpr (h id)]
      rfl

end Mirrored

end ProjectSet

end Workflow
