import Mathlib.Data.List.Nodup
import Workflow.Proofs.Watch.Journal

/-!
# The register of watchers

Watchers leave the register in three ways: they are taken off, they are found gone when something is
published, and a subject is forgotten with its last watcher. A register is *neat* (`Neat`) when no
subject was left behind without watchers and nobody is registered on two subjects. All three ways
come down to setting the watchers of one subject to some of its own, and that leaves a register neat
(`Neat.setWatchers`); so does a watcher who comes, because its number is new.

So in a neat and tidy register all watchers are distinct (`Neat.nodup`), and who is taken off is
registered nowhere any more while all others stay (`register_kept`).
-/

namespace Workflow.Broadcaster

/-- A register that holds nothing but watchers on subjects, each on one. -/
structure Neat (b : Broadcaster) : Prop where
  /-- the subjects are in order, and each is there once -/
  sorted : b.subjects.Sorted
  /-- a subject has watchers -/
  inhabited : ∀ f ∈ b.subjects, f.2 ≠ []
  /-- nobody is registered on two subjects -/
  apart : ∀ {s t id}, id ∈ b.watchers s → id ∈ b.watchers t → s = t

variable {b : Broadcaster}

theorem neat_ofBuffer (buffer busCapacity : Nat) : (ofBuffer buffer busCapacity).Neat where
  sorted := List.Pairwise.nil
  inhabited := List.forall_mem_nil _
  apart := nofun

/-- Only the register counts. -/
theorem Neat.of_subjects {b' : Broadcaster} (h : b.Neat) (hsame : b'.subjects = b.subjects) :
    b'.Neat := by
  have hwatchers : ∀ s, b'.watchers s = b.watchers s := by
    intro s
    rw [watchers, watchers, hsame]
  refine ⟨hsame ▸ h.sorted, hsame ▸ h.inhabited, ?_⟩
  intro s t id hs ht
  rw [hwatchers] at hs ht
  exact h.apart hs ht

/-- Setting the watchers of a subject to such as are registered nowhere else keeps a register
neat. -/
theorem Neat.setWatchers (h : b.Neat) (s : String) {ids : List Nat}
    (hids : ∀ id ∈ ids, ∀ t, id ∈ b.watchers t → t = s) : (b.setWatchers s ids).Neat := by
  refine ⟨?_, ?_, ?_⟩
  · unfold Broadcaster.setWatchers
    split
    · exact h.sorted.erase s
    · exact h.sorted.put s ids
  · intro f hf
    unfold Broadcaster.setWatchers at hf
    split at hf
    · exact h.inhabited f (List.mem_of_mem_filter hf)
    · next hne =>
      rcases Fields.mem_put hf with rfl | hf
      · intro hnil
        apply hne
        simpa using hnil
      · exact h.inhabited f hf
  · intro t u id ht hu
    rw [watchers_setWatchers] at ht hu
    split at ht
    · next hst =>
      split at hu
      · next hsu => exact hst.symm.trans hsu
      · exact hst.symm.trans (hids id ht u hu).symm
    · split at hu
      · next hsu => exact (hids id hu t ht).trans hsu
      · exact h.apart ht hu

/-- Some of the watchers of a subject may be left over. -/
theorem Neat.thin (h : b.Neat) (s : String) {ids : List Nat} (hids : ids ⊆ b.watchers s) :
    (b.setWatchers s ids).Neat := by
  apply h.setWatchers s
  intro id hid t ht
  exact h.apart ht (hids hid)

theorem Neat.subscribe (ht : b.Tidy) (h : b.Neat) (s : String) (greeting : List Event) :
    (b.subscribe s greeting).2.Neat := by
  have hcome : ∀ boxes, ({ b with nextId := b.nextId + 1, boxes := boxes } : Broadcaster).Neat :=
    fun boxes => h.of_subjects rfl
  refine (hcome _).setWatchers s ?_
  intro id hid t hmem
  rcases List.mem_append.mp hid with hid | hid
  · exact h.apart hmem hid
  · obtain rfl := List.mem_singleton.mp hid
    exact absurd (ht.below hmem) (Nat.lt_irrefl _)

theorem Neat.unsubscribe (h : b.Neat) (s : String) (i : Nat) : (b.unsubscribe s i).2.Neat := by
  unfold Broadcaster.unsubscribe
  dsimp only
  split
  · have hthin : (b.setWatchers s ((b.watchers s).filter (· ≠ i))).Neat :=
      h.thin s (List.filter_subset_self _)
    exact hthin.of_subjects rfl
  · exact h

theorem Neat.updateAll (h : b.Neat) (ids : List Nat) (f : Mailbox Envelope → Mailbox Envelope) :
    (ids.foldl (fun b i => b.updateBox i f) b).Neat := by
  obtain ⟨boxes, heq⟩ := updateAll_eq ids b f
  rw [heq]
  exact h.of_subjects rfl

/-- Publishing takes some of the watchers off, or leaves the register as it is. -/
theorem Neat.publish (h : b.Neat) (s : String) (event : Event) : (b.publish s event).Neat := by
  suffices hd : (b.deliver s event).Neat from hd.of_subjects rfl
  unfold Broadcaster.deliver
  dsimp only
  rw [List.partition_eq_filter_filter]
  dsimp only
  split
  · exact (h.updateAll _ _).updateAll _ _
  · apply Neat.thin
    · exact (h.updateAll _ _).updateAll _ _
    · rw [watchers_updateAll, watchers_updateAll]
      exact List.filter_subset_self _

/-- **A step**: every deed leaves a register neat. -/
theorem Neat.after (ht : b.Tidy) (h : b.Neat) (d : Deed) : (b.after d).Neat := by
  cases d with
  | subscribe s greeting => exact h.subscribe ht s greeting
  | publish s event => exact h.publish s event
  | unsubscribe s i => exact h.unsubscribe s i
  | receive i => exact h.of_subjects rfl
  | drop i => exact h.of_subjects rfl

theorem neat_afterAll (ht : b.Tidy) (h : b.Neat) (ds : List Deed) : (b.afterAll ds).Neat := by
  induction ds generalizing b with
  | nil => exact h
  | cons d rest ih => exact ih (ht.after d) (h.after ht d)

/-- A subject has the watchers that stand beside it. -/
theorem Neat.watchers_eq (h : b.Neat) {f : String × List Nat} (hf : f ∈ b.subjects) :
    b.watchers f.1 = f.2 := by
  rw [watchers, h.sorted.find?_of_mem hf]
  rfl

/-- The watchers over all subjects are distinct. -/
theorem Neat.nodup (ht : b.Tidy) (h : b.Neat) : (b.subjects.flatMap Prod.snd).Nodup := by
  rw [List.nodup_flatMap]
  constructor
  · intro f hf
    rw [← h.watchers_eq hf]
    exact ht.distinct f.1
  · have hnames : b.subjects.Pairwise fun f g => f.1 ≠ g.1 := List.pairwise_map.mp h.sorted.nodup
    refine hnames.imp_of_mem ?_
    intro f g hf hg hne id hidf hidg
    rw [← h.watchers_eq hf] at hidf
    rw [← h.watchers_eq hg] at hidg
    exact hne (h.apart hidf hidg)

/-- Whether somebody is taken off tells whether it was registered. -/
theorem unsubscribe_fst (b : Broadcaster) (subject : String) (id : Nat) :
    (b.unsubscribe subject id).1 = true ↔ id ∈ b.watchers subject := by
  unfold unsubscribe
  dsimp only
  split
  · next hin => simpa using hin
  · next hout => simpa using hout

/-- **The register, whatever was done.** No subject stands in it twice or without watchers, and all
watchers over all subjects are distinct. Taking a watcher off a subject succeeds exactly if it is
registered there; then it is registered nowhere, and all others stay as they are. -/
theorem register_kept (buffer busCapacity : Nat) (ds : List Deed) :
    let b := (ofBuffer buffer busCapacity).afterAll ds
    b.subjects.names.Nodup ∧ (∀ subject, b.subjects.find? subject ≠ some []) ∧
      (b.subjects.flatMap Prod.snd).Nodup ∧
      ∀ subject id,
        ((b.unsubscribe subject id).1 = true ↔ id ∈ b.watchers subject) ∧
          ((b.unsubscribe subject id).1 = true →
            (∀ s, id ∉ (b.unsubscribe subject id).2.watchers s) ∧
              Without subject id b (b.unsubscribe subject id).2) := by
  intro b
  have htidy : b.Tidy := (tidy_afterAll (tidy_ofBuffer buffer busCapacity) ds).1
  have hneat : b.Neat :=
    neat_afterAll (tidy_ofBuffer buffer busCapacity) (neat_ofBuffer buffer busCapacity) ds
  refine ⟨hneat.sorted.nodup, ?_, hneat.nodup htidy, ?_⟩
  · intro subject hfind
    exact hneat.inhabited _ (Fields.mem_of_find? hfind) rfl
  · intro subject id
    have hwithout := b.unsubscribe_without subject id
    refine ⟨b.unsubscribe_fst subject id, ?_⟩
    intro htrue
    have hin := (b.unsubscribe_fst subject id).mp htrue
    refine ⟨?_, hwithout⟩
    intro s hs
    by_cases heq : s = subject
    · subst heq
      rw [hwithout.own] at hs
      simp at hs
    · rw [hwithout.others s heq] at hs
      exact heq (hneat.apart hs hin)

/-- Three watchers on two subjects, of whom the first goes away and is found gone. -/
def visits : List Deed :=
  [.subscribe "p" [], .subscribe "q" [], .subscribe "p" [], .drop 1, .publish "p" .workflowComplete]

theorem last_visitor_taken_off :
    let b := (ofBuffer 4 4).afterAll visits
    b.subjects = [("p", [3]), ("q", [2])] ∧ (b.unsubscribe "p" 3).1 = true ∧
      (∀ s, 3 ∉ (b.unsubscribe "p" 3).2.watchers s) ∧
      (b.unsubscribe "p" 3).2.subjects = [("q", [2])] := by
  intro b
  obtain ⟨-, -, -, hoff⟩ := register_kept 4 4 visits
  have htrue : (b.unsubscribe "p" 3).1 = true := by decide
  exact ⟨by decide, htrue, ((hoff "p" 3).2 htrue).1, by decide⟩

end Workflow.Broadcaster
