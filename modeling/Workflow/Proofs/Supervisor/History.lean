import Workflow.Proofs.Supervisor.Table

/-!
# Which finished runs are kept

When a project gets a new run, the oldest of its runs that are over are forgotten. A record is
forgotten if and only if at least as many records of its project that are over are newer as are to
be kept (`Tidy.find?_prune_eq`), whatever the order in which runs started and ended. So no more than
these are left (`Tidy.length_ended_prune`), and a new run makes one more at most
(`Tidy.length_runsOf_enlist`).
-/

namespace Workflow

/-! ## The order of moments -/

namespace Instant

/-- The seconds of a moment, which count before its fraction does. -/
def seconds (t : Instant) : Int :=
  dayNumber t.year t.month t.day * 86400 + t.hour * 3600 + t.minute * 60 + t.second

theorem before_iff {a b : Instant} :
    a.before b = true ↔ a.seconds < b.seconds ∨ a.seconds = b.seconds ∧ a.nano < b.nano := by
  rw [before, Bool.or_eq_true, Bool.and_eq_true, decide_eq_true_iff, decide_eq_true_iff,
    decide_eq_true_iff]
  exact Iff.rfl

theorem not_before_iff {a b : Instant} :
    a.before b = false ↔ b.seconds < a.seconds ∨ a.seconds = b.seconds ∧ b.nano ≤ a.nano := by
  rw [← Bool.not_eq_true, before_iff]
  omega

end Instant

/-! ## The end of a sorted row -/

section Sorted

variable {α : Type} {le : α → α → Bool} {l : List α} {x : α}

/-- **The end of a sorted row**: an element is cut off from the front of a row of which so many are
kept if and only if at least as many come after it. -/
theorem mem_take_mergeSort_iff (htrans : ∀ a b c, le a b = true → le b c = true → le a c = true)
    (htotal : ∀ a b, (le a b || le b a) = true)
    (hanti : ∀ a ∈ l, ∀ b ∈ l, le a b = true → le b a = true → a = b) (hnodup : l.Nodup)
    (keep : Nat) (hx : x ∈ l) :
    x ∈ (l.mergeSort le).take (l.length - keep) ↔ keep ≤ l.countP fun y => !le y x := by
  have hperm := List.mergeSort_perm l le
  have hsorted := List.pairwise_mergeSort htrans htotal l
  obtain ⟨front, back, hsplit⟩ := List.append_of_mem (hperm.mem_iff.mpr hx)
  rw [hsplit] at hperm hsorted ⊢
  obtain ⟨-, hdistinct, hfront⟩ := List.nodup_append.mp (hperm.nodup_iff.mpr hnodup)
  obtain ⟨-, hback, hbefore⟩ := List.pairwise_append.mp hsorted
  have hreflexive : le x x = true := by simpa using htotal x x
  -- what stands in front is smaller, and what stands behind is greater
  have hsmaller : front.countP (fun y => !le y x) = 0 := by
    refine List.countP_eq_zero.mpr fun y hy => ?_
    rw [hbefore y hy x List.mem_cons_self]
    exact Bool.false_ne_true
  have hgreater : back.countP (fun y => !le y x) = back.length := by
    refine List.countP_eq_length.mpr fun y hy => Bool.not_eq_true' _ ▸ Bool.eq_false_iff.mpr fun hle => ?_
    have hyl : y ∈ l := hperm.mem_iff.mp (List.mem_append_right _ (List.mem_cons_of_mem _ hy))
    have heq := hanti y hyl x hx hle ((List.pairwise_cons.mp hback).1 y hy)
    exact (List.nodup_cons.mp hdistinct).1 (heq ▸ hy)
  have hcount : l.countP (fun y => !le y x) = back.length := by
    rw [← hperm.countP_eq, List.countP_append, List.countP_cons, hsmaller, hgreater, hreflexive]
    simp
  have hlength : front.length + (back.length + 1) = l.length := by
    rw [← hperm.length_eq, List.length_append, List.length_cons]
  have hplace : x ∈ (front ++ x :: back).take (l.length - keep) ↔ front.length < l.length - keep := by
    rw [List.take_append, List.mem_append]
    constructor
    · rintro (hmem | hmem)
      · exact absurd rfl (hfront x (List.mem_of_mem_take hmem) x List.mem_cons_self)
      · refine Nat.lt_of_sub_pos (Nat.pos_of_ne_zero fun hzero => ?_)
        rw [hzero] at hmem
        cases hmem
    · intro hlt
      right
      obtain ⟨n, hn⟩ := Nat.exists_eq_succ_of_ne_zero (Nat.sub_ne_zero_of_lt hlt)
      rw [hn, List.take_succ_cons]
      exact List.mem_cons_self
  rw [hplace, hcount]
  omega

end Sorted

namespace RunTable

/-! ## Newer records -/

/-- Whether a record is newer than another one: its run started later, or at the same moment with
an id that comes later. -/
def newer (a b : RunRecord) : Bool :=
  b.startedAt.before a.startedAt || (!a.startedAt.before b.startedAt && b.runId < a.runId)

/-- Records are forgotten in the order in which they are not newer. -/
theorem newer_eq (a b : RunRecord) : newer a b = !forgottenBefore a b := by
  rw [newer, forgottenBefore]
  cases hab : a.startedAt.before b.startedAt with
  | true =>
    have hba : b.startedAt.before a.startedAt = false := by
      rw [Instant.before_iff] at hab
      rw [Instant.not_before_iff]
      omega
    rw [hba]
    rfl
  | false =>
    cases b.startedAt.before a.startedAt with
    | true => rfl
    | false =>
      by_cases hid : a.runId ≤ b.runId
      · rw [decide_eq_true hid, decide_eq_false (String.not_lt.mpr hid)]
        rfl
      · rw [decide_eq_false hid, decide_eq_true (String.not_le.mp hid)]
        rfl

theorem forgottenBefore_iff {a b : RunRecord} : forgottenBefore a b = true ↔
    a.startedAt.before b.startedAt = true ∨
      b.startedAt.before a.startedAt = false ∧ a.runId ≤ b.runId := by
  rw [forgottenBefore, Bool.or_eq_true, Bool.and_eq_true, Bool.not_eq_true', decide_eq_true_iff]

theorem forgottenBefore_trans (a b c : RunRecord) (hab : forgottenBefore a b = true)
    (hbc : forgottenBefore b c = true) : forgottenBefore a c = true := by
  rw [forgottenBefore_iff, Instant.before_iff, Instant.not_before_iff] at *
  rcases hab with hab | ⟨hab, hid⟩
  · exact Or.inl (by omega)
  · rcases hbc with hbc | ⟨hbc, hid'⟩
    · exact Or.inl (by omega)
    · by_cases hlt : a.startedAt.seconds < c.startedAt.seconds ∨
          a.startedAt.seconds = c.startedAt.seconds ∧ a.startedAt.nano < c.startedAt.nano
      · exact Or.inl hlt
      · exact Or.inr ⟨by omega, String.le_trans hid hid'⟩

theorem forgottenBefore_total (a b : RunRecord) :
    (forgottenBefore a b || forgottenBefore b a) = true := by
  rw [Bool.or_eq_true, forgottenBefore_iff, forgottenBefore_iff, Instant.before_iff,
    Instant.before_iff, Instant.not_before_iff, Instant.not_before_iff]
  rcases String.le_total a.runId b.runId with hid | hid
  · by_cases hlt : b.startedAt.seconds < a.startedAt.seconds ∨
        b.startedAt.seconds = a.startedAt.seconds ∧ b.startedAt.nano < a.startedAt.nano
    · exact Or.inr (Or.inl hlt)
    · exact Or.inl (Or.inr ⟨by omega, hid⟩)
  · by_cases hlt : a.startedAt.seconds < b.startedAt.seconds ∨
        a.startedAt.seconds = b.startedAt.seconds ∧ a.startedAt.nano < b.startedAt.nano
    · exact Or.inl (Or.inl hlt)
    · exact Or.inr (Or.inr ⟨by omega, hid⟩)

theorem runId_eq_of_forgottenBefore {a b : RunRecord} (hab : forgottenBefore a b = true)
    (hba : forgottenBefore b a = true) : a.runId = b.runId := by
  rw [forgottenBefore_iff, Instant.before_iff, Instant.not_before_iff] at hab hba
  rcases hab with hab | ⟨hab, hid⟩
  · omega
  · rcases hba with hba | ⟨-, hid'⟩
    · omega
    · exact String.le_antisymm hid hid'

/-! ## Records of a project -/

/-- The records of a project. -/
def runsOf (t : RunTable) (project : String) : List RunRecord :=
  t.records.filter fun r => r.projectId = project

/-- The records of a project that are over. -/
def ended (t : RunTable) (project : String) : List RunRecord :=
  t.records.filter fun r => r.projectId = project && r.status.isTerminal

/-- Whether a record is over and at least so many records of its project that are over are newer. -/
def isOutdated (t : RunTable) (keep : Nat) (r : RunRecord) : Bool :=
  r.status.isTerminal && keep ≤ (t.ended r.projectId).countP fun r' => newer r' r

section Tidy

variable {t t' : RunTable} {project : String} {keep : Nat} {r : RunRecord}

theorem mem_ended : r ∈ t.ended project ↔
    r ∈ t.records ∧ r.projectId = project ∧ r.status.isTerminal = true := by
  rw [ended, List.mem_filter, Bool.and_eq_true, decide_eq_true_iff]

theorem mem_runsOf : r ∈ t.runsOf project ↔ r ∈ t.records ∧ r.projectId = project := by
  rw [runsOf, List.mem_filter, decide_eq_true_iff]

/-- Finished records of a project are records of the project. -/
theorem ended_sublist (t : RunTable) (project : String) :
    (t.ended project).Sublist (t.runsOf project) := by
  have heq : t.ended project = (t.runsOf project).filter (·.status.isTerminal) := by
    rw [runsOf, List.filter_filter]
    exact List.filter_congr fun _ _ => Bool.and_comm ..
  rw [heq]
  exact List.filter_sublist

theorem Tidy.records_eq (ht : t.Tidy) {a b : RunRecord} (ha : a ∈ t.records) (hb : b ∈ t.records)
    (hid : a.runId = b.runId) : a = b := by
  obtain ⟨h, hf, rfl⟩ := ht.find?_of_mem ha
  obtain ⟨h', hf', rfl⟩ := ht.find?_of_mem hb
  rw [hid] at hf
  exact congrArg Handle.record (Option.some.inj (hf.symm.trans hf'))

/-- No two records of a table have the same id. -/
theorem Tidy.nodup_ids (ht : t.Tidy) (p : RunRecord → Bool) :
    ((t.records.filter p).map (·.runId)).Nodup := by
  refine List.Nodup.sublist (List.Sublist.map _ List.filter_sublist) ?_
  rw [ht.ids]
  exact ht.sorted.nodup

theorem Tidy.nodup_ended (ht : t.Tidy) (project : String) : (t.ended project).Nodup :=
  List.Pairwise.of_map (·.runId) (fun _ _ hne heq => hne (heq ▸ rfl)) (ht.nodup_ids _)

/-- A record is in excess if it is outdated. -/
theorem Tidy.mem_excess_iff (ht : t.Tidy) :
    r ∈ t.excess project keep ↔ r ∈ t.ended project ∧ t.isOutdated keep r = true := by
  have hmem : r ∈ t.excess project keep → r ∈ t.ended project := fun h =>
    (List.mergeSort_perm _ _).mem_iff.mp (List.mem_of_mem_take h)
  suffices h : r ∈ t.ended project →
      (r ∈ t.excess project keep ↔ t.isOutdated keep r = true) from
    ⟨fun hr => ⟨hmem hr, (h (hmem hr)).mp hr⟩, fun hr => (h hr.1).mpr hr.2⟩
  intro hr
  obtain ⟨-, rfl, hover⟩ := mem_ended.mp hr
  have hanti : ∀ a ∈ t.ended r.projectId, ∀ b ∈ t.ended r.projectId, forgottenBefore a b = true →
      forgottenBefore b a = true → a = b := fun a ha b hb hab hba =>
    ht.records_eq (mem_ended.mp ha).1 (mem_ended.mp hb).1 (runId_eq_of_forgottenBefore hab hba)
  have hcut := mem_take_mergeSort_iff forgottenBefore_trans forgottenBefore_total hanti
    (ht.nodup_ended r.projectId) keep hr
  refine hcut.trans ?_
  rw [isOutdated, hover, Bool.true_and, decide_eq_true_iff]
  simp only [newer_eq]

/-! ## Forgetting -/

/-- **What is forgotten**: the outdated records of the project, and nothing else. -/
theorem Tidy.find?_prune_eq (ht : t.Tidy) (project : String) (keep : Nat) (id : String) :
    (t.prune project keep).find? id =
      (t.find? id).filter fun h => !(h.record.projectId = project && t.isOutdated keep h.record) := by
  rw [RunTable.prune, find?_eraseAll]
  cases hf : t.find? id with
  | none => rw [ite_self, Option.filter_none]
  | some h =>
    have hid := ht.named hf
    have hr := mem_records_of_find? hf
    have hexcess : (∃ r ∈ t.excess project keep, r.runId = id) ↔
        h.record.projectId = project ∧ t.isOutdated keep h.record = true := by
      constructor
      · rintro ⟨r, hmem, hsame⟩
        obtain ⟨hended, hold⟩ := ht.mem_excess_iff.mp hmem
        obtain ⟨hrecord, hproject, -⟩ := mem_ended.mp hended
        obtain rfl := ht.records_eq hrecord hr (hsame.trans hid.symm)
        exact ⟨hproject, hold⟩
      · rintro ⟨hproject, hold⟩
        have hover : h.record.status.isTerminal = true := (Bool.and_eq_true_iff.mp hold).1
        exact ⟨h.record, ht.mem_excess_iff.mpr ⟨mem_ended.mpr ⟨hr, hproject, hover⟩, hold⟩, hid⟩
    rw [Option.filter_some]
    simp only [hexcess, Bool.not_eq_true', Bool.and_eq_false_iff, decide_eq_false_iff_not]
    by_cases hproject : h.record.projectId = project
    · by_cases hold : t.isOutdated keep h.record = true
      · simp [hproject, hold]
      · simp [hproject, hold]
    · simp [hproject]

/-- Records that are left are records that were there. -/
theorem Tidy.mem_records_prune (ht : t.Tidy) :
    r ∈ (t.prune project keep).records ↔ r ∈ t.records ∧ r ∉ t.excess project keep := by
  constructor
  · intro hr
    obtain ⟨h, hf, rfl⟩ := (ht.prune project keep).find?_of_mem hr
    rw [ht.find?_prune_eq, Option.filter_eq_some_iff] at hf
    refine ⟨mem_records_of_find? hf.1, fun hmem => ?_⟩
    obtain ⟨hended, hold⟩ := ht.mem_excess_iff.mp hmem
    have hleft := hf.2
    rw [(mem_ended.mp hended).2.1, hold] at hleft
    simp at hleft
  · rintro ⟨hr, hnot⟩
    obtain ⟨h, hf, rfl⟩ := ht.find?_of_mem hr
    have hkept : (t.prune project keep).find? h.record.runId = some h := by
      rw [ht.find?_prune_eq, Option.filter_eq_some_iff]
      refine ⟨hf, ?_⟩
      rw [Bool.not_eq_true', Bool.and_eq_false_iff, decide_eq_false_iff_not]
      by_cases hproject : h.record.projectId = project
      · refine Or.inr (Bool.eq_false_iff.mpr fun hold => hnot ?_)
        have hover : h.record.status.isTerminal = true := (Bool.and_eq_true_iff.mp hold).1
        exact ht.mem_excess_iff.mpr ⟨mem_ended.mpr ⟨hr, hproject, hover⟩, hold⟩
      · exact Or.inl hproject
    exact mem_records_of_find? hkept

/-- **So many are left** of the records that are over. -/
theorem Tidy.length_ended_prune (ht : t.Tidy) (project : String) (keep : Nat) :
    ((t.prune project keep).ended project).length ≤ keep := by
  -- they are among those behind the cut
  let sorted := (t.ended project).mergeSort forgottenBefore
  have hsub : (t.prune project keep).ended project ⊆
      sorted.drop ((t.ended project).length - keep) := by
    intro r hr
    obtain ⟨hrecord, hproject, hover⟩ := mem_ended.mp hr
    obtain ⟨hr', hnot⟩ := ht.mem_records_prune.mp hrecord
    have hmem : r ∈ sorted :=
      (List.mergeSort_perm _ _).mem_iff.mpr (mem_ended.mpr ⟨hr', hproject, hover⟩)
    rw [← List.take_append_drop ((t.ended project).length - keep) sorted, List.mem_append] at hmem
    exact hmem.resolve_left hnot
  have hle := ((ht.prune project keep).nodup_ended project).length_le_of_subset hsub
  rw [List.length_drop, List.length_mergeSort] at hle
  omega

/-- A table in which every record of a project stands under an id under which there was one has no
more of them. -/
theorem Tidy.length_runsOf_le (ht : t.Tidy) (ht' : t'.Tidy)
    (hfrom : ∀ id h', t'.find? id = some h' → h'.record.projectId = project →
      ∃ h, t.find? id = some h ∧ h.record.projectId = project) :
    (t'.runsOf project).length ≤ (t.runsOf project).length := by
  have hsub : (t'.runsOf project).map (·.runId) ⊆ (t.runsOf project).map (·.runId) := by
    intro id hid
    obtain ⟨r, hr, rfl⟩ := List.mem_map.mp hid
    obtain ⟨hrecord, hproject⟩ := mem_runsOf.mp hr
    obtain ⟨h', hf', rfl⟩ := ht'.find?_of_mem hrecord
    obtain ⟨h, hf, hp⟩ := hfrom _ h' hf' hproject
    rw [← ht.named hf]
    exact List.mem_map_of_mem (mem_runsOf.mpr ⟨mem_records_of_find? hf, hp⟩)
  have hle := (ht'.nodup_ids _).length_le_of_subset hsub
  rwa [List.length_map, List.length_map] at hle

theorem length_runsOf_put (t : RunTable) (id : String) (h : Handle) (project : String) :
    (RunTable.runsOf (Fields.put t id h) project).length ≤ (t.runsOf project).length + 1 := by
  have hcount : ∀ t : RunTable, (t.runsOf project).length =
      t.countP fun x => x.2.record.projectId = project := fun t => by
    rw [runsOf, records, ← List.countP_eq_length_filter, List.countP_map]
    rfl
  rw [hcount, hcount]
  induction t with
  | nil => exact List.countP_le_length
  | cons x rest ih =>
    obtain ⟨k, v⟩ := x
    rw [Fields.put]
    split
    · simp only [List.countP_cons]
      split <;> split <;> omega
    · split
      · simp only [List.countP_cons]
        split <;> split <;> omega
      · simp only [List.countP_cons]
        omega

/-- **A new run makes one more at most**, if all other runs of its project are over. -/
theorem Tidy.length_runsOf_enlist (ht : t.Tidy) (keep : Nat) (r : RunRecord)
    (hover : ∀ r' ∈ t.runsOf r.projectId, r'.status.isTerminal = true) :
    ((t.enlist keep r).runsOf r.projectId).length ≤ keep + 1 := by
  have hended : (t.prune r.projectId keep).runsOf r.projectId =
      (t.prune r.projectId keep).ended r.projectId := by
    refine List.filter_congr fun r' hr' => ?_
    by_cases hproject : r'.projectId = r.projectId
    · have hthere := (ht.mem_records_prune.mp hr').1
      rw [hover r' (mem_runsOf.mpr ⟨hthere, hproject⟩), Bool.and_true]
    · simp [hproject]
  refine Nat.le_trans (length_runsOf_put ..) ?_
  rw [hended]
  exact Nat.succ_le_succ (ht.length_ended_prune r.projectId keep)

/-- **What a new run makes room for**: under every other id stands what stood there, unless that is
an outdated record of its project. -/
theorem Tidy.find?_enlist_eq (ht : t.Tidy) (keep : Nat) (r : RunRecord) {id : String}
    (hid : id ≠ r.runId) :
    (t.enlist keep r).find? id = (t.find? id).filter fun h =>
      !(h.record.projectId = r.projectId && t.isOutdated keep h.record) := by
  rw [find?_enlist, if_neg (Ne.symm hid), ht.find?_prune_eq]

end Tidy

end RunTable

end Workflow
