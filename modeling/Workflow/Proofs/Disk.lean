import Workflow.Proofs.Except
import Workflow.Registry

/-!
# Replacing a document

A document that replaces another one is found in its place, and can be replaced in turn
(`Disk.replaced`).

Whether a change can be made depends on the directories alone, and writing and renaming files
leaves them all as they are (`Disk.SameTree`). So what could be written once can be written again.
-/

namespace Workflow.Disk

/-! ## Entries -/

section Entries

variable {d d' : Disk} {path slashed key : String} {s found : Stored}

theorem ne_root (h : d.entry key ≠ .directory) : key ≠ "/" := fun hroot =>
  h (by rw [entry, if_pos hroot])

theorem entry_put (hk : key ≠ "/") (other : String) :
    (d.put key s).entry other = if key = other then s else d.entry other := by
  rw [entry, put, Fields.find?_put, entry]
  by_cases hroot : other = "/"
  · rw [if_pos hroot, if_pos hroot, if_neg fun heq => hk (heq.trans hroot)]
  · rw [if_neg hroot, if_neg hroot]
    split <;> rfl

/-- The disk without what stands under a key. -/
def drop (d : Disk) (key : String) : Disk := { d with entries := d.entries.erase key }

theorem entry_drop (hk : key ≠ "/") (other : String) :
    (d.drop key).entry other = if key = other then .absent else d.entry other := by
  rw [entry, drop, Fields.find?_erase, entry]
  by_cases hroot : other = "/"
  · rw [if_pos hroot, if_pos hroot, if_neg fun heq => hk (heq.trans hroot)]
  · rw [if_neg hroot, if_neg hroot]
    split <;> rfl

/-- A file can be written at a path that does not end with a slash, in a directory that is there,
where no directory stands. -/
theorem writable_iff : (∃ found, d.writable path slashed = .ok found) ↔
    path.isEmpty = false ∧ d.entry (Path.ofWay (d.way path).dropLast) = .directory ∧
      path.endsWith "/" = false ∧ d.entry (d.key path) ≠ .directory := by
  rw [writable]
  cases path.isEmpty with
  | true => simp
  | false =>
    cases d.entry (Path.ofWay (d.way path).dropLast) with
    | directory =>
      cases path.endsWith "/" with
      | true => simp
      | false => by_cases hd : d.entry (d.key path) = .directory <;> simp [hd]
    | absent | binary | text => simp

theorem way_congr {d d' : Disk} (h : d'.base = d.base) (path : String) :
    d'.way path = d.way path := by
  rw [way, way, h]

theorem key_congr {d d' : Disk} (h : d'.base = d.base) (path : String) :
    d'.key path = d.key path := by
  rw [Disk.key, Disk.key, way_congr h]

theorem look_eq (he : path.isEmpty = false) (hs : path.endsWith "/" = false) :
    d.look path = d.entry (d.key path) := by
  rw [look, he, hs]
  cases d.entry (d.key path) <;> rfl

end Entries

/-! ## Directories -/

/-- Two disks on which paths mean the same and the same directories stand. -/
structure SameTree (d d' : Disk) : Prop where
  /-- paths start at one place -/
  base : d'.base = d.base
  /-- the directories are the same -/
  directory : ∀ key, d'.entry key = .directory ↔ d.entry key = .directory

section Directories

variable {d d' : Disk} {path slashed key : String} {found : Stored}

theorem SameTree.trans {d'' : Disk} (h : SameTree d d') (h' : SameTree d' d'') : SameTree d d'' :=
  ⟨h'.base.trans h.base, fun key => (h'.directory key).trans (h.directory key)⟩

theorem sameTree_put {s : Stored} (hk : d.entry key ≠ .directory) (hs : s ≠ .directory) :
    SameTree d (d.put key s) where
  base := rfl
  directory other := by
    rw [entry_put (ne_root hk)]
    split
    · next heq =>
      subst heq
      exact iff_of_false hs hk
    · exact Iff.rfl

theorem sameTree_drop (hk : d.entry key ≠ .directory) : SameTree d (d.drop key) where
  base := rfl
  directory other := by
    rw [entry_drop (ne_root hk)]
    split
    · next heq =>
      subst heq
      exact iff_of_false nofun hk
    · exact Iff.rfl

/-- Where a file can be written, it can be written among the same directories. -/
theorem SameTree.writable (h : SameTree d d') (hw : ∃ found, d.writable path slashed = .ok found)
    (slashed' : String) : ∃ found, d'.writable path slashed' = .ok found := by
  obtain ⟨he, hparent, hs, hdir⟩ := writable_iff.mp hw
  refine writable_iff.mpr ⟨he, ?_, hs, ?_⟩
  · rw [way_congr h.base]
    exact (h.directory _).mpr hparent
  · rw [key_congr h.base]
    exact fun hd => hdir ((h.directory _).mp hd)

/-- What has been made is there, and what was there still is. -/
theorem makeAll_ok {keys : List String} (h : d.makeAll keys = .ok d') :
    (∀ key ∈ keys, d'.entry key = .directory) ∧
      ∀ key, d.entry key = .directory → d'.entry key = .directory := by
  induction keys generalizing d with
  | nil =>
    cases h
    exact ⟨List.forall_mem_nil _, fun _ hd => hd⟩
  | cons key keys ih =>
    obtain ⟨d₁, hone, hrest⟩ := bind_eq_ok h
    obtain ⟨hmade, hkept⟩ := ih hrest
    have hstep : d₁.entry key = .directory ∧
        ∀ other, d.entry other = .directory → d₁.entry other = .directory := by
      rw [makeOne] at hone
      split at hone
      · next hd =>
        cases hone
        exact ⟨hd, fun _ hd => hd⟩
      · next habsent =>
        cases hone
        have hk : key ≠ "/" := ne_root (d := d) (by rw [habsent]; nofun)
        refine ⟨by rw [entry_put hk, if_pos rfl], fun other hd => ?_⟩
        rw [entry_put hk]
        split
        · rfl
        · exact hd
      · cases hone
    exact ⟨List.forall_mem_cons.mpr ⟨hkept _ hstep.1, hmade⟩, fun other hd =>
      hkept other (hstep.2 other hd)⟩

/-- Directories that are there need not be made. -/
theorem makeAll_made {keys : List String} (h : ∀ key ∈ keys, d.entry key = .directory) :
    d.makeAll keys = .ok d := by
  induction keys with
  | nil => rfl
  | cons key keys ih =>
    have hone : d.makeOne key = .ok d := by rw [makeOne, h key (List.mem_cons_self ..)]
    rw [makeAll, hone]
    exact ih fun other ho => h other (List.mem_cons_of_mem _ ho)

theorem makeOne_base (h : d.makeOne key = .ok d') : d'.base = d.base := by
  rw [makeOne] at h
  split at h <;> cases h <;> rfl

theorem makeAll_base {keys : List String} (h : d.makeAll keys = .ok d') : d'.base = d.base := by
  induction keys generalizing d with
  | nil =>
    cases h
    rfl
  | cons key keys ih =>
    obtain ⟨d₁, hone, hrest⟩ := bind_eq_ok h
    exact (ih hrest).trans (makeOne_base hone)

end Directories

/-! ## Files -/

section Files

variable {d d' : Disk} {path draft document : String}

/-- A file that is written is found. -/
theorem write_ok (h : d.apply (.write path document) = .ok d') :
    SameTree d d' ∧ d'.look path = .text document := by
  obtain ⟨found, hw, hput⟩ := bind_eq_ok h
  cases hput
  obtain ⟨he, -, hs, hdir⟩ := writable_iff.mp ⟨found, hw⟩
  refine ⟨sameTree_put hdir nofun, ?_⟩
  rw [look_eq he hs]
  change (d.put (d.key path) (.text document)).entry (d.key path) = _
  rw [entry_put (ne_root hdir), if_pos rfl]

/-- A file can be written again among the same directories. -/
theorem write_again (h : d.apply (.write path document) = .ok d') {d₂ : Disk} (hd : SameTree d d₂)
    (document' : String) : ∃ d₃, d₂.apply (.write path document') = .ok d₃ := by
  obtain ⟨found, hw, -⟩ := bind_eq_ok h
  obtain ⟨found', hw'⟩ := hd.writable ⟨found, hw⟩ "Is a directory (os error 21)"
  exact ⟨_, by rw [apply, hw']; rfl⟩

theorem rename_text (hdraft : d.look draft = .text document) :
    d.apply (.rename draft path) = (d.writable path "Not a directory (os error 20)").map fun _ =>
      if d.key draft = d.key path then d
      else (d.put (d.key path) (.text document)).drop (d.key draft) := by
  rw [apply, hdraft]
  cases d.writable path "Not a directory (os error 20)" <;> rfl

/-- A draft that takes the place of a document is found there. -/
theorem rename_ok (hdraft : d.look draft = .text document)
    (h : d.apply (.rename draft path) = .ok d') :
    SameTree d d' ∧ d'.look path = .text document := by
  rw [rename_text hdraft] at h
  cases hw : d.writable path "Not a directory (os error 20)" with
  | error e =>
    rw [hw] at h
    cases h
  | ok found =>
    rw [hw] at h
    obtain ⟨he, -, hs, hdir⟩ := writable_iff.mp ⟨found, hw⟩
    have hentry : d.entry (d.key draft) = .text document := by
      rw [look] at hdraft
      split at hdraft
      · cases hdraft
      · split at hdraft
        · cases hdraft
        · split at hdraft
          · cases hdraft
          · exact hdraft
    rw [look_eq he hs]
    change Except.ok (if d.key draft = d.key path then d
      else (d.put (d.key path) (.text document)).drop (d.key draft)) = _ at h
    split at h
    · next hsame =>
      cases h
      exact ⟨⟨rfl, fun _ => Iff.rfl⟩, hsame ▸ hentry⟩
    · next hother =>
      cases h
      have hfile : d.entry (d.key draft) ≠ .directory := by
        rw [hentry]
        nofun
      have hput : SameTree d (d.put (d.key path) (.text document)) := sameTree_put hdir nofun
      refine ⟨hput.trans (sameTree_drop fun hd => hfile ((hput.directory _).mp hd)), ?_⟩
      change ((d.put (d.key path) (.text document)).drop (d.key draft)).entry (d.key path) = _
      rw [entry_drop (ne_root hfile), if_neg hother, entry_put (ne_root hdir), if_pos rfl]

/-- A draft can take the place of a document again among the same directories. -/
theorem rename_again (hdraft : d.look draft = .text document)
    (h : d.apply (.rename draft path) = .ok d') {d₂ : Disk} (hd : SameTree d d₂)
    {document' : String} (hdraft' : d₂.look draft = .text document') :
    ∃ d₃, d₂.apply (.rename draft path) = .ok d₃ := by
  rw [rename_text hdraft] at h
  cases hw : d.writable path "Not a directory (os error 20)" with
  | error e =>
    rw [hw] at h
    cases h
  | ok found =>
    obtain ⟨found', hw'⟩ := hd.writable ⟨found, hw⟩ "Not a directory (os error 20)"
    exact ⟨_, by rw [rename_text hdraft', hw']; rfl⟩

theorem applyAll_append (cs cs' : List Change) :
    d.applyAll (cs ++ cs') = d.applyAll cs >>= fun d₁ => d₁.applyAll cs' := by
  induction cs generalizing d with
  | nil => rfl
  | cons c cs ih =>
    rw [List.cons_append, applyAll, applyAll]
    cases d.apply c with
    | error e => rfl
    | ok d₁ => exact ih

/-- A directory that has been made need not be made again. -/
theorem makeDirectory_again {parent : Option String}
    (h : d.applyAll (parent.map Change.makeDirectory).toList = .ok d') {d₂ : Disk}
    (hd : SameTree d' d₂) : d₂.applyAll (parent.map Change.makeDirectory).toList = .ok d₂ := by
  cases parent with
  | none => rfl
  | some directory =>
    obtain ⟨d₁, hmake, hnil⟩ := bind_eq_ok h
    cases hnil
    have hway : d₂.way directory = d.way directory :=
      way_congr (hd.base.trans (makeAll_base hmake)) directory
    have hmade : d₂.apply (.makeDirectory directory) = .ok d₂ := by
      rw [apply, lineage, hway]
      exact makeAll_made fun key hkey => (hd.directory key).mpr ((makeAll_ok hmake).1 key hkey)
    change (d₂.apply (.makeDirectory directory) >>= fun d₃ => d₃.applyAll []) = _
    rw [hmade]
    rfl

/-- **A document that replaces another one is found in its place**, and it can be replaced. -/
theorem replaced (h : d.applyAll (Registry.replacing path document) = .ok d') :
    d'.look path = .text document ∧
      ∀ document', ∃ d₂, d'.applyAll (Registry.replacing path document') = .ok d₂ := by
  rw [Registry.replacing, applyAll_append] at h
  obtain ⟨d₁, hmake, hfiles⟩ := bind_eq_ok h
  obtain ⟨d₂, hwrite, hrest⟩ := bind_eq_ok hfiles
  obtain ⟨d₃, hrename, hnil⟩ := bind_eq_ok hrest
  cases hnil
  obtain ⟨hwritten, hdraft⟩ := write_ok hwrite
  obtain ⟨hrenamed, hlook⟩ := rename_ok hdraft hrename
  refine ⟨hlook, fun document' => ?_⟩
  have hsame := hwritten.trans hrenamed
  obtain ⟨d₄, hwrite'⟩ := write_again hwrite hsame document'
  obtain ⟨hwritten', hdraft'⟩ := write_ok hwrite'
  obtain ⟨d₅, hrename'⟩ := rename_again hdraft hrename (hrenamed.trans hwritten') hdraft'
  refine ⟨d₅, ?_⟩
  rw [Registry.replacing, applyAll_append, makeDirectory_again hmake hsame]
  change (d'.apply _ >>= fun d => d.applyAll [_]) = _
  rw [hwrite']
  change (d₄.apply _ >>= fun d => d.applyAll []) = _
  rw [hrename']
  rfl

end Files

end Workflow.Disk
