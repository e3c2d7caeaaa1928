import Workflow.Proofs.Path
import Workflow.Proofs.Registry

/-!
# Saves that are broken off

A save may fail or be cut off by the end of the process at any moment: between two of its changes,
or within one, when some of the directories have been made or a part of the draft has been written
(`Disk.Leaves`, `Disk.Breaks`). Whatever is touched before the draft takes the place of the
registry, the directories above it and the draft, is never the registry itself
(`Registry.key_not_mem_lineage`, `Registry.key_draft_ne`). So whatever has become of the saves so
far, what is found at the path of the registry is the whole document of the last one that got
through, or what was there at the start (`Registry.Saves.whole`).

The disk in the middle of a save is the one that is left if the save breaks off there, so this holds
at every moment.
-/

namespace Workflow

/-! ## Changes that are broken off -/

namespace Disk

/-- What may be left of a disk by a change that is not made, or not to its end. -/
inductive Leaves (d : Disk) : Change → Disk → Prop
  /-- nothing has happened; a file has its new path at once or not at all -/
  | nothing (c : Change) : Leaves d c d
  /-- the first of the directories have been made -/
  | directories {path : String} {d' : Disk} (n : Nat)
      (h : d.makeAll ((d.lineage path).take n) = .ok d') : Leaves d (.makeDirectory path) d'
  /-- the file is there, with the first bytes of the text -/
  | bytes {path text : String} {found : Stored} (n : Nat)
      (h : d.writable path "Is a directory (os error 21)" = .ok found) :
      Leaves d (.write path text) (d.put (d.key path) (.ofBytes (text.toUTF8.extract 0 n)))
  /-- the first bytes of the text stand behind what was there -/
  | more {path text : String} {found : Stored} (n : Nat)
      (h : d.writable path "Is a directory (os error 21)" = .ok found) (hb : found ≠ .binary) :
      Leaves d (.append path text) (d.put (d.key path)
        (.ofBytes ((found.text?.getD "").toUTF8 ++ text.toUTF8.extract 0 n)))

/-- What may be left by changes that are made one after another and broken off before the end of
the last. -/
inductive Breaks : Disk → List Change → Disk → Prop
  /-- the next change is broken off -/
  | here {d d' : Disk} {c : Change} {cs : List Change} (h : d.Leaves c d') : Breaks d (c :: cs) d'
  /-- the next change is made -/
  | later {d d₁ d' : Disk} {c : Change} {cs : List Change} (h : d.apply c = .ok d₁)
      (hrest : Breaks d₁ cs d') : Breaks d (c :: cs) d'

/-- Whether a change keeps off a key: what stands there is neither made nor written nor moved. -/
def KeepsOff (d : Disk) (key : String) : Change → Prop
  | .makeDirectory path => key ∉ d.lineage path
  | .write path _ | .append path _ => d.key path ≠ key
  | .rename old new => d.key old ≠ key ∧ d.key new ≠ key

/-- Two disks on which paths mean the same and one thing stands under a key. -/
structure AgreeAt (d d' : Disk) (key : String) : Prop where
  /-- paths start at one place -/
  base : d'.base = d.base
  /-- the same thing stands there -/
  entry : d'.entry key = d.entry key

section Agreement

variable {d d' d'' : Disk} {key path : String} {c : Change}

theorem AgreeAt.rfl : AgreeAt d d key := ⟨Eq.refl _, Eq.refl _⟩

theorem AgreeAt.trans (h : AgreeAt d d' key) (h' : AgreeAt d' d'' key) : AgreeAt d d'' key :=
  ⟨h'.base.trans h.base, h'.entry.trans h.entry⟩

theorem KeepsOff.of_base (h : d'.base = d.base) (hc : d.KeepsOff key c) : d'.KeepsOff key c := by
  cases c with
  | makeDirectory path =>
    rw [KeepsOff, lineage, way_congr h]
    exact hc
  | write path | append path =>
    rw [KeepsOff, key_congr h]
    exact hc
  | rename old new =>
    rw [KeepsOff, key_congr h, key_congr h]
    exact hc

/-- What is found at a path depends on what stands under its key. -/
theorem AgreeAt.look_eq (h : AgreeAt d d' (d.key path)) : d'.look path = d.look path := by
  rw [look, look, key_congr h.base, h.entry]

theorem agreeAt_put {other : String} (hne : other ≠ key) (s : Stored) :
    AgreeAt d (d.put other s) key where
  base := Eq.refl _
  entry := by
    rw [entry, entry, put, Fields.find?_put, if_neg hne]

theorem agreeAt_drop {other : String} (hne : other ≠ key) : AgreeAt d (d.drop other) key where
  base := Eq.refl _
  entry := by
    rw [entry, entry, drop, Fields.find?_erase, if_neg hne]

theorem agreeAt_makeAll {keys : List String} (h : d.makeAll keys = .ok d') (hne : key ∉ keys) :
    AgreeAt d d' key := by
  induction keys generalizing d with
  | nil =>
    cases h
    exact .rfl
  | cons other keys ih =>
    obtain ⟨d₁, hone, hrest⟩ := bind_eq_ok h
    obtain ⟨hother, hkeys⟩ := not_or.mp (mt List.mem_cons.mpr hne)
    refine AgreeAt.trans ?_ (ih hrest hkeys)
    rw [makeOne] at hone
    split at hone
    · cases hone
      exact .rfl
    · cases hone
      exact agreeAt_put (Ne.symm hother) _
    · cases hone

/-- **A change that is made touches nothing that it keeps off.** -/
theorem agreeAt_apply (h : d.apply c = .ok d') (hc : d.KeepsOff key c) : AgreeAt d d' key := by
  cases c with
  | makeDirectory path => exact agreeAt_makeAll h hc
  | write path text =>
    obtain ⟨_, -, hput⟩ := bind_eq_ok h
    cases hput
    exact agreeAt_put hc _
  | append path text =>
    obtain ⟨found, -, hput⟩ := bind_eq_ok h
    cases found with
    | binary =>
      cases hput
      exact .rfl
    | absent | directory | text =>
      cases hput
      exact agreeAt_put hc _
  | rename old new =>
    obtain ⟨_, -, hmove⟩ := bind_eq_ok h
    have hmoved (s : Stored) : AgreeAt d (if d.key old = d.key new then d
        else (d.put (d.key new) s).drop (d.key old)) key := by
      split
      · exact .rfl
      · exact (agreeAt_put hc.2 s).trans (agreeAt_drop hc.1)
    cases hold : d.look old with
    | absent | directory =>
      rw [hold] at hmove
      cases hmove
    | binary | text =>
      rw [hold] at hmove
      exact Except.ok.inj hmove ▸ hmoved _

/-- **A change that is broken off touches nothing that it keeps off.** -/
theorem Leaves.agreeAt (h : d.Leaves c d') (hc : d.KeepsOff key c) : AgreeAt d d' key := by
  cases h with
  | nothing => exact .rfl
  | directories n h => exact agreeAt_makeAll h fun hmem => hc (List.mem_of_mem_take hmem)
  | bytes n h => exact agreeAt_put hc _
  | more n h => exact agreeAt_put hc _

/-- **What is broken off before a file is moved touches nothing that it keeps off before.** -/
theorem Breaks.agreeAt {cs : List Change} {old new : String}
    (h : d.Breaks (cs ++ [.rename old new]) d') (hcs : ∀ c ∈ cs, d.KeepsOff key c) :
    AgreeAt d d' key := by
  induction cs generalizing d with
  | nil =>
    cases h with
    | here h =>
      cases h
      exact .rfl
    | later _ hrest => cases hrest
  | cons c cs ih =>
    obtain ⟨hc, hcs⟩ := List.forall_mem_cons.mp hcs
    cases h with
    | here h => exact h.agreeAt hc
    | later h hrest =>
      have hstep := agreeAt_apply h hc
      exact hstep.trans (ih hrest fun c hmem => (hcs c hmem).of_base hstep.base)

/-- What is broken off behind changes that are made is broken off among all of them. -/
theorem Breaks.behind {cs cs' : List Change} (h : d.applyAll cs = .ok d') (hb : d'.Breaks cs' d'') :
    d.Breaks (cs ++ cs') d'' := by
  induction cs generalizing d with
  | nil =>
    cases h
    exact hb
  | cons c cs ih =>
    obtain ⟨d₁, hc, hrest⟩ := bind_eq_ok h
    exact .later hc (ih hrest)

end Agreement

end Disk

/-! ## Saves -/

namespace Registry

open RunRecord (rested)

variable {d d' d₀ : Disk} {path name directory : String} {last : Option (List RunRecord)}

/-- The way to a file, to its draft and to the directory of both. -/
theorem way_draft (d : Disk) (h : Path.fileName? path = some name) :
    ∃ w draft, draft ≠ name ∧ d.way path = w ++ [name] ∧ d.way (draftPath path) = w ++ [draft] ∧
      ∀ directory ∈ Path.directory? path, d.way directory = w := by
  obtain ⟨⟨ps, hps⟩, -⟩ := Path.fileName?_eq_some h
  have hname : Path.IsPart name := Path.isPart_of_mem_parts (by
    rw [hps]
    exact List.mem_concat_self)
  obtain ⟨hpart, hup⟩ := Path.isPart_stem_append (e := "json.tmp") hname (by decide) (by decide)
  obtain ⟨w, hw⟩ := Path.way_beside d.base h hpart hup
  exact ⟨w, _, Path.draftName_ne hname.ne_empty, hw⟩

/-- **A draft is never the registry itself.** -/
theorem key_draft_ne (d : Disk) (h : Path.fileName? path = some name) :
    d.key (draftPath path) ≠ d.key path := by
  obtain ⟨w, draft, hne, hpath, hdraft, -⟩ := way_draft d h
  intro hkey
  have hway : d.way (draftPath path) = d.way path :=
    Path.ofWay_inj (fun _ => Path.isPart_of_mem_way) (fun _ => Path.isPart_of_mem_way) hkey
  rw [hpath, hdraft] at hway
  exact hne (List.head_eq_of_cons_eq (List.append_cancel_left hway))

/-- **The directories above a registry are never the registry itself.** -/
theorem key_not_mem_lineage (d : Disk) (h : Path.fileName? path = some name)
    (hd : directory ∈ Path.directory? path) : d.key path ∉ d.lineage directory := by
  obtain ⟨w, -, -, hpath, -, hdirectory⟩ := way_draft d h
  intro hmem
  obtain ⟨n, -, hkey⟩ := List.mem_map.mp hmem
  rw [hdirectory directory hd] at hkey
  have hparts : ∀ p ∈ w, Path.IsPart p := by
    rw [← hdirectory directory hd]
    exact fun _ => Path.isPart_of_mem_way
  have hway : w.take (n + 1) = d.way path := Path.ofWay_inj
    (fun p hp => hparts p (List.mem_of_mem_take hp)) (fun _ => Path.isPart_of_mem_way) hkey
  have hlength := congrArg List.length hway
  rw [hpath, List.length_append, List.length_singleton, List.length_take] at hlength
  omega

/-- What a save changes before the draft is moved keeps off the registry. -/
theorem keepsOff (d : Disk) (h : Path.fileName? path = some name) (document : String) :
    ∀ c ∈ ((Path.directory? path).map Disk.Change.makeDirectory).toList ++
      [.write (draftPath path) document], d.KeepsOff (d.key path) c := by
  refine List.forall_mem_append.mpr ⟨?_, List.forall_mem_singleton.mpr (key_draft_ne d h)⟩
  intro c hc
  obtain ⟨directory, hd, rfl⟩ := Option.map_eq_some_iff.mp (Option.mem_toList.mp hc)
  exact key_not_mem_lineage d h hd

/-- **A save that is broken off leaves the registry alone.** -/
theorem look_broken (h : Path.fileName? path = some name) {records : List RunRecord}
    (hb : d.Breaks (saving path records) d') : d'.look path = d.look path := by
  rw [saving, replacing, List.append_cons] at hb
  exact (hb.agreeAt (keepsOff d h _)).look_eq

/-- A save that could be made may be broken off at any byte of its draft. -/
theorem breaks_draft {records : List RunRecord} (h : d.applyAll (saving path records) = .ok d')
    (n : Nat) : ∃ d₁, d.Breaks (saving path records) d₁ ∧
      d₁.look (draftPath path) = .ofBytes ((write records).toUTF8.extract 0 n) := by
  rw [saving, replacing, Disk.applyAll_append] at h
  obtain ⟨d₁, hmake, hfiles⟩ := bind_eq_ok h
  obtain ⟨d₂, hwrite, -⟩ := bind_eq_ok hfiles
  obtain ⟨found, hw, -⟩ := bind_eq_ok hwrite
  refine ⟨_, Disk.Breaks.behind hmake (.here (.bytes n hw)), ?_⟩
  obtain ⟨he, -, hs, hdir⟩ := Disk.writable_iff.mp ⟨found, hw⟩
  rw [Disk.look_eq he hs]
  change (d₁.put (d₁.key (draftPath path)) _).entry (d₁.key (draftPath path)) = _
  rw [Disk.entry_put (Disk.ne_root hdir), if_pos rfl]

/-- What has become of a disk by saves of which each got through or was broken off, with the table
of the last one that got through. A save goes by the disk alone, so another process may go on where
one has ended. -/
inductive Saves (path : String) (d₀ : Disk) : Option (List RunRecord) → Disk → Prop
  /-- there was no save yet -/
  | start : Saves path d₀ none d₀
  /-- a save gets through -/
  | through {last : Option (List RunRecord)} {d d' : Disk} {records : List RunRecord}
      (h : Saves path d₀ last d) (hs : d.applyAll (saving path records) = .ok d') :
      Saves path d₀ (some records) d'
  /-- a save is broken off -/
  | broken {last : Option (List RunRecord)} {d d' : Disk} {records : List RunRecord}
      (h : Saves path d₀ last d) (hb : d.Breaks (saving path records) d') : Saves path d₀ last d'

/-- **A registry is always whole.** After any saves, each of them through or broken off anywhere,
the file at its path is the document of the last one that got through, or what it was at the start
if none did; and nothing else is ever read. -/
theorem Saves.whole (h : Saves path d₀ last d) (hname : (Path.fileName? path).isSome) :
    d.look path = last.elim (d₀.look path) (fun records => .text (write records)) ∧
      load path (d.look path) =
        last.elim (load path (d₀.look path)) (fun records => read path (write records)) ∧
      ∀ records ∈ last, (∀ r ∈ records, r.IsProper) → Readable records →
        load path (d.look path) = .ok (records.map rested) := by
  obtain ⟨name, hname⟩ := Option.isSome_iff_exists.mp hname
  have hlook : d.look path =
      last.elim (d₀.look path) (fun records => .text (write records)) := by
    induction h with
    | start => rfl
    | through _ hs _ => exact (Disk.replaced hs).1
    | broken _ hb ih => exact (look_broken hname hb).trans ih
  refine ⟨hlook, ?_, ?_⟩
  · rw [hlook]
    cases last <;> rfl
  · rintro records ⟨⟩ hproper hreadable
    rw [hlook]
    exact read_write path hproper hreadable

/-- The next save after that of a table is broken off two bytes into its draft: the draft is torn,
and the table is read as it was saved. -/
theorem sample_whole : ∃ d, Saves "data/runs.json" {} (some sample) d ∧
    d.look (draftPath "data/runs.json") = .text "\x7b\n" ∧
    d.look "data/runs.json" = .text (write sample) ∧
    load "data/runs.json" (d.look "data/runs.json") = .ok (sample.map rested) := by
  obtain ⟨d, hsaved⟩ := sample_saved
  obtain ⟨d₁, hagain⟩ := (Disk.replaced hsaved).2 (write [])
  obtain ⟨d₂, hbreaks, hdraft⟩ := breaks_draft hagain 2
  have htorn : Stored.ofBytes ((write []).toUTF8.extract 0 2) = .text "\x7b\n" := by
    decide +kernel
  have hsaves : Saves "data/runs.json" {} (some sample) d₂ :=
    (Saves.start.through hsaved).broken hbreaks
  obtain ⟨hlook, -, hload⟩ := hsaves.whole (by decide +kernel)
  exact ⟨d₂, hsaves, hdraft.trans htorn, hlook, hload sample rfl sample_proper (by decide +kernel)⟩

end Registry

end Workflow
