import Workflow.Proofs.Json.Canonical
import Workflow.Proofs.Json.RoundTrip

/-!
# Decoding what was written

A written value is decoded as what is read of it is, provided it does not nest too deep for the
reader (`decodeText_written`); too deep, it is refused by every decoder (`decodeText_refused`).

The rest is about decoders of parts: each lemma says what comes of a whole whose parts are decoded.
-/

namespace Workflow.Json

/-! ## What is read of a container -/

theorem rereadItems_eq (items : List Json) : rereadItems items = items.map reread := by
  induction items with
  | nil => rfl
  | cons v rest ih => rw [rereadItems, ih, List.map_cons]

theorem rereadMembers_append (ms ns : List (String × Json)) :
    rereadMembers (ms ++ ns) = rereadMembers ms ++ rereadMembers ns := by
  induction ms with
  | nil => rfl
  | cons m rest ih =>
    obtain ⟨name, v⟩ := m
    rw [List.cons_append, rereadMembers, ih, rereadMembers, List.cons_append]

theorem depthMembers_append (ms ns : List (String × Json)) :
    depthMembers (ms ++ ns) = max (depthMembers ms) (depthMembers ns) := by
  induction ms with
  | nil => exact (Nat.zero_max _).symm
  | cons m rest ih =>
    obtain ⟨name, v⟩ := m
    rw [List.cons_append, depthMembers, ih, depthMembers, Nat.max_assoc]

theorem depthItems_le {items : List Json} {n : Nat} :
    depthItems items ≤ n ↔ ∀ v ∈ items, v.depth ≤ n := by
  induction items with
  | nil => simp [depthItems]
  | cons v rest ih => rw [depthItems, Nat.max_le, ih, List.forall_mem_cons]

/-! ## Texts -/

section Texts

variable {α : Type} {d : Decoder α} {v : Json}

/-- **A written value is decoded as what is read of it.** -/
theorem decodeText_written {a : α} (hv : v.depth ≤ depthLimit) (h : d v.reread = .ok a) :
    decodeText d (v.writeIndented 0) = .ok a := by
  have hread := readValue_indented v
  rw [if_pos hv] at hread
  cases hr : readValue (fuelFor (v.writeIndented 0)) depthLimit (v.writeIndented 0) with
  | error fault =>
    rw [hr] at hread
    cases hread
  | ok p =>
    rw [hr] at hread
    cases hread
    rw [decodeText, hr]
    dsimp only
    rw [h]
    rfl

/-- **A value that nests too deep is refused**, whatever is wanted of it. -/
theorem decodeText_refused (hv : depthLimit < v.depth) :
    ∃ e, decodeText d (v.writeIndented 0) = .error e := by
  have hread := readValue_indented v
  rw [if_neg (Nat.not_le_of_lt hv)] at hread
  cases hr : readValue (fuelFor (v.writeIndented 0)) depthLimit (v.writeIndented 0) with
  | ok p =>
    rw [hr] at hread
    cases hread
  | error fault =>
    rw [decodeText, hr]
    dsimp only
    cases d (salvage (fuelFor (v.writeIndented 0)) (v.writeIndented 0)).1 with
    | ok a => exact ⟨_, rfl⟩
    | error e => exact ⟨_, rfl⟩

end Texts

/-! ## Parts -/

section Parts

variable {α β δ : Type} {d : Decoder α} {v : Json} {a : α}

theorem under_ok (h : d v = .ok a) (index : Nat) : under index d v = .ok a := by
  rw [under, h]

/-- The slot of a field that was not met before. -/
theorem fill_ok (h : d v = .ok a) (field : String) (index : Nat) :
    fill none field index d v = .ok (some a) := by
  rw [fill, under_ok h]
  rfl

theorem optional_ok (h : d v = .ok a) (hv : v ≠ .null) : optional d v = .ok (some a) := by
  cases v with
  | null => exact absurd rfl hv
  | _ => exact congrArg (Except.map some) h

/-- A part that may be missing comes back if it does when it is there. -/
theorem optional_orNull {f : α → Json} {part : Option α}
    (h : ∀ a ∈ part, d (f a) = .ok a ∧ f a ≠ .null) : optional d (orNull f part) = .ok part := by
  cases part with
  | none => rfl
  | some a =>
    obtain ⟨hd, hne⟩ := h a rfl
    exact optional_ok hd hne

/-- A text that may be missing is decoded as it was. -/
theorem optional_text (s : Option String) : optional text (orNull .str s).reread = .ok s := by
  cases s <;> rfl

/-- A list is decoded if each of its items is; `p` is what is known of the items decoded. -/
theorem list_ok {γ : Type} {f : β → Json} {p : α → γ} {q : β → γ} (xs : List β)
    (h : ∀ x ∈ xs, ∃ a, d (f x).reread = .ok a ∧ p a = q x) :
    ∃ as, list d (Json.arr (xs.map f)).reread = .ok as ∧ as.map p = xs.map q := by
  rw [reread, rereadItems_eq, List.map_map]
  change ∃ as, decodeItems d 0 (xs.map (reread ∘ f)) = .ok as ∧ _
  generalize 0 = index
  induction xs generalizing index with
  | nil => exact ⟨[], rfl, rfl⟩
  | cons x xs ih =>
    obtain ⟨a, ha, hp⟩ := h x (List.mem_cons_self ..)
    obtain ⟨as, has, hps⟩ := ih (fun y hy => h y (List.mem_cons_of_mem _ hy)) (index + 1)
    refine ⟨a :: as, ?_, by rw [List.map_cons, List.map_cons, hp, hps]⟩
    rw [List.map_cons, decodeItems, Function.comp_apply, under_ok ha, has]
    rfl

/-- A list comes back if each of its items does. -/
theorem list_map_ok {d : Decoder β} {f : β → Json} {xs : List β} (h : ∀ x ∈ xs, d (f x) = .ok x) :
    list d (arr (xs.map f)) = .ok xs := by
  change decodeItems d 0 (xs.map f) = .ok xs
  generalize 0 = index
  induction xs generalizing index with
  | nil => rfl
  | cons x xs ih =>
    obtain ⟨hx, hxs⟩ := List.forall_mem_cons.mp h
    rw [List.map_cons, decodeItems, under_ok hx, ih hxs]
    rfl

/-- Free-form members are always decoded. -/
theorem fields_ok (members : List (String × Json)) :
    ∃ fs, fields anyValue (Json.obj members).reread = .ok fs :=
  ⟨_, fields_anyValue (rereadMembers members)⟩

variable {step : δ → Nat → String → Json → Except DecodeError δ} {acc acc' : δ} {index : Nat}

theorem foldMembers_cons {name : String} {members : List (String × Json)}
    (h : step acc index name v = .ok acc') :
    foldMembers step index ((name, v) :: members) acc =
      foldMembers step (index + 1) members acc' := by
  rw [foldMembers, h]
  rfl

theorem foldMembers_append {ms : List (String × Json)}
    (h : foldMembers step index ms acc = .ok acc') (ns : List (String × Json)) :
    foldMembers step index (ms ++ ns) acc = foldMembers step (index + ms.length) ns acc' := by
  induction ms generalizing index acc with
  | nil =>
    cases h
    rfl
  | cons m ms ih =>
    obtain ⟨name, v⟩ := m
    rw [foldMembers] at h
    cases hstep : step acc index name v with
    | error e =>
      rw [hstep] at h
      cases h
    | ok next =>
      rw [hstep] at h
      have hlen : index + ((name, v) :: ms).length = index + 1 + ms.length := by
        rw [List.length_cons]
        omega
      rw [List.cons_append, foldMembers_cons hstep, hlen]
      exact ih h

end Parts

/-! ## Where parts come from -/

section Origins

variable {α δ : Type} {d : Decoder α} {v : Json} {a : α}

theorem under_eq_ok {index : Nat} (h : under index d v = .ok a) : d v = .ok a := by
  rw [under] at h
  cases hd : d v with
  | error e =>
    rw [hd] at h
    cases h
  | ok b =>
    rw [hd] at h
    cases h
    rfl

/-- A slot is filled with what was decoded. -/
theorem fill_eq_ok {slot slot' : Option α} {field : String} {index : Nat}
    (h : fill slot field index d v = .ok slot') : ∃ a, slot' = some a ∧ d v = .ok a := by
  rw [fill.eq_def] at h
  split at h
  · cases h
  · cases hu : under index d v with
    | error e =>
      rw [hu] at h
      cases h
    | ok a =>
      rw [hu] at h
      cases h
      exact ⟨a, rfl, under_eq_ok hu⟩

/-- A part that is there was decoded. -/
theorem optional_eq_some (h : optional d v = .ok (some a)) : d v = .ok a := by
  cases v with
  | null => cases h
  | _ =>
    obtain ⟨b, hb, heq⟩ := bind_eq_ok h
    cases heq
    exact hb

theorem require_eq_ok {slot : Option α} {field : String} (h : require slot field = .ok a) :
    slot = some a := by
  cases slot with
  | none => cases h
  | some b =>
    cases h
    rfl

theorem item_eq_ok {items : List Json} {index : Nat} {expected : String}
    (h : item items index expected d = .ok a) : ∃ v, d v = .ok a := by
  rw [item] at h
  split at h
  · exact ⟨_, under_eq_ok h⟩
  · cases h

theorem itemOr_eq_ok {items : List Json} {index : Nat} {default : α}
    (h : itemOr items index default d = .ok a) : a = default ∨ ∃ v, d v = .ok a := by
  rw [itemOr] at h
  split at h
  · exact Or.inr ⟨_, under_eq_ok h⟩
  · cases h
    exact Or.inl rfl

/-- A named value is one of those known. -/
theorem variant_eq_ok {known : List (String × α)} (h : variant known v = .ok a) :
    ∃ name, (name, a) ∈ known := by
  unfold variant at h
  split at h
  · dsimp only at h
    split at h
    · next hfind =>
      cases h
      exact ⟨_, Fields.mem_of_find? hfind⟩
    · cases h
  · obtain ⟨b, hb, hrest⟩ := bind_eq_ok h
    obtain ⟨_, -, heq⟩ := bind_eq_ok hrest
    cases heq
    dsimp only at hb
    split at hb
    · next hfind =>
      cases hb
      exact ⟨_, Fields.mem_of_find? hfind⟩
    · cases hb
  · cases h
  · cases h

/-- Each item of a list was decoded. -/
theorem list_eq_ok {as : List α} (h : list d v = .ok as) : ∀ a ∈ as, ∃ v, d v = .ok a := by
  cases v with
  | arr items =>
    change decodeItems d 0 items = .ok as at h
    generalize 0 = index at h
    induction items generalizing index as with
    | nil =>
      cases h
      exact List.forall_mem_nil _
    | cons v items ih =>
      obtain ⟨a, ha, hrest⟩ := bind_eq_ok h
      obtain ⟨as', has, hsame⟩ := bind_eq_ok hrest
      cases hsame
      exact List.forall_mem_cons.mpr ⟨⟨v, under_eq_ok ha⟩, ih _ has⟩
  | _ => cases h

/-- What every member keeps is kept by all. -/
theorem foldMembers_keeps {step : δ → Nat → String → Json → Except DecodeError δ} {P : δ → Prop}
    (hstep : ∀ {acc index name v acc'}, P acc → step acc index name v = .ok acc' → P acc')
    {members : List (String × Json)} {index : Nat} {acc acc' : δ} (hacc : P acc)
    (h : foldMembers step index members acc = .ok acc') : P acc' := by
  induction members generalizing index acc with
  | nil =>
    cases h
    exact hacc
  | cons m members ih =>
    obtain ⟨name, v⟩ := m
    obtain ⟨next, hnext, hrest⟩ := bind_eq_ok h
    exact ih (hstep hacc hnext) hrest

/-- What is decoded of a text is decoded of a value. -/
theorem decodeText_eq_ok {text : List Char} (h : decodeText d text = .ok a) :
    ∃ v, d v = .ok a := by
  rw [decodeText] at h
  split at h
  · split at h
    · cases h
    · next hd =>
      split at h
      · cases h
        exact ⟨_, hd⟩
      · cases h
  · dsimp only at h
    split at h <;> cases h

end Origins

end Workflow.Json
