import Workflow.Json.Decode

/-!
# Canonical values

The canonical form of a value has sorted members at every depth, and is its own canonical form
(`isCanonical_canonical`). Conversely, an object whose members are sorted and canonical is canonical
(`isCanonical_obj`). A decoder of free-form fields answers the members of the canonical form
(`fields_anyValue`): under each name the value that was given last (`find?_canonicalMembers`).
-/

namespace Workflow.Json

/-- A value in canonical form. -/
def IsCanonical (v : Json) : Prop := v.canonical = v

/-! ## Members -/

theorem sorted_canonicalMembers (members : List (String × Json)) {acc : Fields Json}
    (h : acc.Sorted) : Fields.Sorted (canonicalMembers members acc) := by
  induction members generalizing acc with
  | nil => exact h
  | cons m members ih => exact ih (h.put _ _)

theorem mem_canonicalMembers {members : List (String × Json)} {acc : Fields Json}
    {f : String × Json} (h : f ∈ canonicalMembers members acc) :
    f ∈ acc ∨ ∃ m ∈ members, f = (m.1, m.2.canonical) := by
  induction members generalizing acc with
  | nil => exact Or.inl h
  | cons m members ih =>
    rcases ih h with hput | ⟨m', hm', hf⟩
    · exact (Fields.mem_put hput).symm.imp_right fun hf => ⟨m, List.mem_cons_self, hf⟩
    · exact Or.inr ⟨m', List.mem_cons_of_mem _ hm', hf⟩

/-- Of the values under a name the last one stays. -/
theorem find?_canonicalMembers (members : List (String × Json)) (acc : Fields Json)
    (name : String) :
    Fields.find? (canonicalMembers members acc) name =
      ((Fields.find? members.reverse name).map canonical).or (acc.find? name) := by
  induction members generalizing acc with
  | nil => rfl
  | cons m members ih =>
    obtain ⟨k, v⟩ := m
    rw [canonicalMembers, ih, List.reverse_cons, Fields.find?_append, Fields.find?_put,
      Fields.find?]
    cases Fields.find? members.reverse name with
    | some w => rfl
    | none =>
      split <;> rfl

/-- Sorted canonical members stay as they are. -/
theorem canonicalMembers_of_sorted {acc members : List (String × Json)}
    (hsorted : Fields.Sorted (acc ++ members)) (h : ∀ m ∈ members, m.2.IsCanonical) :
    canonicalMembers members acc = acc ++ members := by
  induction members generalizing acc with
  | nil => exact (List.append_nil acc).symm
  | cons m members ih =>
    obtain ⟨k, v⟩ := m
    obtain ⟨hv, hrest⟩ := List.forall_mem_cons.mp h
    have hlt : ∀ other ∈ Fields.names acc, other < k := by
      rw [Fields.Sorted, Fields.names, List.map_append, List.pairwise_append] at hsorted
      exact fun other ho => hsorted.2.2 other ho k List.mem_cons_self
    have hsnoc : acc ++ (k, v) :: members = (acc ++ [(k, v)]) ++ members := by
      rw [List.append_assoc, List.singleton_append]
    rw [hsnoc] at hsorted ⊢
    rw [canonicalMembers, hv, Fields.put_eq_append hlt, ih hsorted hrest]

theorem isCanonical_obj {members : List (String × Json)} (hsorted : Fields.Sorted members)
    (h : ∀ m ∈ members, m.2.IsCanonical) : (obj members).IsCanonical :=
  congrArg obj (canonicalMembers_of_sorted hsorted h)

theorem canonicalItems_eq (items : List Json) : canonicalItems items = items.map canonical := by
  induction items with
  | nil => rfl
  | cons v items ih => rw [canonicalItems, ih, List.map_cons]

theorem canonical_map {α : Type} (f : α → Json) (xs : List α) :
    (arr (xs.map f)).canonical = arr (xs.map fun x => (f x).canonical) := by
  rw [canonical, canonicalItems_eq, List.map_map]
  rfl

theorem canonical_orNull {α : Type} (f : α → Json) (part : Option α) :
    (orNull f part).canonical = orNull (fun x => (f x).canonical) part := by
  cases part <;> rfl

theorem isCanonical_arr {items : List Json} (h : ∀ v ∈ items, v.IsCanonical) :
    (arr items).IsCanonical := by
  rw [IsCanonical, canonical, canonicalItems_eq, List.map_congr_left h, List.map_id']

/-! ## Values -/

mutual

/-- **A canonical form** is its own canonical form. -/
theorem isCanonical_canonical : (v : Json) → v.canonical.IsCanonical
  | .arr items => congrArg arr (canonicalItems_canonicalItems items)
  | .obj members => by
    refine isCanonical_obj (sorted_canonicalMembers members List.Pairwise.nil) fun f hf => ?_
    rcases mem_canonicalMembers hf with hnil | ⟨m, hm, rfl⟩
    · cases hnil
    · exact isCanonical_canonical_member members m hm
  | .null | .bool _ | .num _ | .str _ => rfl

theorem canonicalItems_canonicalItems :
    (items : List Json) → canonicalItems (canonicalItems items) = canonicalItems items
  | [] => rfl
  | v :: rest => by
    rw [canonicalItems, canonicalItems, isCanonical_canonical v, canonicalItems_canonicalItems rest]

theorem isCanonical_canonical_member : (members : List (String × Json)) →
    ∀ m ∈ members, m.2.canonical.IsCanonical
  | (_, v) :: rest, m, hm => by
    rcases List.mem_cons.mp hm with rfl | hm
    · exact isCanonical_canonical v
    · exact isCanonical_canonical_member rest m hm

end

/-! ## Free-form parts -/

/-- A list of canonical values is decoded as it is. -/
theorem list_anyValue {items : List Json} (h : ∀ v ∈ items, v.IsCanonical) :
    list anyValue (arr items) = .ok items := by
  change decodeItems anyValue 0 items = .ok items
  generalize 0 = index
  induction items generalizing index with
  | nil => rfl
  | cons v items ih =>
    obtain ⟨hv, hitems⟩ := List.forall_mem_cons.mp h
    have hunder : under index anyValue v = .ok v := by
      rw [under, anyValue, hv]
    rw [decodeItems, hunder, ih hitems]
    rfl

/-- **Free-form fields** are decoded as the members of the canonical form. -/
theorem fields_anyValue (members : List (String × Json)) :
    fields anyValue (obj members) = .ok (canonicalMembers members []) := by
  change decodeMembers anyValue 0 members [] = .ok (canonicalMembers members [])
  generalize 0 = index
  generalize ([] : Fields Json) = acc
  induction members generalizing index acc with
  | nil => rfl
  | cons m members ih => exact ih (index + 1) _

/-- Canonical fields are decoded as they are. -/
theorem fields_canonical {members : List (String × Json)} (h : (obj members).IsCanonical) :
    fields anyValue (obj members) = .ok members := by
  have hmembers : canonicalMembers members [] = members := Json.obj.inj h
  rw [fields_anyValue, hmembers]

theorem isCanonical_of_fields {v : Json} {fs : Fields Json} (h : fields anyValue v = .ok fs) :
    (obj fs).IsCanonical := by
  cases v with
  | obj members =>
    rw [fields_anyValue] at h
    cases h
    exact isCanonical_canonical (obj members)
  | _ => cases h

end Workflow.Json
