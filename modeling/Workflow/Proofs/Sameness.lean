import Workflow.Definition

/-!
# Sameness of definitions

Definitions are compared value by value, and floats by their own equality: `0.0` and `-0.0` are the
same although they are written differently. Sameness is transitive all the same, from floats
(`beq_trans`) to values, to nodes and to definitions (`Definition.same_trans`). So a definition
stays alike (`Definition.Alike`) however often it is replaced by one that is the same.
-/

namespace Workflow

/-! ## Numbers -/

open Float.Model in
/-- Floats that compare equal are one and the same, or both zero. -/
theorem compare_eq_cases {a b : UnpackedFloat} (h : a.compare b = some .eq) :
    a = b ∨ (∃ s, a = .zero s) ∧ ∃ s, b = .zero s := by
  cases a with
  | notANumber => cases h
  | infinity s =>
    cases b with
    | infinity s' => cases s <;> cases s' <;> first | exact Or.inl rfl | cases h
    | _ => cases s <;> cases h
  | zero s =>
    cases b with
    | zero s' => exact Or.inr ⟨⟨s, rfl⟩, s', rfl⟩
    | infinity s' | finite s' => cases s' <;> cases h
    | notANumber => cases h
  | finite s m e hm =>
    cases b with
    | finite s' m' e' hm' =>
      have hsame : s = s' ∧ compare e e' = .eq ∧ compare m m' = .eq := by
        cases s with
        | positive =>
          cases s' with
          | positive =>
            have heq := Option.some.inj h
            rw [Ordering.then_eq_eq] at heq
            exact ⟨rfl, heq⟩
          | negative => cases h
        | negative =>
          cases s' with
          | positive => cases h
          | negative =>
            have heq := Option.some.inj h
            rw [Ordering.swap_eq_eq, Ordering.then_eq_eq] at heq
            exact ⟨rfl, heq⟩
      obtain ⟨rfl, he, hm⟩ := hsame
      obtain rfl := Std.compare_eq_iff_eq.mp he
      obtain rfl := Std.compare_eq_iff_eq.mp hm
      exact Or.inl rfl
    | infinity s' => cases s <;> cases s' <;> cases h
    | zero => cases s <;> cases h
    | notANumber => cases s <;> cases h

theorem compare_of_beq {x y : Float} (h : (x == y) = true) :
    x.toModel.unpack.compare y.toModel.unpack = some .eq := by
  change (x.toModel.unpack.compare y.toModel.unpack == some .eq) = true at h
  exact beq_iff_eq.mp h

/-- Equality of floats is transitive. -/
theorem beq_trans {x y z : Float} (h₁ : (x == y) = true) (h₂ : (y == z) = true) :
    (x == z) = true := by
  change (x.toModel.unpack.compare z.toModel.unpack == some .eq) = true
  have hxy := compare_of_beq h₁
  have hyz := compare_of_beq h₂
  refine beq_iff_eq.mpr ?_
  rcases compare_eq_cases hxy with heq | ⟨⟨s, hx⟩, -⟩
  · rw [heq]
    exact hyz
  · rcases compare_eq_cases hyz with heq | ⟨-, s', hz⟩
    · rw [← heq]
      exact hxy
    · rw [hx, hz]
      rfl

theorem Number.same_trans : ∀ {a b c : Number}, a.same b = true → b.same c = true → a.same c = true
  | .int _, .int _, .int _, h₁, h₂ => by
    simp only [Number.same, decide_eq_true_eq] at *
    exact h₁.trans h₂
  | .float _, .float _, .float _, h₁, h₂ => beq_trans h₁ h₂

/-! ## Values -/

namespace Json

mutual

theorem same_trans : ∀ {a b c : Json}, same a b = true → same b c = true → same a c = true
  | .null, .null, .null, _, _ => rfl
  | .bool _, .bool _, .bool _, h₁, h₂ | .str _, .str _, .str _, h₁, h₂ => by
    simp only [same, decide_eq_true_eq] at *
    exact h₁.trans h₂
  | .num _, .num _, .num _, h₁, h₂ => Number.same_trans h₁ h₂
  | .arr _, .arr _, .arr _, h₁, h₂ => sameItems_trans h₁ h₂
  | .obj _, .obj _, .obj _, h₁, h₂ => sameMembers_trans h₁ h₂

theorem sameItems_trans : ∀ {as bs cs : List Json}, sameItems as bs = true →
    sameItems bs cs = true → sameItems as cs = true
  | [], [], [], _, _ => rfl
  | a :: as, b :: bs, c :: cs, h₁, h₂ => by
    simp only [sameItems, Bool.and_eq_true] at *
    exact ⟨same_trans h₁.1 h₂.1, sameItems_trans h₁.2 h₂.2⟩

theorem sameMembers_trans : ∀ {as bs cs : List (String × Json)}, sameMembers as bs = true →
    sameMembers bs cs = true → sameMembers as cs = true
  | [], [], [], _, _ => rfl
  | (_, _) :: as, (_, _) :: bs, (_, _) :: cs, h₁, h₂ => by
    simp only [sameMembers, Bool.and_eq_true, decide_eq_true_eq] at *
    exact ⟨⟨h₁.1.1.trans h₂.1.1, same_trans h₁.1.2 h₂.1.2⟩, sameMembers_trans h₁.2 h₂.2⟩

end

end Json

/-! ## Definitions -/

theorem Node.same_trans {a b c : Node} (h₁ : a.same b = true) (h₂ : b.same c = true) :
    a.same c = true := by
  simp only [Node.same, Bool.and_eq_true, decide_eq_true_eq] at *
  obtain ⟨⟨⟨hid, hscript⟩, hconfig⟩, hmetadata⟩ := h₁
  obtain ⟨⟨⟨hid', hscript'⟩, hconfig'⟩, hmetadata'⟩ := h₂
  exact ⟨⟨⟨hid.trans hid', hscript.trans hscript'⟩, Json.sameMembers_trans hconfig hconfig'⟩,
    Json.sameMembers_trans hmetadata hmetadata'⟩

/-- Lists of nodes that are the same, place by place. -/
theorem zip_same_trans {as bs cs : List Node} (hlength : as.length = bs.length)
    (h₁ : (as.zip bs).all (fun (x, y) => x.same y) = true) (hlength' : bs.length = cs.length)
    (h₂ : (bs.zip cs).all (fun (x, y) => x.same y) = true) :
    (as.zip cs).all (fun (x, y) => x.same y) = true := by
  induction as generalizing bs cs with
  | nil => rfl
  | cons a as ih =>
    match bs, cs, hlength, hlength' with
    | b :: bs, c :: cs, hlength, hlength' =>
      simp only [List.zip_cons_cons, List.all_cons, Bool.and_eq_true] at *
      exact ⟨Node.same_trans h₁.1 h₂.1, ih (Nat.succ.inj hlength) h₁.2 (Nat.succ.inj hlength') h₂.2⟩

namespace Definition

/-- **Sameness is transitive.** -/
theorem same_trans {a b c : Definition} (h₁ : a.same b = true) (h₂ : b.same c = true) :
    a.same c = true := by
  simp only [same, Bool.and_eq_true, decide_eq_true_eq] at *
  obtain ⟨⟨hlength, hnodes⟩, hedges⟩ := h₁
  obtain ⟨⟨hlength', hnodes'⟩, hedges'⟩ := h₂
  exact ⟨⟨hlength.trans hlength', zip_same_trans hlength hnodes hlength' hnodes'⟩,
    hedges.trans hedges'⟩

/-- A definition and one that it was replaced by are equal, or the same value by value. -/
def Alike (a b : Definition) : Prop := a = b ∨ a.same b = true

theorem Alike.refl (a : Definition) : a.Alike a := Or.inl rfl

theorem Alike.trans {a b c : Definition} (h₁ : a.Alike b) (h₂ : b.Alike c) : a.Alike c := by
  rcases h₁ with rfl | h₁
  · exact h₂
  · rcases h₂ with rfl | h₂
    · exact Or.inr h₁
    · exact Or.inr (same_trans h₁ h₂)

end Definition

end Workflow
