import Mathlib.Data.List.Lex

/-!
# The order of texts

Texts are ordered by their characters, and fields are sorted that way. The bytes of texts are in the
same order (`bytes_le_bytes`): where two texts part, the greater character has the greater encoding,
which is a matter of the first byte if one of the encodings is longer and of the digits to base 64
if not.
-/

namespace Workflow.Text

/-- The bytes of a text. -/
def bytes (s : String) : List UInt8 := s.toByteArray.data.toList

theorem bytes_eq (s : String) : bytes s = s.toList.flatMap String.utf8EncodeChar := by
  rw [bytes, ← String.utf8Encode_toList, List.utf8Encode, List.toList_data_toByteArray]

/-! ## Encodings -/

section Encodings

variable {p q : Nat} {xs ys : List UInt8}

theorem byte_lt (hq : q < 256) (h : p < q ∨ p = q ∧ xs < ys) :
    UInt8.ofNat p :: xs < UInt8.ofNat q :: ys := by
  rw [List.cons_lt_cons_iff, UInt8.lt_iff_toNat_lt]
  rcases h with h | ⟨rfl, h⟩
  · rw [UInt8.toNat_ofNat_of_lt' (h.trans hq), UInt8.toNat_ofNat_of_lt' hq]
    exact Or.inl h
  · exact Or.inr ⟨rfl, h⟩

/-- The digits before the last one decide; if they are equal, the last one does. -/
theorem digit_lt (h : p < q ∨ p = q ∧ xs < ys) :
    p / 64 < q / 64 ∨
      p / 64 = q / 64 ∧ UInt8.ofNat (p % 64 + 128) :: xs < UInt8.ofNat (q % 64 + 128) :: ys := by
  rcases h with h | ⟨rfl, h⟩
  · rcases Nat.lt_or_eq_of_le (Nat.div_le_div_right (c := 64) h.le) with hlt | heq
    · exact Or.inl hlt
    · exact Or.inr ⟨heq, byte_lt (by omega) (Or.inl (by omega))⟩
  · exact Or.inr ⟨rfl, byte_lt (by omega) (Or.inr ⟨rfl, h⟩)⟩

end Encodings

/-- Of two characters the greater one has the greater encoding, whatever follows. -/
theorem utf8EncodeChar_append_lt {c d : Char} (h : c < d) (xs ys : List UInt8) :
    String.utf8EncodeChar c ++ xs < String.utf8EncodeChar d ++ ys := by
  have hmn : c.val.toNat < d.val.toNat := UInt32.lt_iff_toNat_lt.mp (Char.lt_def.mp h)
  have hn : d.val.toNat < 1114112 := by
    have hvalid := d.valid
    simp only [UInt32.isValidChar, Nat.isValidChar] at hvalid
    omega
  simp only [String.utf8EncodeChar]
  generalize c.val.toNat = m at hmn
  generalize d.val.toNat = n at hmn hn
  -- the digits of both, should their encodings be as long
  have htwo := @digit_lt m n xs ys (Or.inl hmn)
  have hthree := digit_lt htwo
  have hfour := digit_lt hthree
  simp only [Nat.div_div_eq_div_mul] at htwo hthree hfour
  split_ifs <;> refine byte_lt (by omega) ?_ <;> first | exact Or.inl (by omega) | skip
  · exact htwo.imp (by omega) (And.imp_left (by omega))
  · exact hthree.imp (by omega) (And.imp_left (by omega))
  · exact hfour.imp (by omega) (And.imp_left (by omega))

/-! ## Texts -/

theorem flatMap_utf8EncodeChar_lt {cs ds : List Char} (h : cs < ds) :
    cs.flatMap String.utf8EncodeChar < ds.flatMap String.utf8EncodeChar := by
  induction h with
  | @nil d ds =>
    obtain ⟨byte, rest, hd⟩ := List.exists_cons_of_ne_nil (String.utf8EncodeChar_ne_nil (c := d))
    rw [List.flatMap_nil, List.flatMap_cons, hd]
    exact List.nil_lt_cons _ _
  | rel hcd => exact utf8EncodeChar_append_lt hcd _ _
  | cons _ ih => exact List.append_left_lt ih

theorem bytes_lt_bytes {s t : String} (h : s < t) : bytes s < bytes t := by
  rw [bytes_eq, bytes_eq]
  exact flatMap_utf8EncodeChar_lt (String.lt_iff.mp h)

/-- **The order of texts** is that of their bytes. -/
theorem bytes_le_bytes {s t : String} : bytes s ≤ bytes t ↔ s ≤ t := by
  constructor
  · intro h
    exact String.not_lt.mp fun hlt => List.not_lt.mpr h (bytes_lt_bytes hlt)
  · intro h
    by_cases hlt : s < t
    · exact List.not_lt.mp (List.lt_asymm (bytes_lt_bytes hlt))
    · rw [String.le_antisymm h (String.not_lt.mp hlt)]
      exact List.le_refl _

end Workflow.Text
