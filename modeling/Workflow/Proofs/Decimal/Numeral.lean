import Workflow.Decimal.Reading
import Workflow.Decimal.Shortest

/-!
# Numerals read back

The digits of a number are digits, there are as many as it takes, and the number that they write
is that number. A reader that takes digits off the front of a text takes all of them, provided
that no further digit follows.
-/

namespace Workflow.Decimal

theorem isDigit_of_char {c : Char} (h : c.isDigit = true) : isDigit c = true := by
  simpa [isDigit, Char.isDigit, Char.le_def] using h

/-- The number that digits write lies above the one they continue. -/
theorem le_foldDigits (n : Nat) (ds : List Char) : n ≤ foldDigits n ds := by
  induction ds generalizing n with
  | nil => exact Nat.le_refl n
  | cons d ds ih =>
    calc n ≤ n * 10 + (d.toNat - '0'.toNat) := by omega
      _ ≤ foldDigits n (d :: ds) := ih _

theorem foldDigits_eq (n : Nat) (ds : List Char) : foldDigits n ds = Nat.ofDigitChars 10 ds n := by
  rw [foldDigits, Nat.ofDigitChars_eq_foldl]
  congr
  funext m c
  rw [Nat.mul_comm]

/-- Digits write a number with as many digits at most. -/
theorem foldDigits_lt {n : Nat} {ds : List Char} (h : ∀ c ∈ ds, isDigit c = true) :
    foldDigits n ds < (n + 1) * 10 ^ ds.length := by
  induction ds generalizing n with
  | nil => simp [foldDigits]
  | cons d ds ih =>
    have hd : d.toNat - '0'.toNat < 10 := by
      have hdigit := h d (List.mem_cons_self ..)
      simp only [isDigit, Bool.and_eq_true, decide_eq_true_eq] at hdigit
      have hle : d.toNat ≤ '9'.toNat := hdigit.2
      change d.toNat ≤ 57 at hle
      change d.toNat - 48 < 10
      omega
    calc foldDigits n (d :: ds) = foldDigits (n * 10 + (d.toNat - '0'.toNat)) ds := rfl
      _ < (n * 10 + (d.toNat - '0'.toNat) + 1) * 10 ^ ds.length :=
          ih fun c hc => h c (List.mem_cons_of_mem _ hc)
      _ ≤ ((n + 1) * 10) * 10 ^ ds.length := Nat.mul_le_mul_right _ (by omega)
      _ = (n + 1) * 10 ^ (d :: ds).length := by
          rw [List.length_cons, Nat.pow_succ, Nat.mul_assoc, Nat.mul_comm 10]

/-! ## The numeral of a number -/

theorem isDigit_numeralText (n : Nat) : ∀ c ∈ numeralText n, isDigit c = true := fun _ hc =>
  isDigit_of_char (Nat.isDigit_of_mem_toDigits (by decide) (by decide) hc)

theorem numeralText_ne_nil (n : Nat) : numeralText n ≠ [] := Nat.toDigits_ne_nil

theorem foldDigits_numeralText (n : Nat) : foldDigits 0 (numeralText n) = n := by
  rw [foldDigits_eq]
  exact Nat.ofDigitChars_ten_toDigits

theorem length_numeralText_le {n k : Nat} (hk : 0 < k) (h : n < 10 ^ k) :
    (numeralText n).length ≤ k :=
  (Nat.length_toDigits_le_iff (by decide) hk).mpr h

/-- Only zero begins with a zero. -/
theorem head_numeralText {n : Nat} (hn : n ≠ 0) : (numeralText n).head? ≠ some '0' := by
  induction n using Nat.strongRecOn with
  | ind n ih =>
    rw [numeralText]
    rcases Nat.lt_or_ge n 10 with hsmall | hlarge
    · have hdigit : ∀ d < 10, d ≠ 0 → d.digitChar ≠ '0' := by decide
      rw [Nat.toDigits_of_lt_base hsmall, List.head?_cons]
      exact fun h => hdigit n hsmall hn (Option.some.inj h)
    · have hfront := ih (n / 10) (by omega) (by omega)
      obtain ⟨c, cs, hcs⟩ := List.exists_cons_of_ne_nil (numeralText_ne_nil (n / 10))
      rw [hcs] at hfront
      rw [numeralText] at hcs
      rw [Nat.toDigits_of_base_le (by decide) hlarge, hcs]
      exact hfront

/-! ## Taking digits off a text -/

section Taking

variable {ds rest : List Char}

theorem takeWhile_digits (hd : ∀ c ∈ ds, isDigit c = true)
    (hr : ∀ c ∈ rest.head?, isDigit c = false) : (ds ++ rest).takeWhile isDigit = ds := by
  rw [List.takeWhile_append_of_pos hd]
  cases rest with
  | nil => simp
  | cons c rest => rw [List.takeWhile_cons_of_neg (by simp [hr c rfl]), List.append_nil]

theorem dropWhile_digits (hd : ∀ c ∈ ds, isDigit c = true)
    (hr : ∀ c ∈ rest.head?, isDigit c = false) : (ds ++ rest).dropWhile isDigit = rest := by
  rw [List.dropWhile_append_of_pos hd]
  cases rest with
  | nil => rfl
  | cons c rest => rw [List.dropWhile_cons_of_neg (by simp [hr c rfl])]

end Taking

end Workflow.Decimal
