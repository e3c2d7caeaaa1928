import Mathlib.Tactic.Ring
import Workflow.Decimal.Shortest
import Workflow.Proofs.Decimal.Product

/-!
# The shortest decimal can be read back

Whatever finite float is written in its shortest form, its digits are within the reach of the
reader (`shortest_readable`): the numeral fits into 64 bits, and scaling it stays finite. The
latter is plain as long as the decimal is at most `10^308`. Above that only floats of the largest
exponent are left: there the grid of seventeen digits always has a point in the rounding interval,
so no finer one is tried, and every point of the coarser ones keeps clear of the edge
(`Binary.Huge.bounded`). What comes close to the edge are three numerals of seventeen digits, which
are multiplied out.
-/

namespace Workflow.Decimal

/-! ## Finite magnitudes -/

/-- A magnitude that a finite float can have, other than zero. -/
structure Binary.Proper (b : Binary) : Prop where
  /-- it is not zero -/
  pos : 0 < b.mant
  /-- the significand has 53 bits -/
  small : b.mant < 2 ^ 53
  /-- the exponent is not too small -/
  low : -1074 ≤ b.exp
  /-- the exponent is not too large -/
  high : b.exp ≤ 971
  /-- the spacing changes at powers of two only -/
  half : b.halfBelow = true → b.mant = 2 ^ 52

theorem Binary.ofFloat_proper {x : Float} (hx : x.isFinite = true) (h : (ofFloat x).mant ≠ 0) :
    (ofFloat x).Proper := by
  have hfield : x.toBits.toNat % 2 ^ 63 / 2 ^ 52 < 2047 := by
    by_contra hlarge
    have hexp : @Float.Model.UnpackedFloat.unpackExponent .binary64
        x.toModel.toBits.toBitVec = -1#11 := by
      apply BitVec.eq_of_toNat_eq
      change (x.toBits.toNat >>> 52) % 2 ^ 11 = 2047
      rw [Nat.shiftRight_eq_div_pow]
      omega
    have hfinite : (Float.Model.UnpackedFloat.unpack .binary64
        x.toModel.toBits.toBitVec).isFinite = true := hx
    unfold Float.Model.UnpackedFloat.unpack at hfinite
    rw [if_pos hexp] at hfinite
    split at hfinite <;> cases hfinite
  rw [ofFloat] at h ⊢
  generalize x.toBits.toNat % 2 ^ 63 = bits at h hfield ⊢
  have hfrac : bits % 2 ^ 52 < 2 ^ 52 := Nat.mod_lt _ (by decide)
  by_cases hzero : bits / 2 ^ 52 = 0
  · simp only [hzero, if_pos] at h ⊢
    refine ⟨Nat.pos_of_ne_zero h, ?_, ?_, ?_, nofun⟩
    all_goals dsimp only
    all_goals omega
  · simp only [hzero, if_false] at h ⊢
    refine ⟨Nat.pos_of_ne_zero h, ?_, ?_, ?_, ?_⟩
    all_goals
      simp only [Int.ofNat_eq_natCast, Bool.and_eq_true, decide_eq_true_eq]
      omega

/-! ## The leading exponent -/

/-- The exponent of the leading digit of a quotient of at least one. -/
theorem leadingExponent_whole {num den : Nat} (hd : 0 < den) (h : den ≤ num) :
    ∃ t : Nat, leadingExponent num den = t ∧ 10 ^ t * den ≤ num ∧ num < 10 ^ (t + 1) * den := by
  have hquot : 1 ≤ num / den := (Nat.one_le_div_iff hd).mpr h
  have hlen : 0 < (Nat.toDigits 10 (num / den)).length := Nat.length_toDigits_pos
  obtain ⟨t, ht⟩ : ∃ t, (Nat.toDigits 10 (num / den)).length = t + 1 :=
    ⟨_, (Nat.sub_add_cancel hlen).symm⟩
  have hhigh : num / den < 10 ^ (t + 1) :=
    (Nat.length_toDigits_le_iff (by decide) (by omega)).mp (Nat.le_of_eq ht)
  have hlow : 10 ^ t ≤ num / den := by
    rcases Nat.eq_zero_or_pos t with rfl | hpos
    · exact hquot
    · by_contra hlt
      have hle := (Nat.length_toDigits_le_iff (by decide) hpos).mpr (Nat.lt_of_not_le hlt)
      omega
  refine ⟨t, ?_, ?_, ?_⟩
  · rw [leadingExponent, if_pos h, countDigits, if_neg (by omega), ht]
    omega
  · exact (Nat.le_div_iff_mul_le hd).mp hlow
  · exact (Nat.div_lt_iff_lt_mul hd).mp hhigh

theorem raise_spec {num den t : Nat} (fuel : Nat) (ht : 1 ≤ t) (hlow : num * 10 ^ (t - 1) < den)
    (hhigh : den ≤ num * 10 ^ (t + fuel)) :
    1 ≤ raise num den fuel t ∧ raise num den fuel t ≤ t + fuel ∧
      den ≤ num * 10 ^ raise num den fuel t ∧ num * 10 ^ (raise num den fuel t - 1) < den := by
  induction fuel generalizing t with
  | zero => exact ⟨ht, Nat.le_refl t, hhigh, hlow⟩
  | succ fuel ih =>
    rw [raise]
    split
    · next hle => exact ⟨ht, Nat.le_add_right .., hle, hlow⟩
    · next hgt =>
      have hnext : num * 10 ^ (t + 1 - 1) < den := by
        rw [Nat.add_sub_cancel]
        omega
      rw [← Nat.add_assoc, Nat.add_right_comm] at hhigh ⊢
      exact ih (by omega) hnext hhigh

/-- The exponent of the leading digit of a quotient below one. -/
theorem leadingExponent_fraction {num den : Nat} (h : num < den)
    (hd : den ≤ num * 10 ^ (1 + 400)) :
    ∃ t : Nat, 1 ≤ t ∧ t ≤ 401 ∧ leadingExponent num den = -t ∧ den ≤ num * 10 ^ t ∧
      num * 10 ^ (t - 1) < den := by
  obtain ⟨hpos, hmax, hle, hlt⟩ := raise_spec 400 (Nat.le_refl 1)
    (by rw [Nat.sub_self, Nat.pow_zero, Nat.mul_one]; exact h) hd
  exact ⟨_, hpos, hmax, if_neg (by omega), hle, hlt⟩

/-- Measured on the grid of `count` digits, a quotient has `count` digits before the point. -/
theorem inUnits_bounds {num den n d count : Nat} (hd : 0 < den) (hden : den ≤ num * 10 ^ (1 + 400))
    (hc : 1 ≤ count)
    (hu : inUnits num den (leadingExponent num den - (count : Int) + 1) = (n, d)) :
    0 < d ∧ 10 ^ (count - 1) * d ≤ n ∧ n < 10 ^ count * d := by
  have hten (k : Nat) : 0 < 10 ^ k := Nat.pow_pos (by decide)
  rcases Nat.lt_or_ge num den with hless | hmore
  · obtain ⟨t, ht, -, he, hle, hlt⟩ := leadingExponent_fraction hless hden
    have hexp : (-(leadingExponent num den - (count : Int) + 1)).toNat = t + (count - 1) := by
      omega
    rw [inUnits, if_neg (by omega), hexp] at hu
    cases hu
    refine ⟨hd, ?_, ?_⟩
    · calc 10 ^ (count - 1) * den ≤ 10 ^ (count - 1) * (num * 10 ^ t) := Nat.mul_le_mul_left _ hle
        _ = num * 10 ^ (t + (count - 1)) := by rw [Nat.pow_add]; ring
    · calc num * 10 ^ (t + (count - 1)) = 10 ^ count * (num * 10 ^ (t - 1)) := by
            rw [Nat.mul_left_comm, ← Nat.pow_add]; congr 2; omega
        _ < 10 ^ count * den := Nat.mul_lt_mul_of_pos_left hlt (hten count)
  · obtain ⟨t, he, hle, hlt⟩ := leadingExponent_whole hd hmore
    rw [inUnits] at hu
    split at hu
    · next hscale =>
      cases hu
      have hexp : count + (leadingExponent num den - (count : Int) + 1).toNat = t + 1 := by omega
      generalize (leadingExponent num den - (count : Int) + 1).toNat = k at hexp ⊢
      refine ⟨Nat.mul_pos hd (hten k), ?_, ?_⟩
      · calc 10 ^ (count - 1) * (den * 10 ^ k) = 10 ^ t * den := by
              rw [Nat.mul_left_comm, ← Nat.pow_add, Nat.mul_comm]; congr 2; omega
          _ ≤ num := hle
      · calc num < 10 ^ (t + 1) * den := hlt
          _ = 10 ^ count * (den * 10 ^ k) := by
              rw [Nat.mul_left_comm, ← Nat.pow_add, hexp, Nat.mul_comm]
    · next hscale =>
      cases hu
      have hexp : t + (-(leadingExponent num den - (count : Int) + 1)).toNat = count - 1 := by omega
      generalize (-(leadingExponent num den - (count : Int) + 1)).toNat = k at hexp ⊢
      refine ⟨hd, ?_, ?_⟩
      · calc 10 ^ (count - 1) * den = 10 ^ t * den * 10 ^ k := by
              rw [← hexp, Nat.pow_add]; ring
          _ ≤ num * 10 ^ k := Nat.mul_le_mul_right _ hle
      · calc num * 10 ^ k < 10 ^ (t + 1) * den * 10 ^ k :=
              Nat.mul_lt_mul_of_pos_right hlt (hten k)
          _ = 10 ^ count * den := by
              rw [Nat.mul_right_comm, ← Nat.pow_add]; congr 2; omega

/-! ## Points of a grid -/

section Grid

variable {b : Binary} {count : Nat} {dg : Digits}

theorem le_of_reaches {gap half : Nat} {even : Bool} (h : reaches gap half even = true) :
    gap ≤ half := by
  simp only [reaches, Bool.or_eq_true, Bool.and_eq_true, decide_eq_true_eq] at h
  omega

theorem le_of_not_reaches {gap half : Nat} {even : Bool} (h : reaches gap half even = false) :
    half ≤ gap := by
  simp only [reaches, Bool.or_eq_false_iff, decide_eq_false_iff_not] at h
  omega

/-- A point is one of the two neighbours of the float; if it is the upper one, it is at most half
a step away. -/
theorem pointOf_cases {scale : Int} {n d : Nat} (h : b.pointOf scale n d = some dg) :
    dg.scale = scale ∧ (dg.numeral = n / d ∨
      dg.numeral = n / d + 1 ∧ 4 * ((n / d + 1) * d - n) ≤ 2 * b.step scale) := by
  simp only [Binary.pointOf] at h
  split at h
  · next hhi =>
    cases h
    refine ⟨rfl, ?_⟩
    dsimp only
    split
    · exact .inl rfl
    · exact .inr ⟨rfl, le_of_reaches hhi⟩
  · cases h
    exact ⟨rfl, .inl rfl⟩
  · next hhi =>
    cases h
    exact ⟨rfl, .inr ⟨rfl, le_of_reaches hhi⟩⟩
  · cases h

/-- A grid whose units are smaller than the steps of the float has a point. -/
theorem pointOf_ne_none {scale : Int} {n d : Nat} (hd : 0 < d) (hb : b.halfBelow = false)
    (hs : d < b.step scale) : b.pointOf scale n d ≠ none := by
  intro h
  simp only [Binary.pointOf, hb, Bool.false_eq_true, if_false] at h
  split at h
  · cases h
  · cases h
  · cases h
  · next hlo hhi =>
    have hlo' := le_of_not_reaches hlo
    have hhi' := le_of_not_reaches hhi
    have hmod : n / d * d ≤ n := Nat.div_mul_le_self n d
    have hdiv : n < (n / d + 1) * d := Nat.lt_mul_of_div_lt (Nat.lt_succ_self _) hd
    have hsum : (n / d + 1) * d = n / d * d + d := Nat.succ_mul _ d
    omega

/-- What a point of a grid is: a numeral of `count` digits, or the power of ten above them. -/
theorem onGrid_cases (hc : 1 ≤ count) (hpos : 0 < b.quotient.2)
    (hden : b.quotient.2 ≤ b.quotient.1 * 10 ^ (1 + 400)) (h : b.onGrid count = some dg) :
    dg.scale = b.scale count ∧ 0 < dg.numeral ∧ dg.numeral ≤ 10 ^ count := by
  rcases hu : inUnits b.quotient.1 b.quotient.2 (b.scale count) with ⟨n, d⟩
  obtain ⟨hd, hlow, hhigh⟩ := inUnits_bounds hpos hden hc hu
  have hlo : 0 < n / d := by
    refine Nat.div_pos ?_ hd
    calc d ≤ 10 ^ (count - 1) * d := Nat.le_mul_of_pos_left d (Nat.pow_pos (by decide))
      _ ≤ n := hlow
  have hhi : n / d < 10 ^ count := (Nat.div_lt_iff_lt_mul hd).mpr hhigh
  have hpoint : b.pointOf (b.scale count) n d = some dg := by
    rw [Binary.onGrid, hu] at h
    exact h
  obtain ⟨hscale, hnum | ⟨hnum, -⟩⟩ := pointOf_cases hpoint
  · exact ⟨hscale, by omega, by omega⟩
  · exact ⟨hscale, by omega, by omega⟩

end Grid

/-! ## What the reader can take -/

/-- The numerals of seventeen digits that come close to the edge. -/
def nearEdge : List Nat := [17976931348623155, 17976931348623156, 17976931348623157]

/-- The decimals that the reader can scale: those up to `10 ^ 308`, those that keep clear of the
edge, and those that were tried. -/
def Digits.Bounded (dg : Digits) : Prop :=
  (∃ c : Nat, dg.numeral ≤ 10 ^ c ∧ c + dg.scale ≤ 308) ∨
    (∃ s : Nat, dg.scale = s ∧ Fits dg.numeral s) ∨
    (dg.scale = 292 ∧ dg.numeral ∈ nearEdge)

/-- What a reader needs to know about digits. -/
structure Digits.Readable (dg : Digits) : Prop where
  /-- there is a digit other than zero -/
  pos : 0 < dg.numeral
  /-- the numeral has 64 bits -/
  small : dg.numeral ≤ 10 ^ 18
  /-- the scale is not too small -/
  fine : -1000 ≤ dg.scale
  /-- it can be scaled -/
  bounded : dg.Bounded

/-- Dropping a zero changes nothing of that. -/
theorem Digits.Readable.drop {n : Nat} {s : Int} (h : Readable ⟨n, s⟩) (hn : n % 10 = 0) :
    Readable ⟨n / 10, s + 1⟩ := by
  obtain ⟨hpos, hsmall, hfine, hbounded⟩ := h
  dsimp only at hpos hsmall hfine
  obtain ⟨m, rfl⟩ : ∃ m, n = m * 10 := ⟨n / 10, by omega⟩
  rw [Nat.mul_div_cancel _ (by decide)]
  refine ⟨by dsimp only; omega, by dsimp only; omega, by dsimp only; omega, ?_⟩
  rcases hbounded with ⟨c, hc, hcs⟩ | ⟨s, rfl, hfits⟩ | ⟨rfl, hmem⟩
  · cases c with
    | zero =>
      dsimp only at hc
      omega
    | succ c =>
      dsimp only at hc hcs
      rw [Nat.pow_succ] at hc
      exact .inl ⟨c, by dsimp only; omega, by dsimp only; omega⟩
  · refine .inr (.inl ⟨s + 1, rfl, ?_⟩)
    have hsame : m * 10 ^ (s + 1) = m * 10 * 10 ^ s := by rw [Nat.pow_succ]; ring
    dsimp only
    rw [Fits, hsame]
    exact hfits
  · simp only [nearEdge, List.mem_cons, List.not_mem_nil, or_false] at hmem
    omega

theorem Digits.Readable.trim {dg : Digits} (h : dg.Readable) (fuel : Nat) :
    (dg.trim fuel).Readable := by
  induction fuel generalizing dg with
  | zero => exact h
  | succ fuel ih =>
    rw [Digits.trim]
    split
    · next hzero => exact ih (h.drop hzero.2)
    · exact h

theorem Digits.Readable.scale_le {dg : Digits} (h : dg.Readable) : dg.scale ≤ 308 := by
  rcases h.bounded with ⟨c, -, hcs⟩ | ⟨s, hs, hfits⟩ | ⟨hs, -⟩
  · omega
  · have hle := hfits.scale_le h.pos
    omega
  · omega

/-- What is readable can be scaled. -/
theorem Digits.Readable.scaled {dg : Digits} (h : dg.Readable) (fuel : Nat) :
    ∃ y, Json.scaleFloat (fuel + 1) dg.numeral.toUInt64.toFloat dg.scale = some y := by
  obtain ⟨hpos, hsmall, -, hbounded⟩ := h
  have hmax : dg.numeral < 2 ^ 64 := by omega
  have hup {s : Nat} (hs : dg.scale = s) (hfits : Fits dg.numeral s) :
      ∃ y, Json.scaleFloat (fuel + 1) dg.numeral.toUInt64.toFloat dg.scale = some y := by
    have hle := hfits.scale_le hpos
    rw [hs]
    exact ⟨_, scaleFloat_up hle (product_fits hmax hle hfits) fuel⟩
  rcases hbounded with ⟨c, hc, hcs⟩ | ⟨s, hs, hfits⟩ | ⟨hs, hmem⟩
  · rcases lt_or_ge dg.scale 0 with hneg | hnat
    · exact scaleFloat_down hmax (Int.le_of_lt hneg) _
    · obtain ⟨s, hs⟩ := Int.eq_ofNat_of_zero_le hnat
      refine hup hs ?_
      refine fits_of_le (c := c + s) (by omega) ?_
      rw [Nat.pow_add]
      exact Nat.mul_le_mul_right _ hc
  · exact hup hs hfits
  · have htried : ∀ n ∈ nearEdge, (n.toUInt64.toFloat * Json.powerOfTen 292).isInf = false := by
      decide +kernel
    rw [hs]
    exact ⟨_, scaleFloat_up (by decide) (htried _ hmem) fuel⟩

/-! ## Floats of the largest exponent -/

section Proper

variable {b : Binary} {count : Nat} {dg : Digits}

theorem Binary.Proper.quotient (hb : b.Proper) :
    0 < b.quotient.1 ∧ 0 < b.quotient.2 ∧ b.quotient.1 < 2 ^ 53 * 2 ^ b.exp.toNat ∧
      b.quotient.2 ≤ b.quotient.1 * 10 ^ (1 + 400) := by
  obtain ⟨hpos, hsmall, hlow, -, -⟩ := hb
  have htwo (k : Nat) : 0 < 2 ^ k := Nat.two_pow_pos k
  have hten (k : Nat) : 0 < 10 ^ k := Nat.pow_pos (by decide)
  rw [Binary.quotient]
  split
  · refine ⟨Nat.mul_pos hpos (htwo _), Nat.one_pos,
      Nat.mul_lt_mul_of_pos_right hsmall (htwo _), ?_⟩
    exact Nat.mul_pos (Nat.mul_pos hpos (htwo _)) (hten _)
  · next hneg =>
    have hexp : b.exp.toNat = 0 := by omega
    rw [hexp]
    refine ⟨hpos, htwo _, by omega, ?_⟩
    have hden (k : Nat) (hk : (-b.exp).toNat ≤ k) : 2 ^ (-b.exp).toNat ≤ 2 ^ k :=
      Nat.pow_le_pow_right (by decide) hk
    calc 2 ^ (-b.exp).toNat ≤ 2 ^ 1074 := hden 1074 (by omega)
      _ ≤ 10 ^ (1 + 400) := by
        rw [pow_split 2 256 50 rfl, pow_split 10 100 1 rfl]
        decide
      _ ≤ b.mant * 10 ^ (1 + 400) := Nat.le_mul_of_pos_left _ hpos

/-- The leading digit stands for `10 ^ 308` at most, and there only if the exponent is the largest
one. -/
theorem Binary.Proper.leading (hb : b.Proper) :
    -401 ≤ leadingExponent b.quotient.1 b.quotient.2 ∧
      (leadingExponent b.quotient.1 b.quotient.2 ≤ 307 ∨
        leadingExponent b.quotient.1 b.quotient.2 = 308 ∧ b.exp = 971 ∧ 2 ^ 52 < b.mant) := by
  obtain ⟨hnum, hden, hlt, hle⟩ := hb.quotient
  have htop := hb.high
  rcases Nat.lt_or_ge b.quotient.1 b.quotient.2 with hless | hmore
  · obtain ⟨t, -, hmax, he, -, -⟩ := leadingExponent_fraction hless hle
    exact ⟨by omega, .inl (by omega)⟩
  · obtain ⟨t, he, hlow, -⟩ := leadingExponent_whole hden hmore
    have hten : 10 ^ t ≤ b.quotient.1 := Nat.le_trans (Nat.le_mul_of_pos_right _ hden) hlow
    -- a power of two that the power of ten exceeds is not large enough
    have hexp {p u : Nat} (hu : u ≤ t) (hp : 2 ^ 53 * 2 ^ p ≤ 10 ^ u) : p < b.exp.toNat := by
      by_contra hsmall
      have hchain : 2 ^ 53 * 2 ^ b.exp.toNat ≤ b.quotient.1 := by
        calc 2 ^ 53 * 2 ^ b.exp.toNat ≤ 2 ^ 53 * 2 ^ p :=
              Nat.mul_le_mul_left _ (Nat.pow_le_pow_right (by decide) (Nat.le_of_not_lt hsmall))
          _ ≤ 10 ^ u := hp
          _ ≤ 10 ^ t := Nat.pow_le_pow_right (by decide) hu
          _ ≤ b.quotient.1 := hten
      omega
    refine ⟨by omega, ?_⟩
    rcases Nat.lt_trichotomy t 308 with hsmall | rfl | hlarge
    · exact .inl (by omega)
    · have h970 := hexp (p := 970) (Nat.le_refl 308) <| by
        rw [pow_split 2 242 2 rfl, pow_split 10 77 0 rfl]
        decide
      have h971 : b.exp = 971 := by omega
      refine .inr ⟨he, h971, ?_⟩
      by_contra hmant
      have hquot (p : Nat) (hp : b.exp = p) : b.quotient.1 ≤ 2 ^ 52 * 2 ^ p := by
        rw [Binary.quotient, hp, if_pos (Int.natCast_nonneg p)]
        exact Nat.mul_le_mul_right _ (Nat.le_of_not_lt hmant)
      have hover (u p : Nat) (hu : 10 ^ u ≤ b.quotient.1) (hp : b.exp = p)
          (hlt : 2 ^ 52 * 2 ^ p < 10 ^ u) : False := by
        have hle := hquot p hp
        omega
      refine hover 308 971 hten h971 ?_
      rw [pow_split 2 242 3 rfl, pow_split 10 77 0 rfl]
      decide
    · have h971 := hexp (p := 971) (u := 309) hlarge <| by
        rw [pow_split 2 242 3 rfl, pow_split 10 77 1 rfl]
        decide
      omega

/-- A float of the largest exponent, measured on a grid of whole numbers. -/
theorem onGrid_large {p k : Nat} (hexp : b.exp = (p : Nat)) (hk : b.scale count = (k : Nat)) :
    b.onGrid count = b.pointOf k (b.mant * 2 ^ p) (1 * 10 ^ k) ∧ b.step k = 2 ^ p := by
  have hnat (n : Nat) : (0 : Int) ≤ n := Int.natCast_nonneg n
  constructor
  · simp only [Binary.onGrid, hk, Binary.quotient, hexp, if_pos (hnat _), Int.toNat_natCast,
      inUnits]
  · simp only [Binary.step, hexp, if_pos (hnat _), Int.toNat_natCast, inUnits]

/-- A point above a float is half a step away at most. -/
theorem onGrid_value {p k : Nat} (hexp : b.exp = (p + 1 : Nat)) (hk : b.scale count = (k : Nat))
    (h : b.onGrid count = some dg) : dg.numeral * 10 ^ k ≤ (2 * b.mant + 1) * 2 ^ p := by
  obtain ⟨heq, hstep⟩ := onGrid_large hexp hk
  rw [heq, Nat.one_mul] at h
  have htwo : 2 ^ (p + 1) = 2 * 2 ^ p := Nat.pow_succ'
  have hn : b.mant * 2 ^ (p + 1) = 2 * b.mant * 2 ^ p := by rw [htwo]; ring
  have hsum : (2 * b.mant + 1) * 2 ^ p = 2 * b.mant * 2 ^ p + 2 ^ p := Nat.succ_mul _ _
  generalize b.mant * 2 ^ (p + 1) = n at h hn
  have hdiv : n / 10 ^ k * 10 ^ k ≤ n := Nat.div_mul_le_self _ _
  obtain ⟨-, hnum | ⟨hnum, hgap⟩⟩ := pointOf_cases h
  · rw [hnum]
    omega
  · rw [hstep, htwo] at hgap
    rw [hnum]
    omega

/-- The largest value that a point of a grid for a float below the largest one has. -/
def nextToEdge : Nat := (2 ^ 54 - 3) * 2 ^ 970

theorem div_pow_add (n b i j : Nat) : n / b ^ (i + j) = n / b ^ i / b ^ j := by
  rw [Nat.pow_add, Nat.div_div_eq_div_mul]

/-- Its seventeen digits, rounded down to fewer. -/
theorem nextToEdge_div (j : Nat) : nextToEdge / 10 ^ (292 + j) = 17976931348623156 / 10 ^ j := by
  have hdigits : nextToEdge / 10 ^ 292 = 17976931348623156 := by
    rw [nextToEdge, pow_split 2 242 2 rfl, pow_split 10 73 0 rfl]
    decide
  exact (div_pow_add nextToEdge 10 292 j).trans (congrArg (· / 10 ^ j) hdigits)

/-- **A float of the largest exponent is written by digits that can be scaled.** -/
theorem Binary.Proper.bounded_large (hb : b.Proper) (hmant : b.mant ≤ 2 ^ 53 - 2)
    (he : leadingExponent b.quotient.1 b.quotient.2 = 308) (hexp : b.exp = 971)
    (hc : 1 ≤ count) (hc' : count ≤ 17) (h : b.onGrid count = some dg) : dg.Bounded := by
  obtain ⟨k, hk, hkc⟩ : ∃ k : Nat, b.scale count = k ∧ k + count = 309 :=
    ⟨309 - count, by rw [Binary.scale, he]; omega, by omega⟩
  have hscale : dg.scale = k := by
    rw [← hk]
    obtain ⟨-, hden, -, hle⟩ := hb.quotient
    exact (onGrid_cases hc hden hle h).1
  have hvalue {p : Nat} (hp : b.exp = (p + 1 : Nat)) :
      dg.numeral * 10 ^ k ≤ (2 ^ 54 - 3) * 2 ^ p :=
    Nat.le_trans (onGrid_value hp hk h) (Nat.mul_le_mul_right _ (by omega))
  have hnumeral : dg.numeral ≤ nextToEdge / 10 ^ k :=
    (Nat.le_div_iff_mul_le (Nat.pow_pos (by decide))).mpr (hvalue (p := 970) hexp)
  obtain ⟨j, rfl⟩ : ∃ j, k = 292 + j := ⟨k - 292, by omega⟩
  rw [nextToEdge_div] at hnumeral
  cases j with
  | succ j =>
    refine .inr (.inl ⟨_, hscale, fits_clear.of_le ?_⟩)
    have hround : dg.numeral * 10 ^ j ≤ 1797693134862315 := by
      rw [Nat.pow_succ', ← Nat.div_div_eq_div_mul] at hnumeral
      exact (Nat.le_div_iff_mul_le (Nat.pow_pos (by decide))).mp hnumeral
    have hten (s : Nat) : dg.numeral * 10 ^ (s + (j + 1)) = dg.numeral * 10 ^ j * 10 * 10 ^ s := by
      rw [Nat.pow_add, Nat.pow_succ]
      ring
    rw [hten 292]
    exact Nat.mul_le_mul_right _ (by omega)
  | zero =>
    rcases Nat.lt_or_ge 17976931348623154 dg.numeral with hnear | hclear
    · have hmem : dg.numeral ∈ nearEdge := by
        simp only [nearEdge, List.mem_cons]
        omega
      exact .inr (.inr ⟨hscale, hmem⟩)
    · exact .inr (.inl ⟨292, hscale, fits_clear.mono hclear⟩)

/-- The grid of seventeen digits has a point for every float of the largest exponent. -/
theorem Binary.Proper.onGrid_large_ne_none (hb : b.Proper)
    (he : leadingExponent b.quotient.1 b.quotient.2 = 308) (hexp : b.exp = 971)
    (hmant : 2 ^ 52 < b.mant) : b.onGrid 17 ≠ none := by
  have hk : b.scale 17 = (292 : Nat) := by
    rw [Binary.scale, he]
    rfl
  have hhalf : b.halfBelow = false := by
    by_contra hcon
    have heq := hb.half (Bool.eq_true_of_not_eq_false hcon)
    omega
  have hpoint {p k : Nat} (hp : b.exp = (p : Nat)) (hk : b.scale 17 = (k : Nat))
      (hlt : 10 ^ k < 2 ^ p) : b.onGrid 17 ≠ none := by
    obtain ⟨heq, hstep⟩ := onGrid_large hp hk
    rw [heq, Nat.one_mul]
    exact pointOf_ne_none (Nat.pow_pos (by decide)) hhalf (by rw [hstep]; exact hlt)
  refine hpoint (p := 971) hexp hk ?_
  rw [pow_split 2 242 3 rfl, pow_split 10 73 0 rfl]
  decide

end Proper

/-! ## The search -/

theorem search_cases (b : Binary) (fuel count : Nat) :
    (∃ c dg, count ≤ c ∧ c < count + fuel ∧ b.onGrid c = some dg ∧
        b.search fuel count = dg.trim 20 ∧ ∀ c', count ≤ c' → c' < c → b.onGrid c' = none) ∨
      b.search fuel count = ⟨b.mant, 0⟩ := by
  induction fuel generalizing count with
  | zero => exact .inr rfl
  | succ fuel ih =>
    rw [Binary.search]
    cases hgrid : b.onGrid count with
    | some dg =>
      exact .inl ⟨count, dg, Nat.le_refl _, by omega, hgrid, rfl, fun c' h h' => by omega⟩
    | none =>
      rcases ih (count + 1) with ⟨c, dg, hc, hlt, hdg, heq, hbefore⟩ | heq
      · refine .inl ⟨c, dg, by omega, by omega, hdg, heq, fun c' h h' => ?_⟩
        rcases Nat.eq_or_lt_of_le h with rfl | hgt
        · exact hgrid
        · exact hbefore c' hgt h'
      · exact .inr heq

/-- The digits of the largest float. -/
theorem search_largest :
    Binary.search ⟨2 ^ 53 - 1, 971, false⟩ 18 1 = ⟨17976931348623157, 292⟩ := by
  decide +kernel

/-- **The shortest decimal of a float is readable.** -/
theorem Binary.Proper.readable {b : Binary} (hb : b.Proper) : (b.search 18 1).Readable := by
  obtain ⟨-, hden, -, hle⟩ := hb.quotient
  rcases search_cases b 18 1 with ⟨c, dg, hc, hlt, hdg, heq, hbefore⟩ | heq
  · obtain ⟨hscale, hpos, hsmall⟩ := onGrid_cases hc hden hle hdg
    have hdigits : dg.numeral ≤ 10 ^ 18 :=
      Nat.le_trans hsmall (Nat.pow_le_pow_right (by decide) (by omega))
    obtain ⟨hleast, hlead⟩ := hb.leading
    have hfine : -1000 ≤ dg.scale := by
      rw [hscale, Binary.scale]
      omega
    rcases hlead with hlow | ⟨he, hexp, hmant⟩
    · rw [heq]
      refine Digits.Readable.trim ⟨hpos, hdigits, hfine, .inl ⟨c, hsmall, ?_⟩⟩ 20
      rw [hscale, Binary.scale]
      omega
    · have hc' : c ≤ 17 := by
        by_contra hgt
        exact hb.onGrid_large_ne_none he hexp hmant (hbefore 17 (by decide) (by omega))
      have htop := hb.small
      rcases Nat.lt_or_ge (2 ^ 53 - 2) b.mant with hmax | hless
      · have hhalf : b.halfBelow = false := by
          by_contra hcon
          have hleast := hb.half (Bool.eq_true_of_not_eq_false hcon)
          omega
        have hlargest : b = ⟨2 ^ 53 - 1, 971, false⟩ := by
          obtain ⟨m, e, half⟩ := b
          dsimp only at hexp hhalf htop hmax
          rw [hexp, hhalf, Nat.le_antisymm (Nat.le_sub_one_of_lt htop) (by omega)]
        rw [hlargest, search_largest]
        exact ⟨by decide, by decide, by decide, .inr (.inr ⟨rfl, by decide⟩)⟩
      · rw [heq]
        have hbounded := hb.bounded_large hless he hexp hc hc' hdg
        exact Digits.Readable.trim ⟨hpos, hdigits, hfine, hbounded⟩ 20
  · rw [heq]
    have hmant := hb.small
    exact ⟨hb.pos, by dsimp only; omega, by dsimp only; omega,
      .inr (.inl ⟨0, rfl, fits_word.mono (by dsimp only; omega)⟩)⟩

/-- The digits of a finite float are readable, or zero. -/
theorem shortest_readable {x : Float} (hx : x.isFinite = true) :
    shortest x = ⟨0, 0⟩ ∨ (shortest x).Readable := by
  rw [shortest]
  split
  · exact .inl rfl
  · next hmant => exact .inr (Binary.ofFloat_proper hx hmant).readable

end Workflow.Decimal
