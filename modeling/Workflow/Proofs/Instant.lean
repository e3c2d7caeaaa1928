import Workflow.Instant
import Workflow.Proofs.Decimal.Numeral
import Workflow.Proofs.Except

/-!
# Instants read back

A moment in the calendar, written and read, is the same moment (`read_write`), to the nanosecond,
leap seconds and years beyond four digits included. And whatever is read is a moment in the
calendar (`read_proper`): the ranges of the parts are checked as they are read, and removing the
offset moves the date by a day at most. So is what a clock shows (`ofEpochNanos_proper`).
-/

namespace Workflow.Instant

open Decimal (isDigit foldDigits numeralText)

/-- The parts of a moment are in their ranges. A fraction of a second or more belongs to the last
second of a minute. -/
structure IsProper (t : Instant) : Prop where
  /-- the calendar knows the year -/
  year : isYear t.year = true
  /-- the month exists -/
  month : 1 ≤ t.month ∧ t.month ≤ 12
  /-- the day exists -/
  day : 1 ≤ t.day ∧ t.day ≤ daysIn t.year t.month
  /-- the hour exists -/
  hour : t.hour ≤ 23
  /-- the minute exists -/
  minute : t.minute ≤ 59
  /-- the second exists -/
  second : t.second ≤ 59
  /-- the fraction is one -/
  nano : t.nano < 1000000000 ∨ t.second = 59 ∧ t.nano < 2000000000

instance (t : Instant) : Decidable t.IsProper :=
  decidable_of_iff (isYear t.year = true ∧ (1 ≤ t.month ∧ t.month ≤ 12) ∧
      (1 ≤ t.day ∧ t.day ≤ daysIn t.year t.month) ∧ t.hour ≤ 23 ∧ t.minute ≤ 59 ∧ t.second ≤ 59 ∧
      (t.nano < 1000000000 ∨ t.second = 59 ∧ t.nano < 2000000000))
    ⟨fun ⟨hy, hm, hd, hh, hmin, hs, hn⟩ => ⟨hy, hm, hd, hh, hmin, hs, hn⟩,
      fun ⟨hy, hm, hd, hh, hmin, hs, hn⟩ => ⟨hy, hm, hd, hh, hmin, hs, hn⟩⟩

/-! ## Numerals -/

section Numerals

variable {ds rest : List Char}

theorem isBlank_of_isDigit {c : Char} (h : isDigit c = true) : Text.isBlank c = false := by
  simp only [isDigit, Bool.and_eq_true, decide_eq_true_eq] at h
  have hlow : '0'.toNat ≤ c.toNat := h.1
  have hhigh : c.toNat ≤ '9'.toNat := h.2
  change 48 ≤ c.toNat at hlow
  change c.toNat ≤ 57 at hhigh
  simp only [Text.isBlank, Bool.or_eq_false_iff, Bool.and_eq_false_iff, decide_eq_false_iff_not]
  omega

theorem trimStart_cons {c : Char} (h : Text.isBlank c = false) (cs : List Char) :
    Text.trimStart (c :: cs) = c :: cs :=
  List.dropWhile_cons_of_neg (by rw [h]; exact Bool.false_ne_true)

theorem trimStart_digits (hd : ∀ c ∈ ds, isDigit c = true) (hne : ds ≠ []) :
    Text.trimStart (ds ++ rest) = ds ++ rest := by
  obtain ⟨c, cs, rfl⟩ := List.exists_cons_of_ne_nil hne
  exact trimStart_cons (isBlank_of_isDigit (hd c (List.mem_cons_self ..))) _

/-- Digits are read as a numeral if they fill its width or no digit follows. -/
theorem readNumeral_digits {width : Nat} (hd : ∀ c ∈ ds, isDigit c = true) (hne : ds ≠ [])
    (hlen : ds.length ≤ width)
    (hr : ds.length = width ∨ ∀ c ∈ rest.head?, isDigit c = false) :
    readNumeral width (ds ++ rest) = .ok (foldDigits 0 ds, rest) := by
  have htake : ((ds ++ rest).take width).takeWhile isDigit = ds := by
    rw [List.take_append, List.take_of_length_le hlen]
    refine Decimal.takeWhile_digits hd fun c hc => ?_
    rcases hr with hfull | hstop
    · rw [hfull, Nat.sub_self, List.take_zero] at hc
      cases hc
    · cases rest with
      | nil =>
        rw [List.take_nil] at hc
        cases hc
      | cons a rest =>
        cases hw : width - ds.length with
        | zero =>
          rw [hw] at hc
          cases hc
        | succ w =>
          rw [hw] at hc
          exact hstop c hc
  obtain ⟨c, cs, rfl⟩ := List.exists_cons_of_ne_nil hne
  have hc := hd c (List.mem_cons_self ..)
  rw [readNumeral.eq_def]
  dsimp only [List.cons_append]
  rw [← List.cons_append, htake, hc, List.drop_left]
  rfl

theorem foldDigits_zeros (k : Nat) (ds : List Char) :
    foldDigits 0 (Decimal.zeros k ++ ds) = foldDigits 0 ds := by
  induction k with
  | zero => rfl
  | succ k ih => exact ih

theorem isDigit_digits (width n : Nat) : ∀ c ∈ digits width n, isDigit c = true := by
  refine List.forall_mem_append.mpr ⟨fun c hc => ?_, Decimal.isDigit_numeralText n⟩
  rw [(List.mem_replicate.mp hc).2]
  rfl

theorem digits_ne_nil (width n : Nat) : digits width n ≠ [] := by
  simp [digits, Decimal.numeralText_ne_nil]

theorem foldDigits_digits (width n : Nat) : foldDigits 0 (digits width n) = n := by
  rw [digits, foldDigits_zeros, Decimal.foldDigits_numeralText]

theorem length_digits {width n : Nat} (hw : 0 < width) (h : n < 10 ^ width) :
    (digits width n).length = width := by
  have hle := Decimal.length_numeralText_le hw h
  simp only [digits, Decimal.zeros, List.length_append, List.length_replicate]
  omega

/-! ## The parts of a moment -/

theorem readWithin_digits {n low high : Nat} (hlow : low ≤ n) (hhigh : n ≤ high) (h : n < 100) :
    readWithin 2 low high (digits 2 n ++ rest) = .ok (n, rest) := by
  have hlen := length_digits (by decide : 0 < 2) h
  rw [readWithin, trimStart_digits (isDigit_digits 2 n) (digits_ne_nil 2 n),
    readNumeral_digits (isDigit_digits 2 n) (digits_ne_nil 2 n) (Nat.le_of_eq hlen) (.inl hlen),
    foldDigits_digits]
  exact if_pos ⟨hlow, hhigh⟩

theorem readMark_cons {mark : Char} (h : Text.isBlank mark = false) (cs : List Char) :
    readMark mark (mark :: cs) = .ok cs := by
  rw [readMark, trimStart_cons h]
  exact if_pos rfl

/-- A year is read up to the dash after it. -/
theorem readYear_yearText {year : Int} (h : isYear year = true) (rest : List Char) :
    readYear (yearText year ++ '-' :: rest) = .ok (year, '-' :: rest) := by
  simp only [isYear, Bool.and_eq_true, decide_eq_true_eq] at h
  have hdash : ∀ c ∈ ('-' :: rest).head?, isDigit c = false := by
    rintro c ⟨⟩
    rfl
  rw [yearText]
  split
  · next hfour =>
    have hlen : (digits 4 year.toNat).length = 4 := length_digits (by decide) (by omega)
    have hread : readNumeral 4 (digits 4 year.toNat ++ '-' :: rest) = _ :=
      readNumeral_digits (isDigit_digits 4 _) (digits_ne_nil 4 _) (Nat.le_of_eq hlen) (.inl hlen)
    obtain ⟨c, cs, hcs⟩ := List.exists_cons_of_ne_nil (digits_ne_nil 4 year.toNat)
    have hc : isDigit c = true :=
      isDigit_digits 4 year.toNat c (by rw [hcs]; exact List.mem_cons_self ..)
    have hminus : c ≠ '-' := by
      rintro rfl
      cases hc
    have hplus : c ≠ '+' := by
      rintro rfl
      cases hc
    rw [readYear, trimStart_digits (isDigit_digits 4 _) (digits_ne_nil 4 _)]
    rw [foldDigits_digits, hcs, List.cons_append] at hread
    rw [hcs, List.cons_append]
    split
    · next heq => exact absurd (List.head_eq_of_cons_eq heq) hminus
    · next heq => exact absurd (List.head_eq_of_cons_eq heq) hplus
    · rw [hread]
      change Except.ok ((year.toNat : Int), '-' :: rest) = _
      rw [Int.toNat_of_nonneg hfour.1]
  · next hlong =>
    have hread : readNumeral (digits 4 year.natAbs ++ '-' :: rest).length
        (digits 4 year.natAbs ++ '-' :: rest) = _ :=
      readNumeral_digits (isDigit_digits 4 _) (digits_ne_nil 4 _)
        (by rw [List.length_append]; exact Nat.le_add_right ..) (.inr hdash)
    rw [foldDigits_digits] at hread
    have hsmall : year.natAbs < 2 ^ 31 := by omega
    split
    · next hneg =>
      have hsigned (cs : List Char) : readYear ('-' :: cs) = (readNumeral cs.length cs >>= fun p =>
          if p.1 < 2 ^ 31 then .ok (-(p.1 : Int), p.2) else .error .outOfRange) := rfl
      rw [List.cons_append, hsigned, hread]
      refine (if_pos hsmall).trans ?_
      congr 2
      omega
    · next hpos =>
      have hsigned (cs : List Char) : readYear ('+' :: cs) = (readNumeral cs.length cs >>= fun p =>
          if p.1 < 2 ^ 31 then .ok ((p.1 : Int), p.2) else .error .outOfRange) := rfl
      rw [List.cons_append, hsigned, hread]
      refine (if_pos hsmall).trans ?_
      congr 2
      omega

/-- A fraction is read to the nanosecond. -/
theorem readFraction_fractionText {nano : Nat} (h : nano < 1000000000) {c : Char}
    (hc : isDigit c = false) (hpoint : c ≠ '.') (rest : List Char) :
    readFraction (fractionText nano ++ c :: rest) = .ok (nano, c :: rest) := by
  have hstop : ∀ d ∈ (c :: rest).head?, isDigit d = false := by
    rintro d ⟨⟩
    exact hc
  have hdrop : (c :: rest).dropWhile isDigit = c :: rest :=
    List.dropWhile_cons_of_neg (by rw [hc]; exact Bool.false_ne_true)
  -- a fraction of `w` digits
  have hdigits {w n : Nat} (hw : 0 < w) (hw' : w ≤ 9) (hn : n < 10 ^ w)
      (hnano : n * 10 ^ (9 - w) = nano) :
      readFraction ('.' :: digits w n ++ c :: rest) = .ok (nano, c :: rest) := by
    have hlen := length_digits hw hn
    have hread : readNumeral 9 (digits w n ++ c :: rest) = _ :=
      readNumeral_digits (isDigit_digits w n) (digits_ne_nil w n) (by omega) (.inr hstop)
    rw [foldDigits_digits] at hread
    rw [List.cons_append, readFraction, hread]
    change Except.ok (n * 10 ^ (9 - ((digits w n ++ c :: rest).length - (c :: rest).length)),
      (c :: rest).dropWhile isDigit) = _
    rw [hdrop, List.length_append, Nat.add_sub_cancel, hlen, hnano]
  rw [fractionText]
  split
  · next hzero =>
    rw [hzero, List.nil_append, readFraction.eq_def]
    split
    · next heq => exact absurd (List.head_eq_of_cons_eq heq) hpoint
    · rfl
  · split
    · next hmilli => exact hdigits (by decide) (by decide) (by omega) (by omega)
    · split
      · next hmicro => exact hdigits (by decide) (by decide) (by omega) (by omega)
      · exact hdigits (by decide) (by decide) h (Nat.mul_one nano)

end Numerals

/-! ## Whole moments -/

theorem removeOffset_zero {t : Instant} (h : t.IsProper) : t.removeOffset 0 = t := by
  obtain ⟨year, month, day, hour, minute, second, nano⟩ := t
  have hhour : hour ≤ 23 := h.hour
  have hminute : minute ≤ 59 := h.minute
  have hclock : ((hour * 60 + minute : Nat) - 0 : Int) % 1440 = (hour * 60 + minute : Nat) := by
    omega
  simp only [removeOffset, hclock, Int.toNat_natCast]
  rw [if_neg (by omega), if_neg (by omega)]
  congr 1
  · omega
  · omega

theorem daysIn_le (year : Int) (month : Nat) : daysIn year month ≤ 31 := by
  rw [daysIn.eq_def]
  split
  · split <;> decide
  all_goals decide

/-- **A moment in the calendar is read as it was written.** -/
theorem read_write {t : Instant} (h : t.IsProper) : read t.write = .ok t := by
  have htext : t.write = yearText t.year ++ '-' :: (digits 2 t.month ++ '-' :: (digits 2 t.day ++
      'T' :: (digits 2 t.hour ++ ':' :: (digits 2 t.minute ++ ':' :: (digits 2 t.shownSecond ++
        (fractionText (t.nano % 1000000000) ++ ['Z'])))))) := by
    simp [write, dateText, clockText]
  have hmonth := h.month
  have hday := h.day
  have hlast := daysIn_le t.year t.month
  have hhour := h.hour
  have hminute := h.minute
  have hsecond := h.second
  have hnano := h.nano
  have hshown : t.shownSecond ≤ 60 := by
    rw [shownSecond]
    omega
  have hfraction := readFraction_fractionText (Nat.mod_lt t.nano (by decide : 0 < 1000000000))
    (rfl : isDigit 'Z' = false) (by decide) []
  have hoffset : readOffset ['Z'] = .ok (0, []) := rfl
  rw [htext]
  simp only [read, bind, Except.bind, readYear_yearText h.year,
    readMark_cons (rfl : Text.isBlank '-' = false), readMark_cons (rfl : Text.isBlank ':' = false),
    readWithin_digits hmonth.1 hmonth.2 (by omega),
    readWithin_digits hday.1 (Nat.le_trans hday.2 hlast) (by omega),
    readWithin_digits (Nat.zero_le _) hhour (by omega),
    readWithin_digits (Nat.zero_le _) hminute (by omega),
    readWithin_digits (Nat.zero_le _) hshown (by omega), hfraction, hoffset]
  -- a leap second was shown as second 60
  have hleap : ({ year := t.year, month := t.month, day := t.day, hour := t.hour, minute := t.minute
                  second := if t.shownSecond = 60 then 59 else t.shownSecond
                  nano := if t.shownSecond = 60 then t.nano % 1000000000 + 1000000000
                    else t.nano % 1000000000 } : Instant) = t := by
    have hsplit : (if t.shownSecond = 60 then 59 else t.shownSecond) = t.second ∧
        (if t.shownSecond = 60 then t.nano % 1000000000 + 1000000000 else t.nano % 1000000000) =
          t.nano := by
      rw [shownSecond]
      split <;> omega
    rw [hsplit.1, hsplit.2]
  have hexists : ¬(daysIn t.year t.month < t.day || !isYear t.year || 1440 ≤ Int.natAbs 0) = true := by
    have hle : ¬daysIn t.year t.month < t.day := Nat.not_lt_of_le hday.2
    simp [hle, h.year]
  rw [if_pos (by decide), if_neg (by decide), if_neg hexists, hleap, removeOffset_zero h,
    if_pos h.year]

/-! ## What is read -/

section Reading

variable {cs rest : List Char} {n width : Nat}

theorem readNumeral_cases (h : readNumeral width cs = .ok (n, rest)) :
    ∃ ds : List Char, (∀ c ∈ ds, isDigit c = true) ∧ ds.length ≤ width ∧ ds.length ≤ cs.length ∧
      n = foldDigits 0 ds ∧ rest = cs.drop ds.length := by
  rw [readNumeral.eq_def] at h
  split at h
  · cases h
  · split at h
    · cases h
    · cases h
      refine ⟨_, List.all_eq_true.mp List.all_takeWhile, ?_, ?_, rfl, rfl⟩
      · exact Nat.le_trans (List.takeWhile_prefix _).length_le (List.length_take_le ..)
      · exact Nat.le_trans (List.takeWhile_prefix _).length_le (List.length_take_le' ..)

theorem readWithin_range {low high : Nat} (h : readWithin width low high cs = .ok (n, rest)) :
    low ≤ n ∧ n ≤ high := by
  obtain ⟨⟨m, after⟩, -, hp⟩ := bind_eq_ok h
  dsimp only at hp
  split at hp
  · next hrange =>
    cases hp
    exact hrange
  · cases hp

/-- A fraction is less than a second. -/
theorem readFraction_lt (h : readFraction cs = .ok (n, rest)) : n < 1000000000 := by
  rw [readFraction.eq_def] at h
  split at h
  · next tail =>
    obtain ⟨⟨m, after⟩, hread, hp⟩ := bind_eq_ok h
    obtain ⟨ds, hd, hwidth, hlen, rfl, rfl⟩ := readNumeral_cases hread
    cases hp
    have htaken : tail.length - (tail.drop ds.length).length = ds.length := by
      rw [List.length_drop]
      omega
    have hlt := Decimal.foldDigits_lt (n := 0) hd
    rw [htaken]
    calc foldDigits 0 ds * 10 ^ (9 - ds.length) < (0 + 1) * 10 ^ ds.length * 10 ^ (9 - ds.length) :=
          Nat.mul_lt_mul_of_pos_right hlt (Nat.pow_pos (by decide))
      _ = 10 ^ 9 := by
          rw [Nat.zero_add, Nat.one_mul, ← Nat.pow_add, Nat.add_sub_cancel' hwidth]
      _ = 1000000000 := rfl
  · cases h
    decide

/-- Whether a month and a day exist in a year. -/
def Exists (date : Int × Nat × Nat) : Prop :=
  (1 ≤ date.2.1 ∧ date.2.1 ≤ 12) ∧ 1 ≤ date.2.2 ∧ date.2.2 ≤ daysIn date.1 date.2.1

theorem one_le_daysIn (year : Int) (month : Nat) : 1 ≤ daysIn year month := by
  rw [daysIn.eq_def]
  split
  · split <;> decide
  all_goals decide

/-- The day after a day exists. -/
theorem nextDay_exists {year : Int} {month day : Nat} (h : Exists (year, month, day)) :
    Exists (nextDay year month day) := by
  obtain ⟨hmonth, hday⟩ := h
  dsimp only at hmonth hday
  rw [nextDay]
  split
  · exact ⟨hmonth, by dsimp only; omega, by dsimp only; omega⟩
  · split
    · exact ⟨⟨by dsimp only; omega, by dsimp only; omega⟩, Nat.le_refl 1, one_le_daysIn ..⟩
    · exact ⟨⟨Nat.le_refl 1, by dsimp only; omega⟩, Nat.le_refl 1, one_le_daysIn ..⟩

/-- The day before a day exists. -/
theorem previousDay_exists {year : Int} {month day : Nat} (h : Exists (year, month, day)) :
    Exists (previousDay year month day) := by
  obtain ⟨hmonth, hday⟩ := h
  dsimp only at hmonth hday
  rw [previousDay]
  split
  · exact ⟨hmonth, by dsimp only; omega, by dsimp only; omega⟩
  · split
    · exact ⟨⟨by dsimp only; omega, by dsimp only; omega⟩, one_le_daysIn .., Nat.le_refl _⟩
    · exact ⟨⟨by dsimp only; omega, Nat.le_refl 12⟩, by dsimp only; omega, Nat.le_refl 31⟩

/-- Without its offset a moment is one in the calendar, if the calendar knows the year. -/
theorem removeOffset_proper {t : Instant} (h : t.IsProper) (minutes : Int)
    (hyear : isYear (t.removeOffset minutes).year = true) : (t.removeOffset minutes).IsProper := by
  have hdate : Exists (t.year, t.month, t.day) := ⟨h.month, h.day⟩
  have hmoved (m : Int) : Exists (if m < 0 then previousDay t.year t.month t.day
      else if 1440 ≤ m then nextDay t.year t.month t.day else (t.year, t.month, t.day)) := by
    split
    · exact previousDay_exists hdate
    · split
      · exact nextDay_exists hdate
      · exact hdate
  obtain ⟨hmonth, hday⟩ := hmoved ((t.hour * 60 + t.minute : Nat) - minutes)
  refine ⟨hyear, hmonth, hday, ?_, ?_, h.second, h.nano⟩
  all_goals
    simp only [removeOffset]
    omega

end Reading

/-- **Whatever is read is a moment in the calendar.** -/
theorem read_proper {text : List Char} {t : Instant} (h : read text = .ok t) : t.IsProper := by
  obtain ⟨⟨year, _⟩, -, h⟩ := bind_eq_ok h
  obtain ⟨_, -, h⟩ := bind_eq_ok h
  obtain ⟨⟨month, _⟩, hmonth, h⟩ := bind_eq_ok h
  obtain ⟨_, -, h⟩ := bind_eq_ok h
  obtain ⟨⟨day, _⟩, hday, h⟩ := bind_eq_ok h
  dsimp only at h
  split at h
  · cases h
  split at h
  rotate_left
  · cases h
  obtain ⟨_, -, h⟩ := bind_eq_ok h
  obtain ⟨⟨hour, _⟩, hhour, h⟩ := bind_eq_ok h
  obtain ⟨_, -, h⟩ := bind_eq_ok h
  obtain ⟨⟨minute, _⟩, hminute, h⟩ := bind_eq_ok h
  obtain ⟨_, -, h⟩ := bind_eq_ok h
  obtain ⟨⟨second, _⟩, hsecond, h⟩ := bind_eq_ok h
  obtain ⟨⟨fraction, _⟩, hfraction, h⟩ := bind_eq_ok h
  obtain ⟨⟨offset, _⟩, -, h⟩ := bind_eq_ok h
  have hnano := readFraction_lt hfraction
  have hminute' := readWithin_range hminute
  have hsecond' := readWithin_range hsecond
  dsimp only at h
  split at h
  · cases h
  split at h
  · cases h
  next hrange =>
    simp only [Bool.or_eq_true, decide_eq_true_eq, not_or, Bool.not_eq_true'] at hrange
    have hknown (u : Instant)
        (hu : (if isYear u.year then Except.ok u else .error Fault.impossible) = .ok t) :
        u = t ∧ isYear t.year = true := by
      split at hu
      · next hyear =>
        cases hu
        exact ⟨rfl, hyear⟩
      · cases hu
    obtain ⟨rfl, hyear⟩ := hknown _ h
    refine removeOffset_proper ⟨?_, readWithin_range hmonth, ⟨(readWithin_range hday).1, ?_⟩,
      (readWithin_range hhour).2, hminute'.2, ?_, ?_⟩ _ hyear
    all_goals dsimp only
    · exact Bool.not_eq_false _ ▸ hrange.1.2
    · omega
    · split <;> omega
    · split
      · next hleap => exact .inr ⟨rfl, by omega⟩
      · exact .inl hnano

/-! ## The clock -/

section Days

/-- Of a century `c` of an era, the four years `q` in it and the day `s` in these, the correction
for leap days leaves the years and moves the day by one at most, and only at the end. -/
theorem correction_eq {c q s d : Int} (hc : 0 ≤ c ∧ c ≤ 3) (hq : 0 ≤ q ∧ q ≤ 24)
    (hs : 0 ≤ s ∧ s ≤ 1460) (hlast : 1461 * q + s < 36524) (hd : d = 36524 * c + 1461 * q + s) :
    ∃ t, (t = 0 ∨ t = 1 ∧ 1364 ≤ s) ∧ (s = 1460 → t = 1) ∧
      d - d / 1460 + d / 36524 - d / 146096 = 365 * (100 * c + 4 * q) + (s - t) := by
  have hcentury : d / 36524 = c := by omega
  have hera : d / 146096 = 0 := by omega
  rw [hcentury, hera]
  exact ⟨(24 * c + q + s) / 1460, by omega, by omega, by omega⟩

/-- The day of the year, for years that begin in March: only a year before a leap day has a day
with the number 365. -/
theorem dayOfYear_split {c q s d y : Int} (hc : 0 ≤ c ∧ c ≤ 3) (hq : 0 ≤ q ∧ q ≤ 24)
    (hs : 0 ≤ s ∧ s ≤ 1460) (hlast : 1461 * q + s < 36524) (hd : d = 36524 * c + 1461 * q + s)
    (hy : y = (d - d / 1460 + d / 36524 - d / 146096) / 365) :
    (0 ≤ d - (365 * y + y / 4 - y / 100) ∧ d - (365 * y + y / 4 - y / 100) ≤ 365) ∧
      (d - (365 * y + y / 4 - y / 100) = 365 → (y + 1) % 4 = 0 ∧ (y + 1) % 100 ≠ 0) := by
  obtain ⟨t, ht, hend, hcorrection⟩ := correction_eq hc hq hs hlast hd
  rw [hcorrection] at hy
  clear hcorrection
  have hyear : y = 100 * c + 4 * q + (s - t) / 365 := by omega
  have hfirst : 0 ≤ (s - t) / 365 ∧ (s - t) / 365 ≤ 3 := by omega
  have hrest : (s - t) / 365 * 365 ≤ s - t ∧ s - t ≤ (s - t) / 365 * 365 + 364 := by omega
  -- which of the four years it is
  generalize (s - t) / 365 = j at hyear hfirst hrest
  have hfours : y / 4 = 25 * c + q := by omega
  have hcenturies : y / 100 = c := by omega
  have hday : d - (365 * y + (25 * c + q) - c) = s - 365 * j := by omega
  rw [hfours, hcenturies, hday]
  refine ⟨by omega, fun hleap => ?_⟩
  have hlastDay : s = 1460 := by omega
  omega

theorem dayOfYear_spec {d y : Int} (hd : 0 ≤ d ∧ d < 146097)
    (hy : y = (d - d / 1460 + d / 36524 - d / 146096) / 365) :
    (0 ≤ d - (365 * y + y / 4 - y / 100) ∧ d - (365 * y + y / 4 - y / 100) ≤ 365) ∧
      (d - (365 * y + y / 4 - y / 100) = 365 → isLeap (y + 1) = true) := by
  by_cases hlast : d = 146096
  · -- the leap day of the year 400 is the last day of an era
    have hyear : y = 399 := by omega
    rw [hlast, hyear]
    decide
  · obtain ⟨hbounds, hleap⟩ := dayOfYear_split (c := d / 36524) (q := d % 36524 / 1461)
      (s := d % 36524 % 1461) (by omega) (by omega) (by omega) (by omega) (by omega) hy
    refine ⟨hbounds, fun hday => ?_⟩
    obtain ⟨hfour, hcentury⟩ := hleap hday
    simp [isLeap, hfour, hcentury]

/-- Eras do not matter to leap years. -/
theorem isLeap_era (year era : Int) : isLeap (year + era * 400) = isLeap year := by
  have h₄ : (year + era * 400) % 4 = year % 4 := by omega
  have h₁₀₀ : (year + era * 400) % 100 = year % 100 := by omega
  have h₄₀₀ : (year + era * 400) % 400 = year % 400 := by omega
  rw [isLeap, isLeap, h₄, h₁₀₀, h₄₀₀]

/-- The date of a day exists. -/
theorem dateOfDayNumber_exists (number : Int) : Exists (dateOfDayNumber number) := by
  have hd : 0 ≤ (number + 719468) % 146097 ∧ (number + 719468) % 146097 < 146097 := by omega
  rw [dateOfDayNumber]
  generalize (number + 719468) / 146097 = era
  generalize (number + 719468) % 146097 = d at hd
  generalize hy : (d - d / 1460 + d / 36524 - d / 146096) / 365 = y
  obtain ⟨hday, hleap⟩ := dayOfYear_spec hd hy.symm
  generalize d - (365 * y + y / 4 - y / 100) = day at hday hleap
  generalize hm : (5 * day + 2) / 153 = m
  refine ⟨?_, ?_, ?_⟩
  · dsimp only
    split <;> omega
  · dsimp only
    omega
  · have hmonth : (m = 0 ∨ m = 2 ∨ m = 4 ∨ m = 5 ∨ m = 7 ∨ m = 9 ∨ m = 10) ∨
        (m = 1 ∨ m = 3 ∨ m = 6 ∨ m = 8) ∨ m = 11 := by omega
    obtain hlong | hshort | rfl := hmonth
    · rcases hlong with rfl | rfl | rfl | rfl | rfl | rfl | rfl
      all_goals
        change (day - _ + 1).toNat ≤ 31
        omega
    · rcases hshort with rfl | rfl | rfl | rfl
      all_goals
        change (day - _ + 1).toNat ≤ 30
        omega
    · -- February, which began with day 337
      change (day - 337 + 1).toNat ≤ if isLeap (y + era * 400 + 1) then 29 else 28
      have hyear : y + era * 400 + 1 = y + 1 + era * 400 := by omega
      rw [hyear, isLeap_era]
      split
      · omega
      · next hnot =>
        have hshort : day ≠ 365 := fun hlast => hnot (hleap hlast)
        omega

end Days

/-- **A clock shows moments in the calendar**, as long as the calendar knows the year. -/
theorem ofEpochNanos_proper {nanos : Int} (h : isYear (ofEpochNanos nanos).year = true) :
    (ofEpochNanos nanos).IsProper := by
  obtain ⟨hmonth, hday⟩ := dateOfDayNumber_exists (nanos / 1000000000 / 86400)
  refine ⟨h, hmonth, hday, ?_, ?_, ?_, .inl ?_⟩
  all_goals
    simp only [ofEpochNanos]
    omega

end Workflow.Instant
