import Workflow.Proofs.Decimal.Shortest
import Workflow.Proofs.Decimal.Numeral
import Workflow.Json.Printer
import Workflow.Json.Syntax

/-!
# Numbers read back

A number that was written is read, whatever follows it that does not go on with the number
(`Number.reread_spec`). Whole numbers are read as they were. Of a float nothing is said but
that its text is read: the reader scales by a power of ten in floating point and may end up at a
neighbour of what was written. What it ends up at is `Number.reread`.
-/

namespace Workflow.Json

open Decimal (isDigit foldDigits numeralText)

/-- A text that does not go on with a number. -/
def Ends (rest : List Char) : Prop :=
  ∀ c ∈ rest.head?, isDigit c = false ∧ c ≠ '.' ∧ c ≠ 'e' ∧ c ≠ 'E'

theorem Ends.digit {rest : List Char} (h : Ends rest) : ∀ c ∈ rest.head?, isDigit c = false :=
  fun c hc => (h c hc).1

theorem noDigit_cons {c : Char} (h : isDigit c = false) (rest : List Char) :
    ∀ d ∈ (c :: rest).head?, isDigit d = false := by
  intro d hd
  cases hd
  exact h

theorem ends_nil : Ends [] := fun _ hc => by cases hc

theorem ends_cons {c : Char} {rest : List Char}
    (h : isDigit c = false ∧ c ≠ '.' ∧ c ≠ 'e' ∧ c ≠ 'E') : Ends (c :: rest) := by
  intro d hd
  cases hd
  exact h

/-! ## The parts of a number -/

section Parts

variable {neg : Bool} {ds after rest : List Char} {digits : Nat} {exp : Int}

/-- Digits that fit into 64 bits are all gathered. -/
theorem gather_all {n count : Nat} (h : foldDigits n ds ≤ maxWhole) :
    gather n count ds = (foldDigits n ds, count + ds.length, []) := by
  induction ds generalizing n count with
  | nil => rfl
  | cons d ds ih =>
    have hstep : n * 10 + (d.toNat - '0'.toNat) ≤ maxWhole :=
      Nat.le_trans (Decimal.le_foldDigits _ ds) h
    rw [gather, if_pos hstep, ih h, List.length_cons, Nat.add_assoc, Nat.add_comm 1]
    rfl

/-- What is gathered fits into 64 bits. -/
theorem gather_le {n count : Nat} (h : n ≤ maxWhole) : (gather n count ds).1 ≤ maxWhole := by
  induction ds generalizing n count with
  | nil => exact h
  | cons d ds ih =>
    rw [gather]
    split
    · next hle => exact ih hle
    · exact h

/-- A number that can be scaled is read. -/
theorem floatOf_ok (neg : Bool)
    (h : ∃ y, scaleFloat 8 digits.toUInt64.toFloat exp = some y) :
    ∃ x, ∀ rest, floatOf neg digits exp rest = .ok (.float x, rest) := by
  obtain ⟨y, hy⟩ := h
  refine ⟨if neg then -y else y, fun rest => ?_⟩
  rw [floatOf, hy]

theorem readFloatEnd_ends (h : Ends rest) :
    readFloatEnd neg digits exp rest = floatOf neg digits exp rest := by
  cases rest with
  | nil => rfl
  | cons c rest =>
    obtain ⟨-, -, he, hE⟩ := h c rfl
    simp [readFloatEnd, he, hE]

/-- What is read behind the first digits of a number. -/
def afterDigits (neg : Bool) (digits : Nat) : List Char → Reading Number
  | '.' :: r => readFraction neg digits 0 r
  | 'e' :: r => readFloatEnd neg digits 0 ('e' :: r)
  | 'E' :: r => readFloatEnd neg digits 0 ('E' :: r)
  | rest => .ok (wholeOf neg digits, rest)

theorem afterDigits_ends (h : Ends rest) :
    afterDigits neg digits rest = .ok (wholeOf neg digits, rest) := by
  cases rest with
  | nil => rfl
  | cons c rest =>
    obtain ⟨-, hpoint, he, hE⟩ := h c rfl
    simp [afterDigits, hpoint, he, hE]

/-- The first digits of a number. -/
theorem readNumber_digits (hd : ∀ c ∈ ds, isDigit c = true) (hne : ds ≠ [])
    (hzero : ds.head? = some '0' → ds.length = 1) (hmax : foldDigits 0 ds ≤ maxWhole)
    (ha : ∀ c ∈ after.head?, isDigit c = false) :
    readNumber neg (ds ++ after) = afterDigits neg (foldDigits 0 ds) after := by
  obtain ⟨c, cs, rfl⟩ := List.exists_cons_of_ne_nil hne
  have hc := hd c (List.mem_cons_self ..)
  have hlead : ¬(c = '0' && (c :: cs).length > 1) = true := by
    simp only [Bool.and_eq_true, decide_eq_true_eq, not_and]
    intro h
    rw [hzero (by rw [h]; rfl)]
    decide
  rw [List.cons_append, readNumber]
  simp only [hc, Bool.not_true, Bool.false_eq_true, if_false]
  rw [← List.cons_append, Decimal.takeWhile_digits hd ha, Decimal.dropWhile_digits hd ha,
    if_neg hlead, gather_all hmax]
  cases after with
  | nil => rfl
  | cons a as =>
    by_cases hpoint : a = '.'
    · subst hpoint
      rfl
    · by_cases he : a = 'e'
      · subst he
        rfl
      · by_cases hE : a = 'E'
        · subst hE
          rfl
        · simp [afterDigits, hpoint, he, hE]

/-- The digits behind a point. -/
theorem readFraction_digits (hd : ∀ c ∈ ds, isDigit c = true) (hne : ds ≠ [])
    (ha : ∀ c ∈ after.head?, isDigit c = false) :
    readFraction neg digits exp (ds ++ after) =
      readFloatEnd neg (gather digits 0 ds).1 (exp - (gather digits 0 ds).2.1) after := by
  obtain ⟨c, cs, rfl⟩ := List.exists_cons_of_ne_nil hne
  rw [readFraction, Decimal.takeWhile_digits hd ha, Decimal.dropWhile_digits hd ha]

theorem pastMaxExponent_none {n : Nat} (h : foldDigits n ds ≤ maxExponent)
    (ha : ∀ c ∈ after.head?, isDigit c = false) : pastMaxExponent? n (ds ++ after) = none := by
  induction ds generalizing n with
  | nil =>
    cases after with
    | nil => rfl
    | cons c cs => simp [pastMaxExponent?, ha c rfl]
  | cons d ds ih =>
    have hstep : n * 10 + (d.toNat - '0'.toNat) ≤ maxExponent :=
      Nat.le_trans (Decimal.le_foldDigits _ ds) h
    rw [List.cons_append, pastMaxExponent?]
    split
    · rw [if_neg (Nat.not_lt_of_le hstep)]
      exact ih h
    · rfl

/-- An exponent, with its sign. -/
theorem readFloatEnd_exponent {e : Int} (he : e.natAbs ≤ maxExponent)
    (hr : ∀ c ∈ rest.head?, isDigit c = false) :
    readFloatEnd neg digits exp
        ('e' :: ((if e < 0 then ['-'] else ['+']) ++ numeralText e.natAbs ++ rest)) =
      floatOf neg digits (exp + e) rest := by
  -- the sign is not looked at until the end
  have hsign : (e < 0 → exp - (e.natAbs : Int) = exp + e) ∧ (¬e < 0 → exp + (e.natAbs : Int) = exp + e) := by
    omega
  generalize e.natAbs = n at he hsign
  have hd := Decimal.isDigit_numeralText n
  have hpast : pastMaxExponent? 0 (numeralText n ++ rest) = none :=
    pastMaxExponent_none (by rw [Decimal.foldDigits_numeralText]; exact he) hr
  have htake := Decimal.takeWhile_digits hd hr
  have hdrop := Decimal.dropWhile_digits hd hr
  have hsize := Decimal.foldDigits_numeralText n
  obtain ⟨c, cs, hcs⟩ := List.exists_cons_of_ne_nil (Decimal.numeralText_ne_nil n)
  have hc : isDigit c = true := hd c (by rw [hcs]; exact List.mem_cons_self ..)
  rw [hcs, List.cons_append] at hpast htake hdrop
  rw [hcs] at hsize
  rw [hcs]
  split
  · next hneg => simp [readFloatEnd, readExponent, hc, hpast, htake, hdrop, hsize, hsign.1 hneg]
  · next hnat => simp [readFloatEnd, readExponent, hc, hpast, htake, hdrop, hsize, hsign.2 hnat]

end Parts

/-! ## Numbers as they are written -/

theorem maxWhole_eq : maxWhole = 2 ^ 64 - 1 := rfl

/-- A number with a point and no exponent. -/
theorem readNumber_point (neg : Bool) {ds es : List Char} (hd : ∀ c ∈ ds, isDigit c = true)
    (hne : ds ≠ []) (hzero : ds.head? = some '0' → ds.length = 1) (hlen : ds.length ≤ 16)
    (he : ∀ c ∈ es, isDigit c = true) (hne' : es ≠ []) :
    ∃ x, ∀ rest, Ends rest →
      readNumber neg (ds ++ '.' :: es ++ rest) = .ok (.float x, rest) := by
  have hmax : foldDigits 0 ds ≤ maxWhole := by
    have hlt := Decimal.foldDigits_lt (n := 0) hd
    have hten : 10 ^ ds.length ≤ 10 ^ 16 := Nat.pow_le_pow_right (by decide) hlen
    rw [maxWhole_eq]
    omega
  have hdigits : (gather (foldDigits 0 ds) 0 es).1 < 2 ^ 64 :=
    Nat.lt_of_le_of_lt (gather_le hmax) (by decide)
  have hdown : (0 - (gather (foldDigits 0 ds) 0 es).2.1 : Int) ≤ 0 := by omega
  obtain ⟨x, hx⟩ := floatOf_ok neg (Decimal.scaleFloat_down hdigits hdown 8)
  refine ⟨x, fun rest hrest => ?_⟩
  rw [List.append_assoc, readNumber_digits hd hne hzero hmax (by rintro c ⟨⟩; rfl),
    List.cons_append, afterDigits, readFraction_digits he hne' hrest.digit,
    readFloatEnd_ends hrest, hx]

/-- A number with an exponent. -/
theorem readNumber_scientific (neg : Bool) {dg : Decimal.Digits} (h : dg.Readable) :
    ∃ x, ∀ rest, Ends rest →
      readNumber neg (floatLayout.scientific (numeralText dg.numeral)
          (dg.scale + (numeralText dg.numeral).length - 1) ++ rest) = .ok (.float x, rest) := by
  obtain ⟨x, hx⟩ := floatOf_ok neg (h.scaled 7)
  have hd := Decimal.isDigit_numeralText dg.numeral
  have hfold := Decimal.foldDigits_numeralText dg.numeral
  have hmax : foldDigits 0 (numeralText dg.numeral) ≤ maxWhole := by
    have hsmall := h.small
    rw [hfold, maxWhole_eq]
    omega
  have hlen : (numeralText dg.numeral).length ≤ 19 :=
    Decimal.length_numeralText_le (by decide) (by have hsmall := h.small; omega)
  have hlow := h.fine
  have hhigh := h.scale_le
  refine ⟨x, fun rest hrest => ?_⟩
  rw [← hx rest]
  generalize he : dg.scale + ((numeralText dg.numeral).length : Int) - 1 = e
  have hexp : e.natAbs ≤ maxExponent := by
    change e.natAbs ≤ 2 ^ 31 - 1
    omega
  cases hds : numeralText dg.numeral with
  | nil => exact absurd hds (Decimal.numeralText_ne_nil _)
  | cons d ds =>
    rw [hds] at hd hfold hmax he
    have hfirst : foldDigits 0 [d] ≤ maxWhole :=
      Nat.le_trans (Decimal.le_foldDigits (foldDigits 0 [d]) ds) hmax
    have hd₁ : ∀ c ∈ [d], isDigit c = true := fun c hc => by
      cases List.mem_singleton.mp hc
      exact hd d (List.mem_cons_self ..)
    have hone {a : Char} (ha : isDigit a = false) (tail : List Char) :
        readNumber neg ([d] ++ a :: tail) = afterDigits neg (foldDigits 0 [d]) (a :: tail) :=
      readNumber_digits hd₁ (by simp) (fun _ => rfl) hfirst (noDigit_cons ha tail)
    have he' : isDigit 'e' = false := rfl
    cases ds with
    | nil =>
      have hlayout : floatLayout.scientific [d] e =
          [d] ++ 'e' :: ((if e < 0 then ['-'] else ['+']) ++ numeralText e.natAbs) := rfl
      rw [hlayout, List.append_assoc, List.cons_append (a := 'e'), hone he', hfold, afterDigits,
        readFloatEnd_exponent hexp hrest.digit]
      congr 1
      rw [List.length_singleton] at he
      omega
    | cons d' ds =>
      have hd' : ∀ c ∈ d' :: ds, isDigit c = true := fun c hc => hd c (List.mem_cons_of_mem _ hc)
      have hgather : gather (foldDigits 0 [d]) 0 (d' :: ds) =
          (foldDigits (foldDigits 0 [d]) (d' :: ds), 0 + (d' :: ds).length, []) :=
        gather_all hmax
      have hall : foldDigits (foldDigits 0 [d]) (d' :: ds) = dg.numeral := hfold
      have hsplit (tail : List Char) :
          (d :: '.' :: d' :: ds) ++ tail = [d] ++ '.' :: ((d' :: ds) ++ tail) := rfl
      have hlayout : floatLayout.scientific (d :: d' :: ds) e = (d :: '.' :: d' :: ds) ++
          'e' :: ((if e < 0 then ['-'] else ['+']) ++ numeralText e.natAbs) := rfl
      rw [hlayout, List.append_assoc, hsplit, hone (rfl : isDigit '.' = false), afterDigits,
        List.cons_append (a := 'e'), readFraction_digits hd' (by simp) (noDigit_cons he' _), hgather,
        hall, readFloatEnd_exponent hexp hrest.digit]
      congr 1
      simp only [List.length_cons] at he ⊢
      omega

theorem isDigit_zeros (n : Nat) : ∀ c ∈ Decimal.zeros n, isDigit c = true := fun c hc => by
  rw [(List.mem_replicate.mp hc).2]
  rfl

/-- A number that is written positionally. -/
theorem readNumber_positional (neg : Bool) {ds : List Char} {e : Int}
    (hd : ∀ c ∈ ds, isDigit c = true) (hne : ds ≠ [])
    (hzero : ds.head? = some '0' → ds.length = 1 ∧ e = 0) (he : e < 16) :
    ∃ x, ∀ rest, Ends rest →
      readNumber neg (floatLayout.positional ds e ++ rest) = .ok (.float x, rest) := by
  rw [Decimal.Layout.positional]
  split
  · have hlead : ∀ c ∈ ['0'], isDigit c = true := List.forall_mem_singleton.mpr rfl
    refine readNumber_point neg hlead (by simp) (fun _ => rfl) (by decide) ?_ ?_
    · exact List.forall_mem_append.mpr ⟨isDigit_zeros _, hd⟩
    · simp [hne]
  · next hnat =>
    obtain ⟨c, cs, rfl⟩ := List.exists_cons_of_ne_nil hne
    dsimp only
    split
    · next hlen =>
      rw [floatLayout, if_pos rfl]
      refine readNumber_point neg (List.forall_mem_append.mpr ⟨hd, isDigit_zeros _⟩) (by simp)
        ?_ ?_ ?_ (by simp)
      · intro hhead
        obtain ⟨hone, rfl⟩ := hzero hhead
        simpa [Decimal.zeros] using hone
      · simp only [List.length_append, Decimal.zeros, List.length_replicate]
        omega
      · intro d hd
        cases List.mem_singleton.mp hd
        rfl
    · next hlen =>
      refine readNumber_point neg (fun d hd' => hd d (List.mem_of_mem_take hd')) (by simp) ?_ ?_
        (fun d hd' => hd d (List.mem_of_mem_drop hd')) ?_
      · intro hhead
        have hone := (hzero hhead).1
        omega
      · rw [List.length_take]
        omega
      · rw [ne_eq, List.drop_eq_nil_iff]
        exact hlen

/-- **A finite float is read, whatever follows.** -/
theorem readNumber_float {x : Float} (hx : x.isFinite = true) (neg : Bool) :
    ∃ y, ∀ rest, Ends rest →
      readNumber neg (floatLayout.write (Decimal.shortest x) ++ rest) = .ok (.float y, rest) := by
  rw [Decimal.Layout.write]
  rcases Decimal.shortest_readable hx with hzero | hreadable
  · rw [hzero]
    exact readNumber_positional neg (Decimal.isDigit_numeralText 0) (Decimal.numeralText_ne_nil 0)
      (fun _ => ⟨rfl, rfl⟩) (by decide)
  · split
    · next hrange =>
      have hhead := Decimal.head_numeralText (Nat.ne_of_gt hreadable.pos)
      simp only [Bool.and_eq_true, decide_eq_true_eq] at hrange
      exact readNumber_positional neg (Decimal.isDigit_numeralText _)
        (Decimal.numeralText_ne_nil _) (fun h => absurd h hhead) hrange.2
    · exact readNumber_scientific neg hreadable

/-- A whole number is read as it is. -/
theorem readNumber_whole (neg : Bool) {n : Nat} (hn : n ≤ maxWhole) {rest : List Char}
    (hr : Ends rest) : readNumber neg (numeralText n ++ rest) = .ok (wholeOf neg n, rest) := by
  have hzero : (numeralText n).head? = some '0' → (numeralText n).length = 1 := by
    intro hhead
    by_cases h0 : n = 0
    · rw [h0]
      rfl
    · exact absurd hhead (Decimal.head_numeralText h0)
  have hfold := Decimal.foldDigits_numeralText n
  rw [readNumber_digits (Decimal.isDigit_numeralText n) (Decimal.numeralText_ne_nil n) hzero
    (by rw [hfold]; exact hn) hr.digit, hfold, afterDigits_ends hr]

/-! ## Numbers as values -/

section Values

variable {fuel depth : Nat} {cs rest : List Char} {n : Number}

/-- What is read as a number begins with a digit. -/
theorem head_of_readNumber {neg : Bool} (h : readNumber neg cs = .ok (n, rest)) :
    ∃ c tail, cs = c :: tail ∧ isDigit c = true := by
  cases cs with
  | nil => cases h
  | cons c tail =>
    refine ⟨c, tail, rfl, ?_⟩
    by_contra hc
    rw [Bool.not_eq_true] at hc
    simp [readNumber, hc, failAt] at h

theorem ne_of_isDigit {c d : Char} (hc : isDigit c = true) (hd : isDigit d = false) : c ≠ d := by
  rintro rfl
  rw [hd] at hc
  cases hc

theorem isSpace_of_isDigit {c : Char} (hc : isDigit c = true) : isSpace c = false := by
  simp only [isSpace, Bool.or_eq_false_iff, decide_eq_false_iff_not]
  exact ⟨⟨⟨ne_of_isDigit hc rfl, ne_of_isDigit hc rfl⟩, ne_of_isDigit hc rfl⟩, ne_of_isDigit hc rfl⟩

theorem readValue_digits (h : readNumber false cs = .ok (n, rest)) :
    readValue (fuel + 1) depth cs = .ok (.num n, rest) := by
  obtain ⟨c, tail, rfl, hc⟩ := head_of_readNumber h
  have hskip : skipSpace (c :: tail) = c :: tail :=
    List.dropWhile_cons_of_neg (by rw [isSpace_of_isDigit hc]; exact Bool.false_ne_true)
  have hother {d : Char} (hd : isDigit d = false) : ¬c = d := ne_of_isDigit hc hd
  rw [readValue, hskip]
  dsimp only
  rw [if_neg (hother rfl), if_neg (hother rfl), if_neg (hother rfl), if_neg (hother rfl),
    if_neg (hother rfl), if_pos hc, h]
  rfl

theorem readValue_minus (h : readNumber true cs = .ok (n, rest)) :
    readValue (fuel + 1) depth ('-' :: cs) = .ok (.num n, rest) := by
  have hskip : skipSpace ('-' :: cs) = '-' :: cs := rfl
  rw [readValue, hskip]
  dsimp only
  rw [if_neg (by decide), if_neg (by decide), if_neg (by decide), if_neg (by decide), if_pos rfl, h]
  rfl

theorem readValue_null : readValue (fuel + 1) depth (['n', 'u', 'l', 'l'] ++ rest) =
    .ok (.null, rest) := by
  rw [readValue]
  rfl

end Values

/-- A value without parts. -/
def IsScalar (v : Json) : Prop := v = .null ∨ ∃ n, v = .num n

/-- A float is read as a number or as null, whatever follows. -/
theorem readValue_floatText (x : Float) : ∃ v : Json, v.IsScalar ∧ ∀ fuel depth rest, Ends rest →
    readValue (fuel + 1) depth (floatText x ++ rest) = .ok (v, rest) := by
  rw [floatText]
  split
  · next hx =>
    rw [Decimal.Layout.writeFloat]
    split
    · obtain ⟨y, hy⟩ := readNumber_float hx true
      exact ⟨.num (.float y), .inr ⟨_, rfl⟩, fun _ _ rest hr => readValue_minus (hy rest hr)⟩
    · obtain ⟨y, hy⟩ := readNumber_float hx false
      exact ⟨.num (.float y), .inr ⟨_, rfl⟩, fun _ _ rest hr => readValue_digits (hy rest hr)⟩
  · exact ⟨.null, .inl rfl, fun _ _ _ _ => readValue_null⟩

/-- A number begins with a digit, with its sign or as null does. -/
theorem head_floatText (x : Float) :
    ∃ c tail, floatText x = c :: tail ∧ (isDigit c = true ∨ c = '-' ∨ c = 'n') := by
  rw [floatText]
  split
  · next hx =>
    rw [Decimal.Layout.writeFloat]
    split
    · exact ⟨'-', _, rfl, .inr (.inl rfl)⟩
    · obtain ⟨y, hy⟩ := readNumber_float hx false
      obtain ⟨c, tail, heq, hc⟩ := head_of_readNumber (hy [] ends_nil)
      rw [List.append_nil] at heq
      exact ⟨c, tail, heq, .inl hc⟩
  · exact ⟨'n', _, rfl, .inr (.inr rfl)⟩

theorem head_number (n : Number) :
    ∃ c tail, n.write = c :: tail ∧ (isDigit c = true ∨ c = '-' ∨ c = 'n') := by
  cases n with
  | float x => exact head_floatText x
  | int i =>
    rw [Number.write]
    split
    · split
      · exact ⟨'-', _, rfl, .inr (.inl rfl)⟩
      · obtain ⟨c, tail, hcs⟩ := List.exists_cons_of_ne_nil (Decimal.numeralText_ne_nil i.natAbs)
        have hc := Decimal.isDigit_numeralText i.natAbs c (by rw [hcs]; exact List.mem_cons_self ..)
        exact ⟨c, tail, hcs, .inl hc⟩
    · exact head_floatText _

/-- **A number is read, whatever follows.** -/
theorem readValue_number (n : Number) : ∃ v : Json, v.IsScalar ∧ ∀ fuel depth rest, Ends rest →
    readValue (fuel + 1) depth (n.write ++ rest) = .ok (v, rest) := by
  cases n with
  | float x => exact readValue_floatText x
  | int i =>
    rw [Number.write]
    split
    · next hwhole =>
      simp only [isWhole, Bool.and_eq_true, decide_eq_true_eq] at hwhole
      have hmax : i.natAbs ≤ maxWhole := by
        rw [maxWhole_eq]
        omega
      split
      · exact ⟨_, .inr ⟨_, rfl⟩, fun _ _ rest hr => readValue_minus (readNumber_whole true hmax hr)⟩
      · exact ⟨_, .inr ⟨_, rfl⟩,
          fun _ _ rest hr => readValue_digits (readNumber_whole false hmax hr)⟩
    · exact readValue_floatText _

end Workflow.Json

namespace Workflow

/-- What is read where a number was written. -/
def Number.reread (n : Number) : Json :=
  match Json.readValue 1 0 n.write with
  | .ok (v, _) => v
  | .error _ => .null

theorem Number.reread_spec (n : Number) : n.reread.IsScalar ∧ ∀ fuel depth rest, Json.Ends rest →
    Json.readValue (fuel + 1) depth (n.write ++ rest) = .ok (n.reread, rest) := by
  obtain ⟨v, hv, hread⟩ := Json.readValue_number n
  have halone := hread 0 0 [] Json.ends_nil
  rw [List.append_nil] at halone
  have heq : n.reread = v := by rw [reread, halone]
  rw [heq]
  exact ⟨hv, hread⟩

end Workflow
