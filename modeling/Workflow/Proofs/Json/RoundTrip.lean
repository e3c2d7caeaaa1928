import Workflow.Proofs.Except
import Workflow.Proofs.Json.Number

/-!
# Values read back

An indented text is read again exactly if the value does not nest deeper than the reader goes
(`readValue_written`). What is read is `reread`: the same value, except that floats may have
moved (`Number.reread`). In particular all texts, all names and their order stay.

The writer has no limit of its own, so a value that nests too deep is written without complaint
and refused when it is read.
-/

namespace Workflow.Json

/-! ## Quoted texts -/

theorem hexValue_digitChar : ∀ d < 16, hexValue? (Nat.digitChar d) = some d := by decide

/-- A control character is read from its code. -/
theorem readCodeEscape_control {c : Char} (h : c.toNat < 0x20) (tail : List Char) :
    readCodeEscape ('0' :: '0' :: Nat.digitChar (c.toNat / 16) ::
      Nat.digitChar (c.toNat % 16) :: tail) = .ok (c, tail) := by
  have h₀ : hexValue? '0' = some 0 := rfl
  have h₁ := hexValue_digitChar (c.toNat / 16) (by omega)
  have h₂ := hexValue_digitChar (c.toNat % 16) (by omega)
  have hcode : ((0 * 16 + 0) * 16 + c.toNat / 16) * 16 + c.toNat % 16 = c.toNat := by omega
  have hhex : readHex ('0' :: '0' :: Nat.digitChar (c.toNat / 16) ::
      Nat.digitChar (c.toNat % 16) :: tail) = .ok (c.toNat, tail) := by
    rw [readHex]
    simp only [h₀, h₁, h₂, hcode]
  have hhigh : ¬(0xDC00 ≤ c.toNat && c.toNat ≤ 0xDFFF) = true := by
    simp only [Bool.and_eq_true, decide_eq_true_eq]
    omega
  have hplain : (c.toNat < 0xD800 || 0xDBFF < c.toNat) = true := by
    simp only [Bool.or_eq_true, decide_eq_true_eq]
    omega
  rw [readCodeEscape, hhex]
  dsimp only
  rw [if_neg hhigh, if_pos hplain, Char.ofNat_toNat]

/-- What stands for a character in quotes is read as that character. -/
theorem readQuoted_escapeChar (fuel : Nat) (acc : List Char) (c : Char) (tail : List Char) :
    readQuoted (fuel + 1) acc (escapeChar c ++ tail) = readQuoted fuel (c :: acc) tail := by
  rw [escapeChar]
  split
  · next h => subst h; rfl
  split
  · next h => subst h; rfl
  split
  · next h => subst h; rfl
  split
  · next h => subst h; rfl
  split
  · next h => subst h; rfl
  split
  · next h => subst h; rfl
  split
  · next h => subst h; rfl
  split
  · next hcontrol =>
    have hescape : readEscape ('u' :: '0' :: '0' :: Nat.digitChar (c.toNat / 16) ::
        Nat.digitChar (c.toNat % 16) :: tail) = .ok (c, tail) := readCodeEscape_control hcontrol tail
    change readQuoted (fuel + 1) acc ('\\' :: 'u' :: '0' :: '0' ::
      Nat.digitChar (c.toNat / 16) :: Nat.digitChar (c.toNat % 16) :: tail) = _
    rw [readQuoted, if_neg (by decide), if_pos rfl, hescape]
  · next hquote hslash _ _ _ _ _ hcontrol =>
    rw [List.singleton_append, readQuoted, if_neg hquote, if_neg hslash, if_neg hcontrol]

/-- Quoted characters are read up to the closing quote. -/
theorem readQuoted_flatMap (cs : List Char) (fuel : Nat) (acc rest : List Char)
    (hf : cs.length < fuel) :
    readQuoted fuel acc (cs.flatMap escapeChar ++ '"' :: rest) =
      .ok (String.ofList (acc.reverse ++ cs), rest) := by
  induction cs generalizing fuel acc with
  | nil =>
    obtain ⟨fuel, rfl⟩ := Nat.exists_eq_succ_of_ne_zero (Nat.ne_of_gt hf)
    rw [List.flatMap_nil, List.nil_append, readQuoted, if_pos rfl, List.append_nil]
  | cons c cs ih =>
    obtain ⟨fuel, rfl⟩ := Nat.exists_eq_succ_of_ne_zero (Nat.ne_of_gt (Nat.lt_of_le_of_lt
      (Nat.zero_le _) hf))
    rw [List.flatMap_cons, List.append_assoc, readQuoted_escapeChar,
      ih fuel (c :: acc) (Nat.lt_of_succ_lt_succ hf), List.reverse_cons, List.append_assoc]
    rfl

theorem length_le_flatMap (cs : List Char) : cs.length ≤ (cs.flatMap escapeChar).length := by
  induction cs with
  | nil => exact Nat.le_refl 0
  | cons c cs ih =>
    have hone : 1 ≤ (escapeChar c).length := by
      rw [escapeChar]
      split_ifs <;> simp
    rw [List.flatMap_cons, List.length_append, List.length_cons]
    omega

/-- **A quoted text is read as it was.** -/
theorem readString_quote (s : String) (rest : List Char) :
    readString (s.toList.flatMap escapeChar ++ '"' :: rest) = .ok (s, rest) := by
  rw [readString, readQuoted_flatMap, List.reverse_nil, List.nil_append, String.ofList_toList]
  have hlen := length_le_flatMap s.toList
  rw [List.length_append]
  omega

/-! ## Values: what is kept and how deep they nest -/

mutual

/-- How many containers are nested in each other. -/
def depth : Json → Nat
  | .arr items => depthItems items + 1
  | .obj members => depthMembers members + 1
  | _ => 0

/-- The depth of the deepest item. -/
def depthItems : List Json → Nat
  | [] => 0
  | v :: rest => max (depth v) (depthItems rest)

/-- The depth of the deepest member. -/
def depthMembers : List (String × Json) → Nat
  | [] => 0
  | (_, v) :: rest => max (depth v) (depthMembers rest)

end

mutual

/-- The value that is read where a value was written. -/
def reread : Json → Json
  | .num n => n.reread
  | .arr items => .arr (rereadItems items)
  | .obj members => .obj (rereadMembers members)
  | v => v

/-- `reread` on each item. -/
def rereadItems : List Json → List Json
  | [] => []
  | v :: rest => reread v :: rereadItems rest

/-- `reread` on each member. -/
def rereadMembers : List (String × Json) → List (String × Json)
  | [] => []
  | (k, v) :: rest => (k, reread v) :: rereadMembers rest

end

/-! ## Indented texts -/

section Layout

variable {fuel d k : Nat} {first : Bool} {c : Char} {cs rest : List Char}

theorem skipSpace_cons (h : isSpace c = false) : skipSpace (c :: cs) = c :: cs :=
  List.dropWhile_cons_of_neg (by rw [h]; exact Bool.false_ne_true)

theorem skipSpace_newline (k : Nat) (cs : List Char) : skipSpace (newline k ++ cs) = skipSpace cs := by
  refine List.dropWhile_append_of_pos fun c hc => ?_
  rcases List.mem_cons.mp hc with rfl | hc
  · rfl
  · rw [(List.mem_replicate.mp hc).2]
    rfl

theorem ends_newline (k : Nat) (cs : List Char) : Ends (newline k ++ cs) :=
  ends_cons ⟨rfl, by decide, by decide, by decide⟩

/-- A value begins with a character that is neither a blank nor a closing bracket. -/
theorem head_writeIndented (v : Json) (k : Nat) :
    ∃ c tail, v.writeIndented k = c :: tail ∧ isSpace c = false ∧ c ≠ ']' := by
  cases v with
  | null => exact ⟨'n', _, rfl, rfl, by decide⟩
  | bool b => cases b <;> exact ⟨_, _, rfl, rfl, by decide⟩
  | num n =>
    obtain ⟨c, tail, heq, hc⟩ := head_number n
    refine ⟨c, tail, heq, ?_⟩
    rcases hc with hc | rfl | rfl
    · exact ⟨isSpace_of_isDigit hc, ne_of_isDigit hc rfl⟩
    · exact ⟨rfl, by decide⟩
    · exact ⟨rfl, by decide⟩
  | str s => exact ⟨'"', _, rfl, rfl, by decide⟩
  | arr items => cases items <;> exact ⟨'[', _, rfl, rfl, by decide⟩
  | obj members => cases members <;> exact ⟨'\x7b', _, rfl, rfl, by decide⟩

/-- What stands before a part of a container: a comma, unless it is the first. -/
def lead (first : Bool) : List Char := if first then [] else [',']

/-- Items one a line, the first with a comma if others stand before it. -/
def itemsText (first : Bool) (k : Nat) : List Json → List Char
  | [] => []
  | v :: rest => lead first ++ (newline k ++ (v.writeIndented k ++ itemsText false k rest))

/-- Members one a line, the first with a comma if others stand before it. -/
def membersText (first : Bool) (k : Nat) : List (String × Json) → List Char
  | [] => []
  | (name, v) :: rest =>
    lead first ++ (newline k ++ (quote name ++ ':' :: ' ' ::
      (v.writeIndented k ++ membersText false k rest)))

/-- What stands before the closing bracket of a container: a new line, unless it is empty. -/
def gap (isEmpty : Bool) (k : Nat) : List Char := if isEmpty then [] else newline k

theorem skipSpace_gap (isEmpty : Bool) (h : isSpace c = false) :
    skipSpace (gap isEmpty k ++ c :: cs) = c :: cs := by
  cases isEmpty with
  | true => exact skipSpace_cons h
  | false => exact (skipSpace_newline k _).trans (skipSpace_cons h)

theorem ends_gap (isEmpty : Bool) (h : Ends (c :: cs)) : Ends (gap isEmpty k ++ c :: cs) := by
  cases isEmpty with
  | true => exact h
  | false => exact ends_newline k _

theorem itemsIndented_eq (items : List Json) : itemsIndented k items = itemsText true k items := by
  induction items with
  | nil => rfl
  | cons v rest ih =>
    cases rest with
    | nil => simp [itemsIndented, itemsText, lead]
    | cons w rest =>
      rw [itemsIndented, ih]
      simp [itemsText, lead]

theorem membersIndented_eq (members : List (String × Json)) :
    membersIndented k members = membersText true k members := by
  induction members with
  | nil => rfl
  | cons m rest ih =>
    obtain ⟨name, v⟩ := m
    cases rest with
    | nil => simp [membersIndented, membersText, lead]
    | cons w rest =>
      obtain ⟨name', w⟩ := w
      rw [membersIndented, ih]
      simp [membersText, lead]

theorem writeIndented_array (items : List Json) (k : Nat) (rest : List Char) :
    (Json.arr items).writeIndented k ++ rest =
      '[' :: (itemsText true (k + 1) items ++ (gap items.isEmpty k ++ ']' :: rest)) := by
  cases items with
  | nil => rfl
  | cons v items => simp [writeIndented, itemsIndented_eq, gap]

theorem writeIndented_object (members : List (String × Json)) (k : Nat) (rest : List Char) :
    (Json.obj members).writeIndented k ++ rest =
      '\x7b' :: (membersText true (k + 1) members ++ (gap members.isEmpty k ++ '\x7d' :: rest)) := by
  cases members with
  | nil => rfl
  | cons m members => simp [writeIndented, membersIndented_eq, gap]

theorem ends_itemsText (items : List Json) (hr : Ends rest) :
    Ends (itemsText false k items ++ rest) := by
  cases items with
  | nil => exact hr
  | cons v items => exact ends_cons ⟨rfl, by decide, by decide, by decide⟩

theorem ends_membersText (members : List (String × Json)) (hr : Ends rest) :
    Ends (membersText false k members ++ rest) := by
  cases members with
  | nil => exact hr
  | cons m members => exact ends_cons ⟨rfl, by decide, by decide, by decide⟩

/-! ## Reading the parts of a container -/

/-- An item is read, and then those after it. -/
theorem readItems_item (hs : isSpace c = false) (hc : c ≠ ']') :
    (readItems (fuel + 1) d first (lead first ++ (newline k ++ c :: cs))).toOption =
      (readValue fuel d (c :: cs)).toOption.bind fun (v, r) =>
        (readItems fuel d false r).toOption.map fun (vs, r) => (v :: vs, r) := by
  have hskip : skipSpace (newline k ++ c :: cs) = c :: cs := by
    rw [skipSpace_newline, skipSpace_cons hs]
  have hread : readItems (fuel + 1) d first (lead first ++ (newline k ++ c :: cs)) =
      (readValue fuel d (c :: cs)).bind fun p =>
        (readItems fuel d false p.2).map fun q => (p.1 :: q.1, q.2) := by
    cases first with
    | true =>
      change readItems (fuel + 1) d true (newline k ++ c :: cs) = _
      rw [readItems, hskip]
      dsimp only
      rewrite [if_neg hc, if_pos rfl]
      dsimp only
      cases readValue fuel d (c :: cs) <;> rfl
    | false =>
      change readItems (fuel + 1) d false (',' :: (newline k ++ c :: cs)) = _
      rw [readItems, skipSpace_cons (by rfl)]
      dsimp only
      rw [if_neg (by decide), if_neg Bool.false_ne_true, if_pos rfl, hskip]
      dsimp only
      rewrite [if_neg hc]
      dsimp only
      cases readValue fuel d (c :: cs) <;> rfl
  rw [hread]
  cases readValue fuel d (c :: cs) with
  | error e => rfl
  | ok p => exact toOption_map _ _

/-- A member is read, and then those after it. -/
theorem readMembers_member (name : String) :
    (readMembers (fuel + 1) d first
        (lead first ++ (newline k ++ (quote name ++ ':' :: ' ' :: cs)))).toOption =
      (readValue fuel d (' ' :: cs)).toOption.bind fun (v, r) =>
        (readMembers fuel d false r).toOption.map fun (ms, r) => ((name, v) :: ms, r) := by
  have hskip (tail : List Char) : skipSpace (newline k ++ '"' :: tail) = '"' :: tail := by
    rw [skipSpace_newline, skipSpace_cons (by rfl)]
  have hquote (tail : List Char) :
      quote name ++ tail = '"' :: (name.toList.flatMap escapeChar ++ '"' :: tail) := by
    simp [quote]
  have hkey (tail : List Char) :
      readKey ('"' :: (name.toList.flatMap escapeChar ++ '"' :: tail)) = .ok (name, tail) :=
    readString_quote name tail
  have hcolon : readColon (':' :: ' ' :: cs) = .ok (' ' :: cs) := rfl
  have hread : readMembers (fuel + 1) d first
      (lead first ++ (newline k ++ (quote name ++ ':' :: ' ' :: cs))) =
      (readValue fuel d (' ' :: cs)).bind fun p =>
        (readMembers fuel d false p.2).map fun q => ((name, p.1) :: q.1, q.2) := by
    rw [hquote]
    cases first with
    | true =>
      change readMembers (fuel + 1) d true (newline k ++ '"' :: _) = _
      rw [readMembers, hskip]
      dsimp only
      rw [if_neg (by decide), if_pos rfl]
      dsimp only
      rw [hkey]
      dsimp only
      rewrite [hcolon]
      dsimp only
      cases readValue fuel d (' ' :: cs) <;> rfl
    | false =>
      change readMembers (fuel + 1) d false (',' :: (newline k ++ '"' :: _)) = _
      rw [readMembers, skipSpace_cons (by rfl)]
      dsimp only
      rw [if_neg (by decide), if_neg Bool.false_ne_true, if_pos rfl, hskip]
      dsimp only
      rw [if_neg (by decide)]
      dsimp only
      rw [hkey]
      dsimp only
      rewrite [hcolon]
      dsimp only
      cases readValue fuel d (' ' :: cs) <;> rfl
  rw [hread]
  cases readValue fuel d (' ' :: cs) with
  | error e => rfl
  | ok p => exact toOption_map _ _

theorem readItems_close {tail : List Char} (h : skipSpace tail = ']' :: rest) :
    readItems (fuel + 1) d first tail = .ok ([], rest) := by
  rw [readItems, h]
  exact if_pos rfl

theorem readMembers_close {tail : List Char} (h : skipSpace tail = '\x7d' :: rest) :
    readMembers (fuel + 1) d first tail = .ok ([], rest) := by
  rw [readMembers, h]
  exact if_pos rfl

/-- A blank before a value makes no difference. -/
theorem readValue_space : (readValue fuel d (' ' :: cs)).toOption = (readValue fuel d cs).toOption := by
  cases fuel with
  | zero => rw [readValue, readValue]; rfl
  | succ fuel =>
    have hskip : skipSpace (' ' :: cs) = skipSpace cs := rfl
    rw [readValue, readValue, hskip]

/-- An array is read if there is room for it and its items are read. -/
theorem readValue_array : (readValue (fuel + 1) d ('[' :: cs)).toOption =
    match d with
    | 0 => none
    | d + 1 => (readItems fuel d true cs).toOption.map fun (vs, r) => (.arr vs, r) := by
  have hskip : skipSpace ('[' :: cs) = '[' :: cs := skipSpace_cons (by rfl)
  rw [readValue, hskip]
  dsimp only
  rw [if_neg (by decide), if_neg (by decide), if_neg (by decide), if_neg (by decide),
    if_neg (by decide), if_neg (by decide), if_pos rfl]
  cases d with
  | zero => rfl
  | succ d => exact toOption_map _ _

/-- An object is read if there is room for it and its members are read. -/
theorem readValue_object : (readValue (fuel + 1) d ('\x7b' :: cs)).toOption =
    match d with
    | 0 => none
    | d + 1 => (readMembers fuel d true cs).toOption.map fun (ms, r) => (.obj ms, r) := by
  have hskip : skipSpace ('\x7b' :: cs) = '\x7b' :: cs := skipSpace_cons (by rfl)
  rw [readValue, hskip]
  dsimp only
  rw [if_neg (by decide), if_neg (by decide), if_neg (by decide), if_neg (by decide),
    if_neg (by decide), if_neg (by decide), if_neg (by decide), if_pos rfl]
  cases d with
  | zero => rfl
  | succ d => exact toOption_map _ _

theorem readValue_bool (b : Bool) :
    readValue (fuel + 1) d ((Json.bool b).writeIndented k ++ rest) = .ok (.bool b, rest) := by
  cases b <;> rw [readValue] <;> rfl

theorem readValue_text (s : String) :
    readValue (fuel + 1) d (quote s ++ rest) = .ok (.str s, rest) := by
  have hquote : quote s ++ rest = '"' :: (s.toList.flatMap escapeChar ++ '"' :: rest) := by
    simp [quote]
  rw [hquote, readValue, skipSpace_cons (by rfl)]
  dsimp only
  rw [if_neg (by decide), if_neg (by decide), if_neg (by decide), if_pos rfl, readString_quote]
  rfl

end Layout

/-! ## Reading what was written -/

mutual

/-- **What is read where a value was written**: the value, if it does not nest too deep. -/
theorem readValue_written : (v : Json) → ∀ {k fuel d : Nat} {rest : List Char},
    2 * (v.writeIndented k).length ≤ fuel → Ends rest →
      (readValue fuel d (v.writeIndented k ++ rest)).toOption =
        if v.depth ≤ d then some (v.reread, rest) else none
  | v, k, 0, _, _, hf, _ => by
    obtain ⟨c, tail, heq, -, -⟩ := head_writeIndented v k
    rw [heq, List.length_cons] at hf
    omega
  | .null, _, fuel + 1, d, rest, _, _ =>
    (congrArg Except.toOption readValue_null).trans (if_pos (Nat.zero_le d)).symm
  | .bool b, _, fuel + 1, d, rest, _, _ =>
    (congrArg Except.toOption (readValue_bool b)).trans (if_pos (Nat.zero_le d)).symm
  | .num n, _, fuel + 1, d, rest, _, hr =>
    (congrArg Except.toOption (n.reread_spec.2 fuel d rest hr)).trans (if_pos (Nat.zero_le d)).symm
  | .str s, _, fuel + 1, d, rest, _, _ =>
    (congrArg Except.toOption (readValue_text s)).trans (if_pos (Nat.zero_le d)).symm
  | .arr items, k, fuel + 1, d, rest, hf, hr => by
    have htext := writeIndented_array items k rest
    have hlen : 2 * (itemsText true (k + 1) items).length < fuel := by
      have hsame := congrArg List.length htext
      simp only [List.length_append, List.length_cons] at hsame hf
      omega
    have hbracket : Ends (']' :: rest) := ends_cons ⟨rfl, by decide, by decide, by decide⟩
    rw [htext, readValue_array]
    cases d with
    | zero => rfl
    | succ d =>
      dsimp only
      rw [readItems_written items hlen (skipSpace_gap _ (by rfl)) (ends_gap _ hbracket)]
      change _ = if depthItems items + 1 ≤ d + 1 then _ else _
      simp only [Nat.add_le_add_iff_right]
      split <;> rfl
  | .obj members, k, fuel + 1, d, rest, hf, hr => by
    have htext := writeIndented_object members k rest
    have hlen : 2 * (membersText true (k + 1) members).length < fuel := by
      have hsame := congrArg List.length htext
      simp only [List.length_append, List.length_cons] at hsame hf
      omega
    have hbracket : Ends ('\x7d' :: rest) := ends_cons ⟨rfl, by decide, by decide, by decide⟩
    rw [htext, readValue_object]
    cases d with
    | zero => rfl
    | succ d =>
      dsimp only
      rw [readMembers_written members hlen (skipSpace_gap _ (by rfl)) (ends_gap _ hbracket)]
      change _ = if depthMembers members + 1 ≤ d + 1 then _ else _
      simp only [Nat.add_le_add_iff_right]
      split <;> rfl

theorem readItems_written : (items : List Json) → ∀ {k fuel d : Nat} {first : Bool}
    {tail rest : List Char}, 2 * (itemsText first k items).length < fuel →
      skipSpace tail = ']' :: rest → Ends tail →
      (readItems fuel d first (itemsText first k items ++ tail)).toOption =
        if depthItems items ≤ d then some (rereadItems items, rest) else none
  | items, _, 0, _, _, _, _, hf, _, _ => absurd hf (Nat.not_lt_zero _)
  | [], _, fuel + 1, d, first, tail, rest, _, htail, _ =>
    (congrArg Except.toOption (readItems_close htail)).trans (if_pos (Nat.zero_le d)).symm
  | v :: items, k, fuel + 1, d, first, tail, rest, hf, htail, hends => by
    have hnewline : 1 ≤ (newline k).length := Nat.le_add_left ..
    simp only [itemsText, List.length_append] at hf
    have hvalue : (readValue fuel d (v.writeIndented k ++
        (itemsText false k items ++ tail))).toOption = _ :=
      readValue_written v (by omega) (ends_itemsText items hends)
    have hitems : (readItems fuel d false (itemsText false k items ++ tail)).toOption = _ :=
      readItems_written items (by omega) htail hends
    obtain ⟨c, text, heq, hs, hc⟩ := head_writeIndented v k
    have htext : itemsText first k (v :: items) ++ tail =
        lead first ++ (newline k ++ c :: (text ++ (itemsText false k items ++ tail))) := by
      simp [itemsText, heq]
    rw [heq, List.cons_append] at hvalue
    rw [htext, readItems_item hs hc, hvalue]
    change _ = if max v.depth (depthItems items) ≤ d then _ else _
    by_cases hv : v.depth ≤ d
    · rw [if_pos hv, Option.bind_some]
      dsimp only
      rw [hitems]
      simp only [Nat.max_le, hv, true_and]
      split <;> rfl
    · rw [if_neg hv, if_neg fun h => hv (Nat.le_trans (Nat.le_max_left ..) h)]
      rfl

theorem readMembers_written : (members : List (String × Json)) → ∀ {k fuel d : Nat}
    {first : Bool} {tail rest : List Char}, 2 * (membersText first k members).length < fuel →
      skipSpace tail = '\x7d' :: rest → Ends tail →
      (readMembers fuel d first (membersText first k members ++ tail)).toOption =
        if depthMembers members ≤ d then some (rereadMembers members, rest) else none
  | members, _, 0, _, _, _, _, hf, _, _ => absurd hf (Nat.not_lt_zero _)
  | [], _, fuel + 1, d, first, tail, rest, _, htail, _ =>
    (congrArg Except.toOption (readMembers_close htail)).trans (if_pos (Nat.zero_le d)).symm
  | (name, v) :: members, k, fuel + 1, d, first, tail, rest, hf, htail, hends => by
    simp only [membersText, List.length_append, List.length_cons] at hf
    have hvalue : (readValue fuel d (v.writeIndented k ++
        (membersText false k members ++ tail))).toOption = _ :=
      readValue_written v (by omega) (ends_membersText members hends)
    have hmembers : (readMembers fuel d false (membersText false k members ++ tail)).toOption = _ :=
      readMembers_written members (by omega) htail hends
    have htext : membersText first k ((name, v) :: members) ++ tail =
        lead first ++ (newline k ++ (quote name ++ ':' :: ' ' ::
          (v.writeIndented k ++ (membersText false k members ++ tail)))) := by
      simp [membersText]
    rw [htext, readMembers_member, readValue_space, hvalue]
    change _ = if max v.depth (depthMembers members) ≤ d then _ else _
    by_cases hv : v.depth ≤ d
    · rw [if_pos hv, Option.bind_some]
      dsimp only
      rw [hmembers]
      simp only [Nat.max_le, hv, true_and]
      split <;> rfl
    · rw [if_neg hv, if_neg fun h => hv (Nat.le_trans (Nat.le_max_left ..) h)]
      rfl

end

/-- What is read from the text of a value alone. -/
theorem readValue_indented (v : Json) :
    (readValue (fuelFor (v.writeIndented 0)) depthLimit (v.writeIndented 0)).toOption =
      if v.depth ≤ depthLimit then some (v.reread, []) else none := by
  have hread : (readValue (fuelFor (v.writeIndented 0)) depthLimit
      (v.writeIndented 0 ++ [])).toOption = _ :=
    readValue_written v (Nat.le_add_right ..) ends_nil
  rw [List.append_nil] at hread
  exact hread

end Workflow.Json
