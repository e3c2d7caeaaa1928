import Workflow.Condition.Comparison
import Workflow.Proofs.Condition.Literal

/-!
# How labels are parsed

A comparison may be written with any blanks around its operator, behind the word `if`, and in
parentheses. Its name ends where the name characters end, since neither blanks nor operators are
name characters. The operator that was written is the one that is found, since nothing that begins
with an equals sign stands behind it. What is left to see is where the literal ends.

The parser drops one closing parenthesis at the end of a label whether or not it saw an opening one.
So a comparison in parentheses is read as it was written, and so is one without them, unless its
literal itself ends in a closing parenthesis and is more than that: then it is cut short
(`Written.parsed`).
-/

namespace Workflow

open Text (isBlank)

namespace Comparison

variable {mark : Char} {cs rest : List Char}

/-! ## Characters -/

/-- No blank is a character of names. -/
theorem isNameChar_of_isBlank {c : Char} (h : isBlank c = true) : isNameChar c = false := by
  have hcode : c.toNat ∈ List.range' 9 5 ++ [0x20, 0x85, 0xA0, 0x1680] ++ List.range' 0x2000 11 ++
      [0x2028, 0x2029, 0x202F, 0x205F, 0x3000] := by
    simp only [isBlank, Bool.or_eq_true, Bool.and_eq_true, decide_eq_true_eq] at h
    simp only [List.mem_append, List.mem_range'_1, List.mem_cons, List.not_mem_nil, or_false]
    omega
  have hnone : ∀ n ∈ List.range' 9 5 ++ [0x20, 0x85, 0xA0, 0x1680] ++ List.range' 0x2000 11 ++
      [0x2028, 0x2029, 0x202F, 0x205F, 0x3000], isNameChar (Char.ofNat n) = false := by
    decide +kernel
  rw [← Char.ofNat_toNat c]
  exact hnone _ hcode

theorem isWord_of_isAsciiLetter {c : Char} (h : Text.isAsciiLetter c = true) :
    Text.isWord c = true := by
  have hascii : c.toNat < 0x80 := by
    simp only [Text.isAsciiLetter, Bool.or_eq_true, Bool.and_eq_true, decide_eq_true_eq] at h
    rcases h with ⟨-, hle⟩ | ⟨-, hle⟩
    · exact Nat.lt_of_le_of_lt hle (by decide)
    · exact Nat.lt_of_le_of_lt hle (by decide)
  rw [Text.isWord, if_pos hascii, h]
  rfl

theorem isNameChar_of_isNameStart {c : Char} (h : isNameStart c = true) : isNameChar c = true := by
  simp only [isNameStart, Bool.or_eq_true, decide_eq_true_eq] at h
  rcases h with (hletter | rfl) | rfl
  · rw [isNameChar, isWord_of_isAsciiLetter hletter]
    rfl
  · decide
  · decide

/-- A letter is a character of names if its small letter is one. -/
theorem isNameChar_of_asciiLower {c : Char} (h : isNameChar (Text.asciiLower c) = true) :
    isNameChar c = true := by
  rw [Text.asciiLower] at h
  split at h
  · next hlarge =>
    have hletter : Text.isAsciiLetter c = true := by
      rw [Text.isAsciiLetter, decide_eq_true hlarge.1, decide_eq_true hlarge.2]
      exact Bool.or_true _
    rw [isNameChar, isWord_of_isAsciiLetter hletter]
    rfl
  · exact h

/-- What is left of a text without its blanks. -/
def inked (cs : List Char) : List Char := cs.filter fun c => !isBlank c

theorem inked_append (cs ds : List Char) : inked (cs ++ ds) = inked cs ++ inked ds :=
  List.filter_append ..

theorem inked_cons {c : Char} (h : isBlank c = false) (cs : List Char) :
    inked (c :: cs) = c :: inked cs :=
  List.filter_cons_of_pos (by rw [h]; rfl)

theorem inked_blanks (h : ∀ c ∈ cs, isBlank c = true) : inked cs = [] :=
  List.filter_eq_nil_iff.mpr fun c hc => by rw [h c hc]; decide

theorem all_isBlank_iff : cs.all isBlank = true ↔ inked cs = [] := by
  rw [List.all_eq_true, inked, List.filter_eq_nil_iff]
  simp only [Bool.not_eq_true', Bool.not_eq_false]

theorem inked_trimStart (cs : List Char) : inked (Text.trimStart cs) = inked cs := by
  conv_rhs => rw [← List.takeWhile_append_dropWhile (p := isBlank) (l := cs)]
  rw [inked_append, inked_blanks fun c hc => List.mem_takeWhile_imp hc]
  rfl

/-! ## Where a literal ends -/

/-- Nothing follows but blanks and at most one mark if no more is left without the blanks. -/
theorem ends_iff : ends mark cs = true ↔ inked cs = [] ∨ inked cs = [mark] := by
  rw [ends, ← inked_trimStart cs]
  have hfirst := Text.not_isBlank_head cs
  cases htrim : Text.trimStart cs with
  | nil => exact iff_of_true rfl (Or.inl rfl)
  | cons c rest =>
    rw [htrim] at hfirst
    rw [inked_cons (hfirst c rfl), Bool.and_eq_true, decide_eq_true_iff, all_isBlank_iff]
    exact ⟨fun ⟨hc, hrest⟩ => Or.inr (by rw [hc, hrest]),
      fun h => h.elim nofun fun h => List.cons.inj h⟩

/-- A literal ends at the first place behind which nothing else follows. It does not end before,
since its last character would follow there, and either that is no mark or more follows. -/
theorem shortestBefore_append {lit : List Char} (hne : lit ≠ []) (hline : '\n' ∉ lit)
    (hrest : ends mark rest = true) (hlast : isBlank (lit.getLast hne) = false)
    (hmore : lit.getLast hne ≠ mark ∨ inked rest ≠ []) :
    shortestBefore mark (lit ++ rest) = some lit := by
  induction lit with
  | nil => exact absurd rfl hne
  | cons c cs ih =>
    have hfirst : c ≠ '\n' := fun h => hline (h ▸ List.mem_cons_self ..)
    rw [List.cons_append, shortestBefore, if_neg hfirst]
    by_cases hnil : cs = []
    · rw [hnil, List.nil_append, if_pos hrest]
    · rw [List.getLast_cons hnil] at hlast hmore
      have hinked : cs.getLast hnil ∈ inked cs :=
        List.mem_filter.mpr ⟨List.getLast_mem hnil, by rw [hlast]; rfl⟩
      have hends : ¬ends mark (cs ++ rest) = true := fun h => by
        rw [ends_iff, inked_append, List.append_eq_nil_iff, List.append_eq_singleton_iff] at h
        rcases h with ⟨hcs, -⟩ | ⟨hcs, -⟩ | ⟨hcs, hrest⟩
        · exact List.not_mem_nil (hcs ▸ hinked)
        · exact List.not_mem_nil (hcs ▸ hinked)
        · rw [hcs] at hinked
          exact hmore.elim (fun h => h (List.mem_singleton.mp hinked)) fun h => h hrest
      rw [if_neg hends, ih hnil (fun h => hline (List.mem_cons_of_mem _ h)) hlast hmore]
      rfl

/-! ## Literals -/

/-- A text that can be written as a literal: on one line, with no blanks at its ends and no equals
sign in front. -/
structure IsLiteral (cs : List Char) : Prop where
  /-- there is something -/
  ne_nil : cs ≠ []
  /-- there are no blanks at the ends -/
  trimmed : Text.trim cs = cs
  /-- it is on one line -/
  line : '\n' ∉ cs
  /-- it does not look like the rest of an operator -/
  first : cs.head? ≠ some '='

/-- What a comparison without parentheses keeps of its literal. -/
def kept (cs : List Char) : List Char :=
  if cs.getLast? = some ')' ∧ cs ≠ [')'] then Text.trimEnd cs.dropLast else cs

theorem length_kept_lt (h : cs.getLast? = some ')' ∧ cs ≠ [')']) :
    (kept cs).length < cs.length := by
  rw [kept, if_pos h]
  have hle := (List.rdropWhile_prefix isBlank cs.dropLast).length_le
  have hpos := List.length_pos_of_mem (List.mem_of_getLast? h.1)
  rw [List.length_dropLast] at hle
  exact Nat.lt_of_le_of_lt hle (Nat.sub_lt hpos Nat.zero_lt_one)

theorem kept_eq_iff : kept cs = cs ↔ ¬(cs.getLast? = some ')' ∧ cs ≠ [')']) := by
  refine ⟨fun heq hcut => ?_, fun hkept => if_neg hkept⟩
  have hlt := length_kept_lt hcut
  rw [heq] at hlt
  exact Nat.lt_irrefl _ hlt

/-- A closing parenthesis at the end of a label is dropped, with the blanks in front of it. -/
theorem shortestBefore_cut (hne : Text.trimEnd cs ≠ []) (hline : '\n' ∉ cs) :
    shortestBefore ')' (cs ++ [')']) = some (Text.trimEnd cs) := by
  have hsplit : Text.trimEnd cs ++ cs.rtakeWhile isBlank = cs :=
    List.rdropWhile_append_rtakeWhile
  have hrest : inked (cs.rtakeWhile isBlank ++ [')']) = [')'] := by
    rw [inked_append, inked_blanks fun c hc => List.mem_rtakeWhile_imp hc]
    rfl
  have hline : '\n' ∉ Text.trimEnd cs := fun hmem => by
    rw [← hsplit] at hline
    exact hline (List.mem_append_left _ hmem)
  have hlast := Bool.eq_false_iff.mpr (List.rdropWhile_last_not isBlank cs hne)
  have hcut := shortestBefore_append hne hline (ends_iff.mpr (Or.inr hrest)) hlast
    (Or.inr fun hnil => by rw [hrest] at hnil; cases hnil)
  rw [← List.append_assoc, hsplit] at hcut
  exact hcut

namespace IsLiteral

variable {lit : List Char} (h : IsLiteral lit)
include h

theorem head : ∀ c ∈ lit.head?, isBlank c = false := by
  rw [← h.trimmed]
  exact Text.not_isBlank_head_trim lit

theorem last : isBlank (lit.getLast h.ne_nil) = false := by
  refine Text.not_isBlank_last_trim lit _ ?_
  rw [h.trimmed]
  exact List.getLast?_eq_some_getLast h.ne_nil

/-- In front of the closing parenthesis of the comparison all of a literal is read. -/
theorem shortestBefore_closing : shortestBefore ')' (lit ++ [')']) = some lit :=
  shortestBefore_append h.ne_nil h.line (by decide) h.last (Or.inr (by decide))

/-- At the end of a label a closing parenthesis is taken for that of the comparison. -/
theorem shortestBefore_kept : shortestBefore ')' lit = some (kept lit) := by
  rw [kept]
  split
  · next hcut =>
    obtain ⟨hclosed, hmore⟩ := hcut
    have hsplit := List.dropLast_append_getLast? _ hclosed
    have hne : lit.dropLast ≠ [] := fun hnil => by
      rw [hnil] at hsplit
      exact hmore hsplit.symm
    have hfirst : lit.head? = lit.dropLast.head? := by
      conv_lhs => rw [← hsplit]
      exact List.head?_append_of_ne_nil _ hne
    have htrim : Text.trimEnd lit.dropLast ≠ [] := fun hnil => by
      have hblank := List.rdropWhile_eq_nil_iff.mp hnil _ (List.head_mem hne)
      have hsolid := h.head _ (hfirst.trans (List.head?_eq_some_head hne))
      rw [hblank] at hsolid
      cases hsolid
    have hcut := shortestBefore_cut htrim fun hmem => h.line (List.dropLast_subset lit hmem)
    rw [hsplit] at hcut
    exact hcut
  · next hkept =>
    by_cases hone : lit = [')']
    · rw [hone]
      rfl
    · have hopen : lit.getLast h.ne_nil ≠ ')' := fun heq =>
        hkept ⟨heq ▸ List.getLast?_eq_some_getLast h.ne_nil, hone⟩
      have hall : shortestBefore ')' (lit ++ []) = some lit :=
        shortestBefore_append h.ne_nil h.line rfl h.last (Or.inl hopen)
      rw [List.append_nil] at hall
      exact hall

end IsLiteral

/-! ## Operators -/

/-- The literal is read from behind all blanks, if there is one. -/
theorem literalIn_of_shortest {lit : List Char}
    (h : shortestBefore ')' (Text.trimStart cs) = some lit) : literalIn cs = some lit := by
  have hdrop : cs.drop (cs.takeWhile isBlank).length = Text.trimStart cs := by
    have hsplit := List.takeWhile_append_dropWhile (p := isBlank) (l := cs)
    exact (congrArg _ hsplit.symm).trans (List.drop_left' rfl)
  rw [literalIn, afterBlanks, Nat.sub_zero, List.range_succ_eq_map, List.map_cons,
    List.findSome?_cons, Nat.sub_zero, hdrop, h]

/-- The operator that was written is found, if no equals sign follows it. -/
theorem tailIn_spelling {spelling blanks lit : List Char} {op : CompareOp}
    (hblanks : ∀ c ∈ blanks, isBlank c = true) (hspelling : (spelling, op) ∈ CompareOp.spellings)
    (hfirst : cs.head? ≠ some '=') (hlit : literalIn cs = some lit) :
    tailIn (blanks ++ spelling ++ cs) = some (op, lit) := by
  have hnone : dropFront? ['='] cs = none := by
    cases cs with
    | nil => rfl
    | cons c cs =>
      rw [dropFront?, if_neg]
      exact fun heq => hfirst (heq ▸ rfl)
  have htrim : Text.trimStart (blanks ++ spelling ++ cs) = Text.trimStart (spelling ++ cs) := by
    rw [List.append_assoc]
    exact List.dropWhile_append_of_pos hblanks
  rw [tailIn, htrim]
  simp only [CompareOp.spellings, List.mem_cons, Prod.mk.injEq, List.not_mem_nil, or_false]
    at hspelling
  rcases hspelling with ⟨rfl, rfl⟩ | ⟨rfl, rfl⟩ | ⟨rfl, rfl⟩ | ⟨rfl, rfl⟩ | ⟨rfl, rfl⟩ |
    ⟨rfl, rfl⟩ | ⟨rfl, rfl⟩ | ⟨rfl, rfl⟩ <;>
  simp [Text.trimStart, isBlank, CompareOp.spellings, dropFront?, hnone, hlit]

/-! ## Names -/

/-- A name of a variable, or of a reference into one. -/
def IsName : List Char → Prop
  | [] => False
  | c :: rest => isNameStart c = true ∧ ∀ d ∈ rest, isNameChar d = true

/-- What may stand behind a name: something else than characters of names. -/
def EndsName (cs : List Char) : Prop := ∀ c ∈ cs.head?, isNameChar c = false

theorem EndsName.dropWhile (h : EndsName cs) : cs.dropWhile isNameChar = cs := by
  cases cs with
  | nil => rfl
  | cons c cs => exact List.dropWhile_cons_of_neg (Bool.eq_false_iff.mp (h c rfl))

theorem EndsName.takeWhile (h : EndsName cs) : cs.takeWhile isNameChar = [] := by
  cases cs with
  | nil => rfl
  | cons c cs => exact List.takeWhile_cons_of_neg (Bool.eq_false_iff.mp (h c rfl))

theorem isBlank_of_isNameStart {c : Char} (h : isNameStart c = true) : isBlank c = false := by
  cases hblank : isBlank c with
  | false => rfl
  | true => exact (isNameChar_of_isNameStart h).symm.trans (isNameChar_of_isBlank hblank)

/-- The comparison of a name with what an operator and a literal say. -/
def ofTail (name : List Char) (tail : CompareOp × List Char) : Comparison :=
  ⟨String.ofList name, tail.1, Literal.sniff (String.ofList tail.2)⟩

namespace IsName

variable {name tail : List Char} (h : IsName name)
include h

theorem all : ∀ c ∈ name, isNameChar c = true := by
  cases name with
  | nil => exact fun _ hc => absurd hc List.not_mem_nil
  | cons c rest => exact List.forall_mem_cons.mpr ⟨isNameChar_of_isNameStart h.1, h.2⟩

/-- Nothing in front of a name is passed over. -/
theorem trimStart (tail : List Char) : Text.trimStart (name ++ tail) = name ++ tail := by
  cases name with
  | nil => exact absurd h id
  | cons c rest =>
    exact List.dropWhile_cons_of_neg (Bool.eq_false_iff.mp (isBlank_of_isNameStart h.1))

theorem bodyIn_open (htail : EndsName tail) :
    bodyIn ('(' :: (name ++ tail)) = (tailIn tail).map (ofTail name) := by
  rw [bodyIn]
  dsimp only
  rw [h.trimStart tail]
  cases name with
  | nil => exact absurd h id
  | cons c rest =>
    rw [List.cons_append]
    dsimp only
    rw [if_pos h.1, List.takeWhile_append_of_pos h.2, List.dropWhile_append_of_pos h.2,
      htail.takeWhile, htail.dropWhile, List.append_nil]
    rfl

theorem bodyIn_eq (htail : EndsName tail) :
    bodyIn (name ++ tail) = (tailIn tail).map (ofTail name) := by
  rw [← h.bodyIn_open htail]
  cases name with
  | nil => exact absurd h id
  | cons c rest =>
    have hopen : c ≠ '(' := fun heq => by
      have hstart := h.1
      rw [heq] at hstart
      revert hstart
      decide
    rw [bodyIn, bodyIn]
    exact fun _ heq => hopen (List.cons.inj heq).1

end IsName

/-! ## The word in front -/

/-- Behind the word and a blank, what follows is read from its first character on. -/
theorem afterIf?_word {cs : List Char} (h : Text.trimStart cs = cs) :
    afterIf? ('i' :: 'f' :: ' ' :: cs) = some cs := by
  rw [afterIf?, if_pos (by decide), h]

/-- Where a name could be taken for the word, what follows is no comparison by itself. -/
theorem afterIf?_name {name tail : List Char} (h : IsName name) (htail : EndsName tail)
    (hbody : bodyIn (Text.trimStart tail) = none) :
    (afterIf? (name ++ tail)).bind bodyIn = none := by
  cases hafter : afterIf? (name ++ tail) with
  | none => rfl
  | some after =>
    unfold afterIf? at hafter
    split at hafter
    · next i f b more heq =>
      split at hafter
      · next hword =>
        rw [Bool.and_eq_true, Bool.and_eq_true, decide_eq_true_iff, decide_eq_true_iff] at hword
        obtain ⟨⟨hi, hf⟩, hb⟩ := hword
        have hi : isNameChar i = true := isNameChar_of_asciiLower (hi ▸ by decide)
        have hf : isNameChar f = true := isNameChar_of_asciiLower (hf ▸ by decide)
        have hb' : ¬isNameChar b = true := Bool.eq_false_iff.mp (isNameChar_of_isBlank hb)
        -- the word is the whole name, so the blank is where the tail begins
        have hsplit : tail = b :: more := by
          rw [← htail.dropWhile, ← List.dropWhile_append_of_pos h.all, heq,
            List.dropWhile_cons_of_pos hi, List.dropWhile_cons_of_pos hf,
            List.dropWhile_cons_of_neg hb']
        rw [hsplit, Text.trimStart, List.dropWhile_cons_of_pos hb] at hbody
        rw [← Option.some.inj hafter]
        exact hbody
      · cases hafter
    · cases hafter

/-- A parenthesis is not the word. -/
theorem afterIf?_open (cs : List Char) : afterIf? ('(' :: cs) = none := by
  rcases cs with _ | ⟨f, _ | ⟨b, more⟩⟩ <;> rfl

/-! ## Written comparisons -/

/-- The parts of a comparison as they are written, with blanks around the operator. -/
structure Written where
  /-- the variable, or a reference into it -/
  name : String
  /-- the blanks in front of the operator -/
  before : String
  /-- the characters of the operator -/
  spelling : String
  /-- what they mean -/
  op : CompareOp
  /-- the blanks behind the operator -/
  after : String
  /-- the literal -/
  literal : String
  hname : IsName name.toList
  hbefore : ∀ c ∈ before.toList, isBlank c = true
  hspelling : (spelling.toList, op) ∈ CompareOp.spellings
  hafter : ∀ c ∈ after.toList, isBlank c = true
  hliteral : IsLiteral literal.toList

/-- What operators begin with. -/
theorem head_spelling {spelling : List Char} {op : CompareOp}
    (h : (spelling, op) ∈ CompareOp.spellings) :
    ∃ c rest, spelling = c :: rest ∧ c ∈ ['=', '!', '<', '>'] := by
  have hall : ∀ p ∈ CompareOp.spellings, p.1.head?.any (· ∈ ['=', '!', '<', '>']) = true :=
    List.all_iff_forall_prop.mp rfl
  obtain ⟨c, hc, hmem⟩ := (Option.any_eq_true _ _).mp (hall _ h)
  obtain ⟨rest, hrest⟩ := List.head?_eq_some_iff.mp hc
  exact ⟨c, rest, hrest, of_decide_eq_true hmem⟩

namespace Written

/-- The whole text. -/
def text (w : Written) : String := w.name ++ w.before ++ w.spelling ++ w.after ++ w.literal

/-- What is meant. -/
def meant (w : Written) : Comparison := ⟨w.name, w.op, Literal.sniff w.literal⟩

/-- What is read if the comparison is not in parentheses. -/
def bare (w : Written) : Comparison :=
  ⟨w.name, w.op, Literal.sniff (String.ofList (kept w.literal.toList))⟩

/-- What stands behind the name, up to some end. -/
def tail (w : Written) (rest : List Char) : List Char :=
  w.before.toList ++ w.spelling.toList ++ (w.after.toList ++ (w.literal.toList ++ rest))

theorem toList_text (w : Written) : w.text.toList = w.name.toList ++ w.tail [] := by
  simp only [text, tail, String.toList_append, List.append_assoc, List.append_nil]

theorem toList_text_closed (w : Written) :
    (w.text ++ ")").toList = w.name.toList ++ w.tail [')'] := by
  simp only [text, tail, String.toList_append, List.append_assoc]
  rfl

variable (w : Written)

/-- Behind blanks the literal begins. -/
theorem trimStart_literal (rest : List Char) :
    Text.trimStart (w.after.toList ++ (w.literal.toList ++ rest)) = w.literal.toList ++ rest := by
  rw [Text.trimStart, List.dropWhile_append_of_pos w.hafter]
  refine Text.trimStart_eq_self fun c hc => ?_
  rw [List.head?_append_of_ne_nil _ w.hliteral.ne_nil] at hc
  exact w.hliteral.head c hc

theorem tailIn_tail {rest lit : List Char}
    (h : shortestBefore ')' (w.literal.toList ++ rest) = some lit) :
    tailIn (w.tail rest) = some (w.op, lit) := by
  refine tailIn_spelling w.hbefore w.hspelling (fun heq => ?_)
    (literalIn_of_shortest ((w.trimStart_literal rest).symm ▸ h))
  cases hafter : w.after.toList with
  | nil =>
    rw [hafter, List.nil_append, List.head?_append_of_ne_nil _ w.hliteral.ne_nil] at heq
    exact w.hliteral.first heq
  | cons b more =>
    rw [hafter] at heq
    have hblank := w.hafter b (hafter ▸ List.mem_cons_self ..)
    rw [Option.some.inj heq] at hblank
    revert hblank
    decide

/-- The name ends where blanks or an operator follow. -/
theorem endsName_tail (rest : List Char) : EndsName (w.tail rest) := by
  obtain ⟨c, more, hspelling, hc⟩ := head_spelling w.hspelling
  have hnone : ∀ c ∈ ['=', '!', '<', '>'], isNameChar c = false :=
    List.all_iff_forall_prop.mp rfl
  cases hbefore : w.before.toList with
  | nil =>
    rw [tail, hbefore, hspelling]
    exact fun d hd => Option.some.inj hd ▸ hnone c hc
  | cons b blanks =>
    have hblank := w.hbefore b (hbefore ▸ List.mem_cons_self ..)
    rw [tail, hbefore]
    exact fun d hd => Option.some.inj hd ▸ isNameChar_of_isBlank hblank

/-- What stands behind the name is no comparison by itself. -/
theorem bodyIn_tail (rest : List Char) : bodyIn (Text.trimStart (w.tail rest)) = none := by
  obtain ⟨c, more, hspelling, hc⟩ := head_spelling w.hspelling
  have hnone : ∀ c ∈ ['=', '!', '<', '>'], isBlank c = false ∧ c ≠ '(' ∧ isNameStart c = false :=
    List.all_iff_forall_prop.mp rfl
  obtain ⟨hblank, hopen, hstart⟩ := hnone c hc
  have htrim : ∀ cs, Text.trimStart (c :: cs) = c :: cs :=
    fun cs => List.dropWhile_cons_of_neg (Bool.eq_false_iff.mp hblank)
  have htail : Text.trimStart (w.tail rest) =
      c :: (more ++ (w.after.toList ++ (w.literal.toList ++ rest))) := by
    rw [tail, hspelling, List.append_assoc, Text.trimStart,
      List.dropWhile_append_of_pos w.hbefore]
    exact htrim _
  rw [htail, bodyIn]
  · dsimp only
    rw [htrim]
    dsimp only
    rw [if_neg (Bool.eq_false_iff.mp hstart)]
  · exact fun _ heq => hopen (List.cons.inj heq).1

theorem bodyIn_bare : bodyIn (w.name.toList ++ w.tail []) = some w.bare := by
  have hlit := w.hliteral.shortestBefore_kept
  rw [← List.append_nil w.literal.toList] at hlit
  rw [w.hname.bodyIn_eq (w.endsName_tail []), w.tailIn_tail hlit, Option.map_some, ofTail,
    String.ofList_toList, List.append_nil]
  rfl

theorem bodyIn_closed : bodyIn ('(' :: (w.name.toList ++ w.tail [')'])) = some w.meant := by
  rw [w.hname.bodyIn_open (w.endsName_tail _), w.tailIn_tail w.hliteral.shortestBefore_closing,
    Option.map_some, ofTail, String.ofList_toList, String.ofList_toList]
  rfl

theorem parse?_bare : parse? w.text = some w.bare := by
  rw [parse?, w.toList_text, w.hname.trimStart,
    afterIf?_name w.hname (w.endsName_tail []) (w.bodyIn_tail []), Option.none_or, w.bodyIn_bare]

theorem parse?_if : parse? ("if " ++ w.text) = some w.bare := by
  have hlabel : ("if " ++ w.text).toList = 'i' :: 'f' :: ' ' :: (w.name.toList ++ w.tail []) := by
    rw [String.toList_append, w.toList_text]
    rfl
  have htrim : Text.trimStart ('i' :: 'f' :: ' ' :: (w.name.toList ++ w.tail [])) =
    'i' :: 'f' :: ' ' :: (w.name.toList ++ w.tail []) := rfl
  rw [parse?, hlabel, htrim, afterIf?_word (w.hname.trimStart _), Option.bind_some, w.bodyIn_bare,
    Option.some_or]

theorem parse?_closed : parse? ("(" ++ w.text ++ ")") = some w.meant := by
  have hlabel : ("(" ++ w.text ++ ")").toList = '(' :: (w.name.toList ++ w.tail [')']) := by
    rw [String.append_assoc, String.toList_append, w.toList_text_closed]
    rfl
  have htrim : Text.trimStart ('(' :: (w.name.toList ++ w.tail [')'])) =
    '(' :: (w.name.toList ++ w.tail [')']) := rfl
  rw [parse?, hlabel, htrim, afterIf?_open, Option.bind_none, Option.none_or, w.bodyIn_closed]

theorem parse?_if_closed : parse? ("if (" ++ w.text ++ ")") = some w.meant := by
  have hlabel : ("if (" ++ w.text ++ ")").toList =
      'i' :: 'f' :: ' ' :: '(' :: (w.name.toList ++ w.tail [')']) := by
    rw [String.append_assoc, String.toList_append, w.toList_text_closed]
    rfl
  have htrim : Text.trimStart ('i' :: 'f' :: ' ' :: '(' :: (w.name.toList ++ w.tail [')'])) =
    'i' :: 'f' :: ' ' :: '(' :: (w.name.toList ++ w.tail [')']) := rfl
  rw [parse?, hlabel, htrim, afterIf?_word rfl, Option.bind_some, w.bodyIn_closed, Option.some_or]

/-- If not all of a literal is kept, something else is read: the literal is text then, since it
ends in a parenthesis, and no longer text is read from less. -/
theorem bare_eq_meant_iff : w.bare = w.meant ↔ kept w.literal.toList = w.literal.toList := by
  constructor
  · intro heq
    rw [kept_eq_iff]
    intro hcut
    have hsplit := List.dropLast_append_getLast? _ hcut.1
    have htext : Literal.sniff w.literal = .text w.literal := by
      have htrim := w.hliteral.trimmed
      rw [← hsplit] at htrim
      have hself := Literal.sniff_closed htrim
      rw [hsplit, String.ofList_toList] at hself
      exact hself
    rw [bare, meant] at heq
    have hle := Literal.length_le_of_sniff ((Comparison.mk.inj heq).2.2.trans htext)
    rw [String.toList_ofList] at hle
    exact absurd hle (Nat.not_le_of_lt (length_kept_lt hcut))
  · intro hkept
    rw [bare, hkept, String.ofList_toList]
    rfl

/-- **A comparison in parentheses is read as it is written**, with the word in front or without it.
One that is not in parentheses is read the same way, unless its literal ends in a closing
parenthesis and is more than that: then the parenthesis is dropped, with the blanks in front of it,
and something else is read. -/
theorem parsed :
    parse? ("(" ++ w.text ++ ")") = some w.meant ∧
    parse? ("if (" ++ w.text ++ ")") = some w.meant ∧
    parse? w.text = some w.bare ∧
    parse? ("if " ++ w.text) = some w.bare ∧
    (w.bare ≠ w.meant ↔ w.literal.toList.getLast? = some ')' ∧ w.literal.toList ≠ [')']) :=
  ⟨w.parse?_closed, w.parse?_if_closed, w.parse?_bare, w.parse?_if,
    (not_congr (w.bare_eq_meant_iff.trans kept_eq_iff)).trans Classical.not_not⟩

end Written

/-- A comparison with a text that ends in a closing parenthesis. -/
def duneTitle : Written where
  name := "title"
  before := " "
  spelling := "=="
  op := .looseEq
  after := " "
  literal := "Dune (1984)"
  hname := ⟨rfl, List.all_eq_true.mp rfl⟩
  hbefore := List.all_eq_true.mp rfl
  hspelling := by decide
  hafter := List.all_eq_true.mp rfl
  hliteral := ⟨by decide, by decide, by decide, by decide⟩

/-- The text is cut short, but not in parentheses. -/
theorem duneTitle_cut :
    duneTitle.bare ≠ duneTitle.meant ∧
      parse? "title == Dune (1984)" = some ⟨"title", .looseEq, .text "Dune (1984"⟩ ∧
      parse? "(title == Dune (1984))" = some ⟨"title", .looseEq, .text "Dune (1984)"⟩ := by
  obtain ⟨hclosed, -, hbare, -, hcut⟩ := duneTitle.parsed
  refine ⟨hcut.mpr ⟨rfl, by decide⟩, hbare.trans ?_, hclosed.trans ?_⟩
  · rfl
  · rfl

end Comparison

end Workflow
