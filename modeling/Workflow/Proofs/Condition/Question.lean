import Workflow.Proofs.Condition.Quoted
import Workflow.Proofs.Condition.Synonym
import Workflow.Proofs.Vars.Reference

/-!
# Questions in the labels of nodes

A node may ask for a variable in its label: `if <var>[:<path>] is <value>`, or
`check <var>[:<path>]`. Both are read up to blanks and a question mark at the end, their words in
any case (`OpensIf.read`, `OpensCheck.read`). Of two edges, one labelled with a word for yes and one
with a word for no, the answer takes one, in whatever order they come (`branches`).

A missing value is not the same as a false one. If the label says what the value is asked to be, a
word for yes or for no, then the value is on one of two sides, and a missing one is on neither: it
takes the way for no whichever was asked for.
-/

namespace Workflow.Choice

open Text (isBlank)
open Comparison (inked unlessNull)

/-! ## Parts of labels -/

/-- A row of blanks. -/
def IsBlanks (cs : List Char) : Prop := ∀ c ∈ cs, isBlank c = true

/-- A row of blanks between two words. -/
structure IsGap (cs : List Char) : Prop where
  /-- there is one -/
  ne_nil : cs ≠ []
  /-- there is nothing else -/
  blanks : IsBlanks cs

/-- A word in any case. -/
def Spells (word cs : List Char) : Prop := List.Forall₂ (fun w c => isLetter w c = true) word cs

/-- What may stand behind a question: blanks and at most one question mark. -/
def IsClosing (cs : List Char) : Prop := inked cs = [] ∨ inked cs = ['?']

/-- A text that can be asked for: on one line, with no blanks at its ends. -/
structure IsAskable (cs : List Char) : Prop where
  /-- there is something -/
  ne_nil : cs ≠ []
  /-- there are no blanks at the ends -/
  trimmed : Text.trim cs = cs
  /-- it is on one line -/
  line : '\n' ∉ cs

/-- The name of a variable, or a path into it. -/
structure IsPart (cs : List Char) : Prop where
  /-- there is something -/
  ne_nil : cs ≠ []
  /-- there is nothing else than characters of references -/
  chars : ∀ c ∈ cs, isRefChar c = true

/-- A reference as it is written in a label. -/
structure Reference where
  /-- the variable -/
  var : List Char
  /-- the path into it, if there is one -/
  path : Option (List Char)
  hvar : IsPart var
  hpath : ∀ p ∈ path, IsPart p

/-- The text of a reference. -/
def Reference.text (ref : Reference) : List Char := ref.var ++ (ref.path.map (':' :: ·)).getD []

/-- The question that asks what a reference leads to for a value. -/
def Reference.question (ref : Reference) (value : String) : Question :=
  ⟨String.ofList ref.var, ref.path.map String.ofList, value⟩

/-- What stands in a label that asks with `if`, up to the value that is asked for. -/
inductive OpensIf (ref : Reference) : List Char → Prop where
  /-- two words, with the reference between them -/
  | words {lead first gap gap' second gap'' : List Char} (hlead : IsBlanks lead)
    (hfirst : Spells ['i', 'f'] first) (hgap : IsGap gap) (hgap' : IsGap gap')
    (hsecond : Spells ['i', 's'] second) (hgap'' : IsGap gap'') :
    OpensIf ref (lead ++ first ++ gap ++ ref.text ++ gap' ++ second ++ gap'')

/-- What stands in a label that asks with `check`, up to the end of the reference. -/
inductive OpensCheck (ref : Reference) : List Char → Prop where
  /-- a word, and the reference behind it -/
  | word {lead first gap : List Char} (hlead : IsBlanks lead)
    (hfirst : Spells ['c', 'h', 'e', 'c', 'k'] first) (hgap : IsGap gap) :
    OpensCheck ref (lead ++ first ++ gap ++ ref.text)

/-- A node is labelled `if <var>[:<path>] is <value>`. -/
def AsksIf (node : Node) (ref : Reference) (value : List Char) : Prop :=
  ∃ front back, OpensIf ref front ∧ IsClosing back ∧
    node.displayLabel.toList = front ++ value ++ back

/-- A node is labelled `check <var>[:<path>]`. -/
def AsksCheck (node : Node) (ref : Reference) : Prop :=
  ∃ front back, OpensCheck ref front ∧ IsClosing back ∧ node.displayLabel.toList = front ++ back

/-! ## Characters -/

theorem isRefChar_of_isBlank {c : Char} (h : isBlank c = true) : isRefChar c = false := by
  have hname := Comparison.isNameChar_of_isBlank h
  simp only [Comparison.isNameChar, Bool.or_eq_false_iff] at hname
  obtain ⟨⟨⟨⟨hword, hdollar⟩, hpoint⟩, -⟩, hdash⟩ := hname
  rw [isRefChar, hword, hdollar, hpoint, hdash]
  rfl

/-- A blank is no letter, so it has no case. -/
theorem asciiLower_of_isBlank {c : Char} (h : isBlank c = true) : Text.asciiLower c = c := by
  rw [Text.asciiLower, if_neg]
  rintro ⟨hlow, hhigh⟩
  have hletter : Text.isAsciiLetter c = true := by
    rw [Text.isAsciiLetter, decide_eq_true hlow, decide_eq_true hhigh]
    exact Bool.or_true _
  have hname := Comparison.isNameChar_of_isBlank h
  rw [Comparison.isNameChar, Comparison.isWord_of_isAsciiLetter hletter] at hname
  cases hname

/-- A letter in any case is its small letter, or one of two signs that count as letters. -/
theorem isLetter_iff {small c : Char} : isLetter small c = true ↔
    Text.asciiLower c = small ∨ small = 's' ∧ c = 'ſ' ∨ small = 'k' ∧ c = '\u212A' := by
  rw [isLetter, Bool.or_eq_true, Bool.or_eq_true, decide_eq_true_iff, Bool.and_eq_true,
    Bool.and_eq_true, decide_eq_true_iff, decide_eq_true_iff, decide_eq_true_iff,
    decide_eq_true_iff, or_assoc]

/-- A letter in any case is no blank. -/
theorem isBlank_of_isLetter {small c : Char} (hsmall : isBlank small = false)
    (h : isLetter small c = true) : isBlank c = false := by
  rcases isLetter_iff.mp h with hlower | ⟨-, rfl⟩ | ⟨-, rfl⟩
  · refine Bool.eq_false_iff.mpr fun hblank => ?_
    rw [← hlower, asciiLower_of_isBlank hblank, hblank] at hsmall
    cases hsmall
  · decide
  · decide

/-! ## Reading the parts -/

section Parts

variable {word cs gap rest value back : List Char}

/-- Blanks at the front of a label make no difference. -/
theorem IsBlanks.trimStart {lead : List Char} (h : IsBlanks lead) (rest : List Char) :
    Text.trimStart (lead ++ rest) = Text.trimStart rest :=
  List.dropWhile_append_of_pos h

theorem Spells.trimStart {w : Char} (h : Spells (w :: word) cs) (hw : isBlank w = false)
    (rest : List Char) : Text.trimStart (cs ++ rest) = cs ++ rest := by
  cases h with
  | cons hletter _ =>
    exact List.dropWhile_cons_of_neg (Bool.eq_false_iff.mp (isBlank_of_isLetter hw hletter))

theorem Spells.dropWord? (h : Spells word cs) (rest : List Char) :
    dropWord? word (cs ++ rest) = some rest := by
  induction h with
  | nil => rfl
  | cons hletter _ ih =>
    rw [List.cons_append, Choice.dropWord?, if_pos hletter]
    exact ih

theorem IsGap.dropBlanks? (h : IsGap gap) (rest : List Char) :
    dropBlanks? (gap ++ rest) = some (Text.trimStart rest) := by
  obtain ⟨c, more, rfl⟩ := List.exists_cons_of_ne_nil h.ne_nil
  obtain ⟨hc, hmore⟩ := List.forall_mem_cons.mp h.blanks
  rw [List.cons_append, Choice.dropBlanks?, if_pos hc, Text.trimStart,
    List.dropWhile_append_of_pos hmore]
  rfl

/-- What may stand behind a reference: something else than a character of references, and no sign
that a path follows. -/
def EndsReference (cs : List Char) : Prop := ∀ c ∈ cs.head?, isRefChar c = false ∧ c ≠ ':'

theorem IsGap.endsReference (h : IsGap gap) (rest : List Char) : EndsReference (gap ++ rest) := by
  obtain ⟨b, more, rfl⟩ := List.exists_cons_of_ne_nil h.ne_nil
  have hb := h.blanks b (List.mem_cons_self ..)
  intro c hc
  obtain rfl := Option.some.inj hc
  refine ⟨isRefChar_of_isBlank hb, ?_⟩
  rintro rfl
  revert hb
  decide

theorem IsClosing.endsReference (h : IsClosing back) : EndsReference back := by
  cases back with
  | nil => exact nofun
  | cons b back =>
    intro c hc
    obtain rfl := Option.some.inj hc
    cases hblank : isBlank b with
    | true =>
      have hgap : IsGap [b] := ⟨List.cons_ne_nil _ _, List.forall_mem_singleton.mpr hblank⟩
      exact hgap.endsReference [] b rfl
    | false =>
      -- the only character that is no blank is the question mark
      rw [IsClosing, Comparison.inked_cons hblank] at h
      obtain rfl := (List.cons.inj (h.resolve_left (List.cons_ne_nil _ _))).1
      decide

/-- A part of a reference is read up to where no character of references follows. -/
theorem IsPart.span (h : IsPart cs) (rest : List Char)
    (hrest : ∀ c ∈ rest.head?, isRefChar c = false) :
    (cs ++ rest).takeWhile isRefChar = cs ∧ (cs ++ rest).dropWhile isRefChar = rest := by
  rw [List.takeWhile_append_of_pos h.chars, List.dropWhile_append_of_pos h.chars]
  cases rest with
  | nil => exact ⟨List.append_nil _, rfl⟩
  | cons c rest =>
    have hc : ¬isRefChar c = true := Bool.eq_false_iff.mp (hrest c rfl)
    rw [List.takeWhile_cons_of_neg hc, List.dropWhile_cons_of_neg hc]
    exact ⟨List.append_nil _, rfl⟩

theorem IsPart.isEmpty (h : IsPart cs) : cs.isEmpty = false :=
  List.isEmpty_eq_false_iff.mpr h.ne_nil

/-- A reference is read as it is written. -/
theorem Reference.read (ref : Reference) (hrest : EndsReference rest) :
    reference? (ref.text ++ rest) =
      some (String.ofList ref.var, ref.path.map String.ofList, rest) := by
  obtain ⟨var, path, hvar, hpath⟩ := ref
  cases path with
  | none =>
    obtain ⟨htake, hdrop⟩ := hvar.span rest fun c hc => (hrest c hc).1
    simp only [Reference.text, Option.map_none, Option.getD_none, List.append_nil, reference?,
      htake, hdrop, hvar.isEmpty, Bool.false_eq_true, if_false]
    split
    · next more => exact absurd rfl (hrest ':' rfl).2
    · rfl
  | some path =>
    have hpath := hpath path rfl
    have hcolon : ∀ c ∈ (':' :: (path ++ rest)).head?, isRefChar c = false :=
      fun c hc => Option.some.inj hc ▸ by decide
    obtain ⟨htake, hdrop⟩ := hvar.span _ hcolon
    obtain ⟨htake', hdrop'⟩ := hpath.span rest fun c hc => (hrest c hc).1
    simp only [Reference.text, Option.map_some, Option.getD_some, List.append_assoc,
      List.cons_append, reference?, htake, hdrop, htake', hdrop', hvar.isEmpty, hpath.isEmpty,
      Bool.false_eq_true, if_false]

/-- The text of a reference does not begin with a blank. -/
theorem Reference.trimStart (ref : Reference) (rest : List Char) :
    Text.trimStart (ref.text ++ rest) = ref.text ++ rest := by
  obtain ⟨c, more, hvar⟩ := List.exists_cons_of_ne_nil ref.hvar.ne_nil
  have hchar := ref.hvar.chars c (hvar ▸ List.mem_cons_self ..)
  refine Text.trimStart_eq_self fun d hd => Bool.eq_false_iff.mpr fun hblank => ?_
  rw [Reference.text, hvar] at hd
  obtain rfl := Option.some.inj hd
  rw [isRefChar_of_isBlank hblank] at hchar
  cases hchar

/-- A question is about what the reference leads to, unless that is null. -/
theorem Reference.actual? (ref : Reference) (value : String) (vars : Vars) :
    (ref.question value).actual? vars =
      (vars.resolve? (String.ofList ref.text)).bind unlessNull := by
  obtain ⟨var, path, hvar, hpath⟩ := ref
  have hcolon : ':' ∉ var := fun h => absurd (hvar.chars ':' h) (by decide)
  refine congrArg (Option.bind · unlessNull) ?_
  cases path with
  | none =>
    have hkey : vars.resolve? (String.ofList var) = vars.get? (String.ofList var) :=
      Vars.resolve?_key (by rwa [String.toList_ofList])
    rw [Reference.text, Option.map_none, Option.getD_none, List.append_nil, hkey]
    exact Option.bind_fun_some _
  | some path => exact (Vars.resolve?_path hcolon).symm

/-- Something is read in front of the end of a label. -/
theorem exists_shortestBefore {mark : Char} (hne : value ≠ []) (hline : '\n' ∉ value)
    (hrest : Comparison.ends mark rest = true) :
    ∃ read, Comparison.shortestBefore mark (value ++ rest) = some read := by
  induction value with
  | nil => exact absurd rfl hne
  | cons c cs ih =>
    have hfirst : c ≠ '\n' := fun h => hline (h ▸ List.mem_cons_self ..)
    rw [List.cons_append, Comparison.shortestBefore, if_neg hfirst]
    split
    · exact ⟨_, rfl⟩
    · next hends =>
      have hnil : cs ≠ [] := fun h => hends (by rw [h]; exact hrest)
      obtain ⟨read, hread⟩ := ih hnil fun h => hline (List.mem_cons_of_mem _ h)
      exact ⟨c :: read, by rw [hread]; rfl⟩

namespace IsAskable

variable (h : IsAskable value)
include h

theorem head (rest : List Char) : ∀ c ∈ (value ++ rest).head?, isBlank c = false := by
  rw [List.head?_append_of_ne_nil _ h.ne_nil, ← h.trimmed]
  exact Text.not_isBlank_head_trim value

theorem last : isBlank (value.getLast h.ne_nil) = false := by
  refine Text.not_isBlank_last_trim value _ ?_
  rw [h.trimmed]
  exact List.getLast?_eq_some_getLast h.ne_nil

/-- The value is read from behind all blanks, if anything can be read there. -/
theorem valueIn_of_shortest {read : List Char} (hgap : IsGap gap)
    (hread : Comparison.shortestBefore '?' (value ++ back) = some read) :
    valueIn (gap ++ (value ++ back)) = some read := by
  have htake : (gap ++ (value ++ back)).takeWhile isBlank = gap := by
    rw [List.takeWhile_append_of_pos hgap.blanks]
    obtain ⟨c, more, hmore⟩ :=
      List.exists_cons_of_ne_nil (List.append_ne_nil_of_left_ne_nil h.ne_nil back)
    have hc := h.head back c (by rw [hmore]; rfl)
    rw [hmore, List.takeWhile_cons_of_neg (Bool.eq_false_iff.mp hc), List.append_nil]
  have hdrop : (gap ++ (value ++ back)).drop (gap.length - 0) = value ++ back := List.drop_left
  obtain ⟨n, hn⟩ := Nat.exists_eq_add_one.mpr (List.length_pos_iff.mpr hgap.ne_nil)
  rw [valueIn, Comparison.afterBlanks, htake, Nat.add_sub_cancel]
  conv_lhs => enter [2, 2]; rw [hn]
  rw [List.range_succ_eq_map, List.map_cons, List.findSome?_cons, hdrop, hread]

/-- Something is read behind the word `is`; if no question mark is at its end, all of it. -/
theorem read (hgap : IsGap gap) (hback : IsClosing back) :
    ∃ read, valueIn (gap ++ (value ++ back)) = some read ∧
      (value.getLast? ≠ some '?' → read = value) := by
  have hends : Comparison.ends '?' back = true := Comparison.ends_iff.mpr hback
  obtain ⟨read, hread⟩ := exists_shortestBefore h.ne_nil h.line hends
  refine ⟨read, h.valueIn_of_shortest hgap hread, fun hlast => ?_⟩
  rw [List.getLast?_eq_some_getLast h.ne_nil] at hlast
  have hall := Comparison.shortestBefore_append h.ne_nil h.line hends h.last
    (Or.inl fun heq => hlast (congrArg some heq))
  exact Option.some.inj (hread.symm.trans hall)

end IsAskable

end Parts

/-! ## Reading the labels -/

section Labels

variable {ref : Reference} {front value back : List Char} {label : String}

/-- **What a label asks with `if` is read as it is written.** -/
theorem OpensIf.read (hfront : OpensIf ref front) (hvalue : IsAskable value)
    (hback : IsClosing back) (hlabel : label.toList = front ++ value ++ back) :
    ∃ read, ifIs? label = some (ref.question (String.ofList read)) ∧
      (value.getLast? ≠ some '?' → read = value) := by
  cases hfront with
  | @words lead first gap gap' second gap'' hlead hfirst hgap hgap' hsecond hgap'' =>
    obtain ⟨read, hread, hall⟩ := hvalue.read hgap'' hback
    refine ⟨read, ?_, hall⟩
    have htrim : Text.trimStart (second ++ (gap'' ++ (value ++ back))) = _ :=
      hsecond.trimStart (by decide) _
    have hreference := ref.read (hgap'.endsReference (second ++ (gap'' ++ (value ++ back))))
    rw [ifIs?, hlabel]
    simp only [List.append_assoc]
    rw [hlead.trimStart, hfirst.trimStart (by decide), hfirst.dropWord?]
    simp only [Option.bind_eq_bind, Option.bind_some]
    rw [hgap.dropBlanks?, ref.trimStart, Option.bind_some, hreference, Option.bind_some]
    dsimp only
    rw [hgap'.dropBlanks?, htrim, Option.bind_some, hsecond.dropWord?, Option.bind_some,
      hgap''.dropBlanks?, Option.bind_some, hread]
    rfl

/-- **What a label asks with `check` is read as it is written.** -/
theorem OpensCheck.read (hfront : OpensCheck ref front) (hback : IsClosing back)
    (hlabel : label.toList = front ++ back) :
    check? label = some (ref.question "") ∧ ifIs? label = none := by
  cases hfront with
  | @word lead first gap hlead hfirst hgap =>
    constructor
    · rw [check?, hlabel]
      simp only [List.append_assoc]
      rw [hlead.trimStart, hfirst.trimStart (by decide), hfirst.dropWord?]
      simp only [Option.bind_eq_bind, Option.bind_some]
      rw [hgap.dropBlanks?, ref.trimStart, Option.bind_some, ref.read hback.endsReference,
        Option.bind_some]
      dsimp only
      rw [if_pos (Comparison.ends_iff.mpr hback)]
      rfl
    · cases hfirst with
      | @cons _ c _ more hc hmore =>
        have hother : ¬isLetter 'i' c = true := fun hi => by
          have hlower := (isLetter_iff.mp hc).resolve_right (by simp)
          rw [isLetter_iff, hlower] at hi
          exact absurd hi (by simp)
        rw [ifIs?, hlabel]
        simp only [List.append_assoc]
        rw [hlead.trimStart, Spells.trimStart (.cons hc hmore) (by decide), List.cons_append,
          dropWord?, if_neg hother]
        rfl

end Labels

/-! ## Words that are asked for -/

section Words

variable {answer : Bool} {text : String}

theorem Means.not_isBlank (h : Means answer text) : ∀ c ∈ text.toList, isBlank c = false := by
  have hall : ∀ answer, ∀ w ∈ synonyms answer, w.toList.any isBlank = false := by decide
  intro c hc
  refine Bool.eq_false_iff.mpr fun hblank => ?_
  have hlower : c ∈ (Text.asciiLowered text).toList := by
    rw [Text.asciiLowered, String.toList_ofList, ← asciiLower_of_isBlank hblank]
    exact List.mem_map_of_mem hc
  exact List.any_eq_false.mp (hall answer _ h) c hlower hblank

/-- A word can be asked for. -/
theorem Means.isAskable (h : Means answer text) : IsAskable text.toList where
  ne_nil hnil := by
    have hall : ∀ answer, ∀ w ∈ synonyms answer, w.toList ≠ [] := by decide
    refine hall answer _ h ?_
    rw [Text.asciiLowered, String.toList_ofList, hnil]
    rfl
  trimmed := Text.trim_eq_self (fun c hc => h.not_isBlank c (List.mem_of_mem_head? hc))
    fun c hc => h.not_isBlank c (List.mem_of_mem_getLast? hc)
  line hmem := absurd (h.not_isBlank '\n' hmem) (by decide)

theorem Means.not_question (h : Means answer text) : text.toList.getLast? ≠ some '?' :=
  fun hlast => h.not_mem ['?'] (by decide) (by decide) '?'
    (List.mem_of_getLast? hlast) (List.mem_singleton_self _)

/-- **A word is asked for as it stands**, and the answer is on which side the value is. -/
theorem Means.answeredBy (h : Means answer text) (ref : Reference) (actual : Option Json) :
    (ref.question text).answeredBy actual = decide (actual.map side = some answer) := by
  have hquote : Literal.unquote? text.toList = none := by
    refine Option.eq_none_iff_forall_not_mem.mpr fun inner hinner => ?_
    obtain ⟨mark, hmark, heq⟩ := Literal.eq_of_unquote? hinner
    have hmem : mark ∈ text.toList := by
      rw [heq]
      exact List.mem_cons_self ..
    exact h.not_mem Literal.quoteMarks (by decide) (by decide) mark hmem hmark
  have hexpected : (ref.question text).expected = Text.lowered text := by
    change Text.lowered (String.ofList
      ((Literal.unquote? (Text.trim text.toList)).getD (Text.trim text.toList))) = _
    rw [h.isAskable.trimmed, hquote, Option.getD_none, String.ofList_toList]
  have hword := h.synonym?
  rw [← hexpected] at hword
  unfold Question.answeredBy
  split
  · next other hother =>
    obtain rfl := Option.some.inj (hword.symm.trans hother)
    rfl
  · next hnone => exact absurd (hword.symm.trans hnone) (Option.some_ne_none _)

end Words

/-! ## Answers -/

section Answers

variable {yes no : Edge} (hyes : Means true yes.labelText) (hno : Means false no.labelText)
  (vars : Vars) {node : Node} (hnode : node.checkVar? = none)
include hyes hno hnode

/-- What is chosen if a node asks with `if`. -/
theorem chooseEdge_if {q : Question} (hif : ifIs? node.displayLabel = some q) :
    let e := if q.answeredBy (q.actual? vars) then yes else no
    chooseEdge [yes, no] vars node = some e ∧ chooseEdge [no, yes] vars node = some e := by
  obtain ⟨hfirst, hsecond⟩ := chooseEdge_pair_byNode hyes hno vars node
  obtain ⟨hpair, hpair'⟩ := yesNo?_pair hyes hno
  rw [hfirst, hsecond, byNode, byNode, byCheckVar, byCheckVar, hnode, byIfIs, byIfIs, hif]
  simp only [Option.bind_none, Option.bind_some, Option.none_or, Option.some_or, Option.getD_some,
    hpair, hpair', and_self]

/-- What is chosen if a node asks with `check`. -/
theorem chooseEdge_check {q : Question} (hif : ifIs? node.displayLabel = none)
    (hcheck : check? node.displayLabel = some q) :
    let e := if (q.actual? vars).isSome then yes else no
    chooseEdge [yes, no] vars node = some e ∧ chooseEdge [no, yes] vars node = some e := by
  obtain ⟨hfirst, hsecond⟩ := chooseEdge_pair_byNode hyes hno vars node
  obtain ⟨hpair, hpair'⟩ := yesNo?_pair hyes hno
  rw [hfirst, hsecond, byNode, byNode, byCheckVar, byCheckVar, hnode, byIfIs, byIfIs, hif, byCheck,
    byCheck, hcheck]
  simp only [Option.bind_none, Option.none_or, Option.map_some, Option.bind_some,
    Option.getD_some, hpair, hpair', and_self]

end Answers

/-- What a question is about is there if the reference leads to a value that is not null. -/
theorem isSome_actual?_iff {ref : Reference} {vars : Vars} :
    ((ref.question "").actual? vars).isSome = true ↔
      ∃ v, vars.resolve? (String.ofList ref.text) = some v ∧ v ≠ .null := by
  rw [ref.actual?, Option.isSome_iff_exists]
  exact exists_congr fun v => Comparison.bind_unlessNull_eq_some

/-- **The ways for yes and for no.** Of two edges, labelled with a word for yes and a word for no, a
node that asks with `if` or with `check` takes the same one in whatever order they come. One that
asks with `check` takes the way for yes if the reference leads to a value that is not null. One that
asks with `if` takes another way if it asks for yes than if it asks for no, in just the same case:
a value is on one of two sides, and a missing one is on neither. -/
theorem branches (vars : Vars) {yes no : Edge} (hyes : Means true yes.labelText)
    (hno : Means false no.labelText) :
    (∀ node ref value, node.checkVar? = none → IsAskable value → AsksIf node ref value →
      ∃ e, chooseEdge [yes, no] vars node = some e ∧ chooseEdge [no, yes] vars node = some e) ∧
    (∀ node ref, node.checkVar? = none → AsksCheck node ref →
      ∃ e, chooseEdge [yes, no] vars node = some e ∧ chooseEdge [no, yes] vars node = some e ∧
        (e = yes ↔ ∃ v, vars.resolve? (String.ofList ref.text) = some v ∧ v ≠ .null)) ∧
    ∀ ref front back, OpensIf ref front → IsClosing back →
      ∀ forYes forNo, Means true forYes → Means false forNo →
        ∀ node node' : Node, node.checkVar? = none → node'.checkVar? = none →
          node.displayLabel.toList = front ++ forYes.toList ++ back →
          node'.displayLabel.toList = front ++ forNo.toList ++ back →
            (chooseEdge [yes, no] vars node ≠ chooseEdge [yes, no] vars node' ↔
              ∃ v, vars.resolve? (String.ofList ref.text) = some v ∧ v ≠ .null) := by
  have hne := pair_ne hyes hno
  refine ⟨?_, ?_, ?_⟩
  · rintro node ref value hnode hvalue ⟨front, back, hfront, hback, hlabel⟩
    obtain ⟨read, hif, -⟩ := hfront.read hvalue hback hlabel
    exact ⟨_, chooseEdge_if hyes hno vars hnode hif⟩
  · rintro node ref hnode ⟨front, back, hfront, hback, hlabel⟩
    obtain ⟨hcheck, hif⟩ := hfront.read hback hlabel
    obtain ⟨hfirst, hsecond⟩ := chooseEdge_check hyes hno vars hnode hif hcheck
    refine ⟨_, hfirst, hsecond, ?_⟩
    rw [← isSome_actual?_iff, ite_eq_left_iff]
    exact ⟨fun h => by_contra fun hnone => hne (h hnone).symm, fun h hnone => absurd h hnone⟩
  · intro ref front back hfront hback forYes forNo hforYes hforNo node node' hnode hnode' hlabel
      hlabel'
    obtain ⟨read, hif, hread⟩ := hfront.read hforYes.isAskable hback hlabel
    obtain rfl := hread hforYes.not_question
    obtain ⟨read', hif', hread'⟩ := hfront.read hforNo.isAskable hback hlabel'
    obtain rfl := hread' hforNo.not_question
    rw [String.ofList_toList] at hif hif'
    rw [(chooseEdge_if hyes hno vars hnode hif).1, (chooseEdge_if hyes hno vars hnode' hif').1,
      hforYes.answeredBy, hforNo.answeredBy, ← isSome_actual?_iff, ref.actual?, ref.actual?,
      ref.actual?]
    cases (vars.resolve? (String.ofList ref.text)).bind unlessNull with
    | none => simp
    | some v => cases hside : side v <;> simp [hside, hne, hne.symm]

/-- A way out of a node, for yes. -/
def ship : Edge := { id := "e1", source := "a", target := "b", label := some " YES " }

/-- A way out of it, for no. -/
def hold : Edge := { id := "e2", source := "a", target := "c", label := some "No" }

/-- An order that was turned down. -/
def turnedDown : Vars := Vars.empty.set "Order" (.obj [("approved", .bool false)])

/-- Whether an order was approved. -/
def approval : Reference where
  var := ['o', 'r', 'd', 'e', 'r']
  path := some ['a', 'p', 'p', 'r', 'o', 'v', 'e', 'd']
  hvar := ⟨by decide, List.all_eq_true.mp rfl⟩
  hpath := fun _ h => Option.some.inj h ▸ ⟨by decide, List.all_eq_true.mp rfl⟩

/-- A node with a label. -/
def titled (label : String) : Node := { id := "a", metadata := [("label", .str label)] }

theorem opensIf_approval : OpensIf approval " if order:approved IS ".toList :=
  have hgap : IsGap [' '] := ⟨by decide, List.all_eq_true.mp rfl⟩
  @OpensIf.words _ [' '] ['i', 'f'] [' '] [' '] ['I', 'S'] [' '] hgap.blanks
    (.cons rfl (.cons rfl .nil)) hgap hgap (.cons rfl (.cons rfl .nil)) hgap

theorem asksCheck_approval : AsksCheck (titled "Check order:approved ?") approval :=
  ⟨_, [' ', '?'], @OpensCheck.word _ [] ['C', 'h', 'e', 'c', 'k'] [' '] (List.forall_mem_nil _)
    (.cons rfl (.cons rfl (.cons rfl (.cons rfl (.cons rfl .nil)))))
    ⟨by decide, List.all_eq_true.mp rfl⟩, Or.inr rfl, rfl⟩

theorem resolve?_approval :
    turnedDown.resolve? (String.ofList approval.text) = some (.bool false) := rfl

/-- An order that was turned down has been checked, so it is shipped; and whether it is asked if it
was approved or if it was not makes a difference. -/
theorem turnedDown_checked :
    Means true ship.labelText ∧ Means false hold.labelText ∧
      chooseEdge [ship, hold] turnedDown (titled "Check order:approved ?") = some ship ∧
      chooseEdge [hold, ship] turnedDown (titled "Check order:approved ?") = some ship ∧
      chooseEdge [ship, hold] turnedDown (titled " if order:approved IS Yes?") ≠
        chooseEdge [ship, hold] turnedDown (titled " if order:approved IS FALSE?") := by
  have hship : Means true ship.labelText := by decide
  have hhold : Means false hold.labelText := by decide
  have hfound : ∃ v, turnedDown.resolve? (String.ofList approval.text) = some v ∧ v ≠ .null :=
    ⟨_, resolve?_approval, nofun⟩
  obtain ⟨-, hcheck, hif⟩ := branches turnedDown hship hhold
  obtain ⟨e, hfirst, hsecond, hyes⟩ := hcheck _ _ rfl asksCheck_approval
  obtain rfl := hyes.mpr hfound
  have hdiffer := hif approval _ ['?'] opensIf_approval (Or.inr rfl) "Yes" "FALSE" (by decide)
    (by decide) (titled " if order:approved IS Yes?") (titled " if order:approved IS FALSE?")
    rfl rfl rfl rfl
  exact ⟨hship, hhold, hfirst, hsecond, hdiffer.mpr hfound⟩

end Workflow.Choice
