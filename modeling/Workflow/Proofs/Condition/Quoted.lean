import Workflow.Proofs.Condition.Comparison

/-!
# Comparing with text in quotes

Between quotes any text can be written on one line: blanks, operators, parentheses, words and digits
with a meaning of their own, and quotes of the other kinds or of the same. It is neither cut nor
taken for anything else, since a literal that begins and ends with a quote has no blanks at its ends
and no parenthesis behind it (`isLiteral_inQuotes`, `kept_inQuotes`). What holds of the comparison
is then settled by its operator alone (`quoted_holds_iff`): strictly equal is that text only, and
loosely equal is every value with that text, a number or an object as well, but not null.
-/

namespace Workflow.Comparison

variable {mark : Char} {name v : String}

/-! ## How it is read -/

/-- A text between two marks. -/
def inQuotes (mark : Char) (v : String) : String := String.ofList (mark :: (v.toList ++ [mark]))

theorem isLiteral_inQuotes (hmark : mark ∈ Literal.quoteMarks) (hline : '\n' ∉ v.toList) :
    IsLiteral (inQuotes mark v).toList := by
  have hother : ∀ mark ∈ Literal.quoteMarks, mark ≠ '\n' ∧ mark ≠ '=' :=
    List.all_iff_forall_prop.mp rfl
  obtain ⟨hfeed, hsign⟩ := hother mark hmark
  rw [inQuotes, String.toList_ofList]
  refine ⟨List.cons_ne_nil _ _, Literal.trim_quoted hmark _, ?_,
    fun h => hsign (Option.some.inj h)⟩
  rw [List.mem_cons, List.mem_append, List.mem_singleton]
  rintro (h | h | h)
  · exact hfeed h.symm
  · exact hline h
  · exact hfeed h.symm

/-- Text in quotes is kept as it is. -/
theorem kept_inQuotes (hmark : mark ∈ Literal.quoteMarks) (v : String) :
    kept (inQuotes mark v).toList = (inQuotes mark v).toList := by
  have hother : ∀ mark ∈ Literal.quoteMarks, mark ≠ ')' := List.all_iff_forall_prop.mp rfl
  rw [kept_eq_iff, inQuotes, String.toList_ofList, ← List.cons_append, List.getLast?_concat]
  exact fun h => hother mark hmark (Option.some.inj h.1)

theorem parse?_quoted (hname : IsName name.toList) (hline : '\n' ∉ v.toList)
    (hmark : mark ∈ Literal.quoteMarks) (spelling : String) (op : CompareOp)
    (hspelling : (spelling.toList, op) ∈ CompareOp.spellings) :
    parse? (name ++ " " ++ spelling ++ " " ++ inQuotes mark v) = some ⟨name, op, .text v⟩ := by
  have hblank : ∀ c ∈ " ".toList, Text.isBlank c = true := List.all_eq_true.mp rfl
  let w : Written := ⟨name, " ", spelling, op, " ", inQuotes mark v, hname, hblank, hspelling, hblank,
    isLiteral_inQuotes hmark hline⟩
  have hmeant : w.meant = ⟨name, op, .text v⟩ := by
    have hsniff := Literal.sniff_quoted hmark v.toList
    rw [String.ofList_toList] at hsniff
    exact congrArg (Comparison.mk name op) hsniff
  rw [← hmeant, ← w.bare_eq_meant_iff.mpr (kept_inQuotes hmark v)]
  exact w.parse?_bare

/-! ## What holds -/

section Holds

variable {vars : Vars}

theorem bind_unlessNull_eq_some {actual : Option Json} {value : Json} :
    actual.bind unlessNull = some value ↔ actual = some value ∧ value ≠ .null := by
  constructor
  · intro h
    obtain ⟨v, rfl, hv⟩ := Option.bind_eq_some_iff.mp h
    cases v with
    | null => cases hv
    | _ =>
      obtain rfl := Option.some.inj hv
      exact ⟨rfl, nofun⟩
  · rintro ⟨rfl, hne⟩
    cases value with
    | null => exact absurd rfl hne
    | _ => rfl

/-- Strictly equal to a text is that text only. -/
theorem holds_strict_text_iff :
    (⟨name, .strictEq, .text v⟩ : Comparison).holds vars = true ↔
      vars.resolve? name = some (.str v) := by
  have hequals : (⟨name, .strictEq, .text v⟩ : Comparison).holds vars =
      decide (((vars.resolve? name).bind unlessNull).bind Json.asString? = some v) :=
    Bool.bne_false _
  rw [hequals, decide_eq_true_iff, Option.bind_eq_some_iff]
  constructor
  · rintro ⟨value, hvalue, hstring⟩
    obtain ⟨hresolve, -⟩ := bind_unlessNull_eq_some.mp hvalue
    cases value with
    | str s =>
      obtain rfl := Option.some.inj hstring
      exact hresolve
    | _ => cases hstring
  · intro hresolve
    exact ⟨.str v, bind_unlessNull_eq_some.mpr ⟨hresolve, nofun⟩, rfl⟩

/-- Loosely equal to a text is every value with that text, null aside. -/
theorem holds_loose_text_iff :
    (⟨name, .looseEq, .text v⟩ : Comparison).holds vars = true ↔
      ∃ value, vars.resolve? name = some value ∧ value ≠ .null ∧ valueText value = v := by
  have hequals : (⟨name, .looseEq, .text v⟩ : Comparison).holds vars =
      decide (((vars.resolve? name).bind unlessNull).map valueText = some v) :=
    Bool.bne_false _
  rw [hequals, decide_eq_true_iff, Option.map_eq_some_iff]
  exact exists_congr fun value => (and_congr_left' bind_unlessNull_eq_some).trans and_assoc

end Holds

/-- **A comparison with a text in quotes is about that text**, whatever it holds but line feeds: it
is parsed, and strictly it is true if and only if the name leads to that text, and loosely if and
only if the name leads to a value, null aside, that has that text. -/
theorem quoted_holds_iff (hname : IsName name.toList) (hline : '\n' ∉ v.toList)
    (hmark : mark ∈ Literal.quoteMarks) :
    (∃ c, parse? (name ++ " === " ++ inQuotes mark v) = some c ∧
      ∀ vars, c.holds vars = true ↔ vars.resolve? name = some (.str v)) ∧
    (∃ c, parse? (name ++ " == " ++ inQuotes mark v) = some c ∧
      ∀ vars, c.holds vars = true ↔
        ∃ value, vars.resolve? name = some value ∧ value ≠ .null ∧ valueText value = v) := by
  have hstrict := parse?_quoted hname hline hmark "===" .strictEq (by decide)
  have hloose := parse?_quoted hname hline hmark "==" .looseEq (by decide)
  have hthree : name ++ " " ++ "===" ++ " " = name ++ " === " := by
    rw [String.append_assoc, String.append_assoc]
    rfl
  have htwo : name ++ " " ++ "==" ++ " " = name ++ " == " := by
    rw [String.append_assoc, String.append_assoc]
    rfl
  rw [hthree] at hstrict
  rw [htwo] at hloose
  exact ⟨⟨_, hstrict, fun _ => holds_strict_text_iff⟩, ⟨_, hloose, fun _ => holds_loose_text_iff⟩⟩

/-- A text with quotes, an operator and a closing parenthesis at its end, compared. -/
theorem said_holds :
    IsName "note:said".toList ∧ '\'' ∈ Literal.quoteMarks ∧
      ∃ c, parse? "note:said === 'it's (x == \"1\")'" = some c ∧
        c.holds (Vars.empty.set "Note" (.obj [("said", .str "it's (x == \"1\")")])) = true := by
  have hname : IsName "note:said".toList := ⟨rfl, List.all_eq_true.mp rfl⟩
  have hmark : '\'' ∈ Literal.quoteMarks := by decide
  obtain ⟨c, hparse, hholds⟩ :=
    (quoted_holds_iff (v := "it's (x == \"1\")") hname (by decide) hmark).1
  exact ⟨hname, hmark, c, hparse, (hholds _).mpr rfl⟩

end Workflow.Comparison
