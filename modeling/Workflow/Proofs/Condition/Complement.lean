import Workflow.Proofs.Condition.Choice
import Workflow.Proofs.Vars.Store

/-!
# A condition and its opposite

A node that two edges leave, one for `x === y` and one for `x !== y`, is left by one of them,
whatever `x` is: a number, a text that reads like one or like none, null, or missing altogether
(`two_ways`). The two comparisons are evaluated by the same rule for every kind of literal, and in
each rule the inequality is the negation of the equality (`holds_opposite`). For numbers this is so
since two doubles are unlike if and only if they are not equal, NaN included, and since a value that
is no number makes an inequality true.

Strict equality says more than loose equality (`holds_loose`), and a variable that is null is as
good as missing (`holds_set_null`).
-/

namespace Workflow

open Comparison

/-! ## Opposite operators -/

/-- The operator that denies an equality. -/
def CompareOp.opposite? : CompareOp → Option CompareOp
  | strictEq => some strictNe
  | looseEq => some looseNe
  | _ => none

namespace CompareOp

variable {op other : CompareOp} (h : op.opposite? = some other)
include h

theorem opposite_cases :
    (op = strictEq ∧ other = strictNe) ∨ (op = looseEq ∧ other = looseNe) := by
  cases op with
  | strictEq => exact Or.inl ⟨rfl, (Option.some.inj h).symm⟩
  | looseEq => exact Or.inr ⟨rfl, (Option.some.inj h).symm⟩
  | _ => cases h

theorem isRelational_of_opposite : op.isRelational = false ∧ other.isRelational = false := by
  rcases opposite_cases h with ⟨rfl, rfl⟩ | ⟨rfl, rfl⟩ <;> exact ⟨rfl, rfl⟩

theorem isNegative_of_opposite : op.isNegative = false ∧ other.isNegative = true := by
  rcases opposite_cases h with ⟨rfl, rfl⟩ | ⟨rfl, rfl⟩ <;> exact ⟨rfl, rfl⟩

theorem isStrict_opposite : other.isStrict = op.isStrict := by
  rcases opposite_cases h with ⟨rfl, rfl⟩ | ⟨rfl, rfl⟩ <;> rfl

theorem onNumbers_opposite (x y : Float) : other.onNumbers x y = !op.onNumbers x y := by
  rcases opposite_cases h with ⟨rfl, rfl⟩ | ⟨rfl, rfl⟩ <;> rfl

end CompareOp

namespace Comparison

/-! ## Opposite comparisons -/

section Opposite

variable {op other : CompareOp} (h : op.opposite? = some other) (name : String)
  (literal : Literal)
include h

theorem isNumeric_opposite :
    (⟨name, other, literal⟩ : Comparison).isNumeric =
      (⟨name, op, literal⟩ : Comparison).isNumeric := by
  obtain ⟨hop, hother⟩ := CompareOp.isRelational_of_opposite h
  rw [isNumeric, isNumeric, hop, hother]

/-- Of two numbers the one or the other is true; if a side is no number, it is the inequality. -/
theorem numbers_opposite (actual : Option Json) :
    (⟨name, other, literal⟩ : Comparison).onNumbers actual =
      !(⟨name, op, literal⟩ : Comparison).onNumbers actual := by
  obtain ⟨hop, hother⟩ := CompareOp.isNegative_of_opposite h
  rw [onNumbers, onNumbers]
  cases actual.bind numberOf with
  | none => rw [hop, hother]; rfl
  | some x =>
    cases literal.asNumber? with
    | none => rw [hop, hother]; rfl
    | some y => exact CompareOp.onNumbers_opposite h x y

theorem holdsFor_opposite (actual : Option Json) :
    (⟨name, other, literal⟩ : Comparison).holdsFor actual =
      !(⟨name, op, literal⟩ : Comparison).holdsFor actual := by
  obtain ⟨hop, hother⟩ := CompareOp.isNegative_of_opposite h
  rw [holdsFor, holdsFor, isNumeric_opposite h]
  split
  · exact numbers_opposite h name literal actual
  · rw [hop, hother, CompareOp.isStrict_opposite h, Bool.bne_true, Bool.bne_false]

/-- An inequality is true if and only if the equality that it denies is not. -/
theorem holds_opposite (vars : Vars) :
    (⟨name, other, literal⟩ : Comparison).holds vars =
      !(⟨name, op, literal⟩ : Comparison).holds vars :=
  holdsFor_opposite h name literal _

end Opposite

/-! ## Strict and loose equality -/

theorem equals_loose {actual : Option Json} {literal : Literal}
    (h : equals true actual literal = true) : equals false actual literal = true := by
  cases literal with
  | null => exact h
  | number _ => exact h
  | bool b =>
    rcases actual with _ | _ | a | _ | _ | _ | _
    case some.bool =>
      obtain rfl : a = b := of_decide_eq_true h
      exact decide_eq_true rfl
    all_goals cases h
  | text s =>
    rw [equals, if_pos rfl, decide_eq_true_iff] at h
    obtain ⟨v, rfl, hv⟩ := Option.bind_eq_some_iff.mp h
    cases v with
    | str _ =>
      obtain rfl := Option.some.inj hv
      exact decide_eq_true rfl
    | _ => cases hv

/-- What is strictly equal is loosely equal. -/
theorem holds_loose {name : String} {literal : Literal} {vars : Vars}
    (h : (⟨name, .strictEq, literal⟩ : Comparison).holds vars = true) :
    (⟨name, .looseEq, literal⟩ : Comparison).holds vars = true := by
  have hsame : (⟨name, .looseEq, literal⟩ : Comparison).isNumeric =
      (⟨name, .strictEq, literal⟩ : Comparison).isNumeric := rfl
  rw [holds, holdsFor] at h ⊢
  rw [hsame]
  split at h
  · next hnumeric =>
    -- among numbers the two are one operator
    rw [if_pos hnumeric]
    exact h
  · next hplain =>
    rw [if_neg hplain]
    have hstrict := (Bool.bne_false _).symm.trans h
    exact (Bool.bne_false _).trans (equals_loose hstrict)

/-- A truth value is loosely the text of it, but strictly it is no text. -/
example : (⟨"n", .looseEq, .text "true"⟩ : Comparison).holdsFor (some (.bool true)) = true ∧
    (⟨"n", .strictEq, .text "true"⟩ : Comparison).holdsFor (some (.bool true)) = false := by
  decide +kernel

/-! ## Null and missing variables -/

/-- No path leads into null. -/
theorem unlessNull_walk_null (path : List (List Char)) :
    (Vars.walk path .null).bind unlessNull = none := by
  cases path <;> rfl

section Null

variable {vars : Vars} {key : String} (habsent : vars.get? key = none) (name : String)
include habsent

/-- Under every key there is what was there, null aside. -/
theorem get?_set_null :
    (vars.set key .null).get? name = vars.get? name ∨
      vars.get? name = none ∧ (vars.set key .null).get? name = some .null := by
  rw [Vars.get?_set]
  split
  · next heq =>
    rw [Vars.get?, heq] at habsent
    exact Or.inr ⟨habsent, rfl⟩
  · exact Or.inl rfl

theorem getPath?_set_null (path : Option String) :
    ((vars.set key .null).getPath? name path).bind unlessNull =
      (vars.getPath? name path).bind unlessNull := by
  rw [Vars.getPath?, Vars.getPath?]
  rcases get?_set_null habsent name with heq | ⟨hnone, hnull⟩
  · rw [heq]
  · rw [hnone, hnull, Option.bind_some, unlessNull_walk_null]
    rfl

theorem resolve?_set_null :
    ((vars.set key .null).resolve? name).bind unlessNull =
      (vars.resolve? name).bind unlessNull := by
  rw [Vars.resolve?, Vars.resolve?]
  split
  · exact getPath?_set_null habsent _ _
  · rcases get?_set_null habsent name with heq | ⟨hnone, hnull⟩
    · rw [heq]
    · rw [hnone, hnull]
      rfl

end Null

/-- A variable that is set to null is evaluated as if it were missing. -/
theorem holds_set_null {vars : Vars} {key : String} (habsent : vars.get? key = none)
    (c : Comparison) : c.holds (vars.set key .null) = c.holds vars := by
  rw [holds, holds, resolve?_set_null habsent]

end Comparison

/-! ## Two ways out -/

namespace Choice

/-- A comparison that holds at one of two edges and at that one only leads to it. -/
theorem decision_pair {a b : Edge} {c d : Comparison} {vars : Vars}
    (ha : parse? a.labelText = some c) (hb : parse? b.labelText = some d)
    (hopposite : d.holds vars = !c.holds vars) :
    decision vars [a, b] = some (if c.holds vars then a else b) := by
  have hmatch : matchesLabel vars a = c.holds vars := by rw [matchesLabel, ha]
  have hother : matchesLabel vars b = !c.holds vars := by rw [matchesLabel, hb]; exact hopposite
  rw [decision, List.find?_cons, List.find?_cons, hmatch, hother]
  cases c.holds vars <;> rfl

theorem chooseEdge_pair {a b : Edge} {c d : Comparison} {vars : Vars} (node : Node)
    (ha : parse? a.labelText = some c) (hb : parse? b.labelText = some d)
    (hopposite : d.holds vars = !c.holds vars) :
    chooseEdge [a, b] vars node = some (if c.holds vars then a else b) := by
  rw [chooseEdge_several, decision_pair ha hb hopposite, Option.some_or]

/-- **Of an equality and its opposite exactly one is true**, and of two edges with these labels, in
either order, the one whose comparison is true is taken, at every node. A strict equality that is
true is loosely true as well; and no comparison tells a variable that is null from one that is
missing. -/
theorem two_ways (vars : Vars) :
    (∀ (name : String) (op other : CompareOp) (literal : Literal),
      op.opposite? = some other → ∀ a b : Edge,
      parse? a.labelText = some ⟨name, op, literal⟩ →
      parse? b.labelText = some ⟨name, other, literal⟩ → ∀ node : Node,
      (Holds vars a ∧ ¬Holds vars b ∧ chooseEdge [a, b] vars node = some a ∧
        chooseEdge [b, a] vars node = some a) ∨
      (¬Holds vars a ∧ Holds vars b ∧ chooseEdge [a, b] vars node = some b ∧
        chooseEdge [b, a] vars node = some b)) ∧
    (∀ (name : String) (literal : Literal),
      (⟨name, .strictEq, literal⟩ : Comparison).holds vars = true →
      (⟨name, .looseEq, literal⟩ : Comparison).holds vars = true) ∧
    (∀ key : String, vars.get? key = none → ∀ c : Comparison,
      c.holds (vars.set key .null) = c.holds vars) := by
  refine ⟨fun name op other literal hop a b ha hb node => ?_, fun _ _ => holds_loose,
    fun _ habsent => holds_set_null habsent⟩
  have hopposite := holds_opposite hop name literal vars
  have hforth := chooseEdge_pair node ha hb hopposite
  have hback := chooseEdge_pair node hb ha (by rw [hopposite, Bool.not_not])
  rw [← matchesLabel_iff, ← matchesLabel_iff, matchesLabel, matchesLabel, ha, hb]
  dsimp only
  rw [hforth, hback, hopposite]
  cases (⟨name, op, literal⟩ : Comparison).holds vars with
  | true => exact Or.inl ⟨rfl, Bool.false_ne_true, rfl, rfl⟩
  | false => exact Or.inr ⟨Bool.false_ne_true, rfl, rfl, rfl⟩

/-- The way out of a node for a status that is done. -/
def doneWay : Edge :=
  { id := "e1", source := "a", target := "b", label := some "status == 'done'" }

/-- The way out for any other status. -/
def otherWay : Edge :=
  { id := "e2", source := "a", target := "c", label := some "if (status != 'done')" }

/-- Without a status a run leaves by the way for any other, at every node and in either order of the
edges, and so it does with a status that is null. A status that is strictly done is done. -/
theorem missing_status_leaves :
    (Vars.empty.get? "Status" = none ∧
      ∀ node, chooseEdge [doneWay, otherWay] Vars.empty node = some otherWay ∧
        chooseEdge [otherWay, doneWay] Vars.empty node = some otherWay) ∧
      (⟨"status", .looseNe, .text "done"⟩ : Comparison).holds
        (Vars.empty.set "Status" .null) = true ∧
      (⟨"status", .looseEq, .text "done"⟩ : Comparison).holds
        (Vars.empty.set "Status" (.str "done")) = true := by
  have habsent : Vars.empty.get? "Status" = none := by decide +kernel
  refine ⟨⟨habsent, fun node => ?_⟩, ?_, ?_⟩
  · obtain ⟨hholds, -⟩ | ⟨-, -, hchoose⟩ := (two_ways Vars.empty).1 "status" .looseEq .looseNe
      (.text "done") rfl doneWay otherWay rfl rfl node
    · exact absurd (matchesLabel_iff.mpr hholds) (by decide +kernel)
    · exact hchoose
  · rw [(two_ways Vars.empty).2.2 "Status" habsent]
    decide +kernel
  · exact (two_ways _).2.1 "status" (.text "done") (by decide +kernel)

end Choice

end Workflow
