import Workflow.Condition.Choice
import Workflow.Proofs.Text.Blank

/-!
# What labels decide

Of several edges, the labels decide alone as soon as one of them reads like a condition: the first
edge whose comparison holds is taken, else the first labelled `else`, else none (`Decided`). Who
the node is makes no difference then.

Two recognisers have a say in this. A label is parsed for the comparison in it, and it is looked at
for whether it reads like a condition. They agree (`looksConditional_iff`), since the label of an
edge has no blanks at its ends: a blank there could be taken for the literal of a comparison, and
would be lost to the second recogniser. So no edge with a comparison is ever passed over for one
that only the node speaks for (`chooseEdge_decided`).
-/

namespace Workflow.Choice

open Comparison (looksConditional)

/-! ## What labels say -/

/-- The label of an edge is a comparison. -/
def Compares (e : Edge) : Prop := ∃ c, Comparison.parse? e.labelText = some c

/-- The label of an edge is a comparison that is true. -/
def Holds (vars : Vars) (e : Edge) : Prop :=
  ∃ c, Comparison.parse? e.labelText = some c ∧ c.holds vars = true

/-- The label of an edge is the word `else`, in any case. -/
def SaysElse (e : Edge) : Prop := Text.asciiLowered e.labelText = "else"

/-- The label of an edge starts with the word `if`, in any case, and a blank. -/
def SaysIf (e : Edge) : Prop := ['i', 'f', ' '] <+: e.labelText.toList.map Text.asciiLower

theorem matchesLabel_iff {vars : Vars} {e : Edge} : matchesLabel vars e = true ↔ Holds vars e := by
  rw [matchesLabel, Holds]
  cases Comparison.parse? e.labelText <;> simp

theorem isElse_iff {e : Edge} : isElse e = true ↔ SaysElse e := by
  rw [isElse, Text.sameIgnoringCase, decide_eq_true_iff]
  rfl

theorem dropFront?_isSome_iff {front cs : List Char} :
    (Comparison.dropFront? front cs).isSome = true ↔ front <+: cs := by
  induction front generalizing cs with
  | nil => exact iff_of_true rfl List.nil_prefix
  | cons p front ih =>
    cases cs with
    | nil => simp [Comparison.dropFront?]
    | cons c cs =>
      rw [Comparison.dropFront?, List.cons_prefix_cons, ← ih]
      split
      · next heq => exact (and_iff_right heq).symm
      · next hne => exact iff_of_false Bool.false_ne_true fun h => hne h.1

theorem trimmed_labelText (e : Edge) : Text.trimmed e.labelText = e.labelText := by
  rw [Edge.labelText]
  cases e.label with
  | none => rfl
  | some label => exact Text.trimmed_trimmed label

/-- **The two recognisers agree**: a label reads like a condition if it says `else` or `if`, or is a
comparison. -/
theorem looksConditional_iff {e : Edge} :
    looksConditional e.labelText = true ↔ SaysElse e ∨ SaysIf e ∨ Compares e := by
  rw [looksConditional, trimmed_labelText, Bool.or_eq_true, Bool.or_eq_true,
    dropFront?_isSome_iff, Option.isSome_iff_exists, or_assoc]
  exact or_congr_left isElse_iff

/-- Of a text with a blank at its end the recognisers may differ. -/
example : (Comparison.parse? "x == ").isSome ∧ looksConditional "x == " = false := by decide

/-! ## The first edge of some kind -/

/-- An edge is the first of its kind. -/
def IsFirst (P : Edge → Prop) (edges : List Edge) (e : Edge) : Prop :=
  ∃ before after, edges = before ++ e :: after ∧ P e ∧ ∀ d ∈ before, ¬P d

theorem IsFirst.mem {P : Edge → Prop} {edges : List Edge} {e : Edge} (h : IsFirst P edges e) :
    e ∈ edges := by
  obtain ⟨before, after, rfl, -⟩ := h
  exact List.mem_append_right _ (List.mem_cons_self ..)

section Find

variable {P : Edge → Prop} {p : Edge → Bool} (hp : ∀ e, p e = true ↔ P e)
include hp

theorem isFirst_of_find? {edges : List Edge} {e : Edge} (h : edges.find? p = some e) :
    IsFirst P edges e := by
  obtain ⟨he, before, after, hsplit, hbefore⟩ := List.find?_eq_some_iff_append.mp h
  refine ⟨before, after, hsplit, (hp e).mp he, fun d hd hP => ?_⟩
  simpa [(hp d).mpr hP] using hbefore d hd

theorem none_of_find? {edges : List Edge} (h : edges.find? p = none) : ∀ e ∈ edges, ¬P e :=
  fun e he hP => List.find?_eq_none.mp h e he ((hp e).mpr hP)

end Find

/-! ## What the labels decide -/

/-- What the labels of several edges decide among them. -/
inductive Decided (vars : Vars) (edges : List Edge) : Option Edge → Prop where
  /-- the first edge whose comparison holds -/
  | holds {e : Edge} (h : IsFirst (Holds vars) edges e) : Decided vars edges (some e)
  /-- if none holds, the first labelled `else` -/
  | otherwise {e : Edge} (hnone : ∀ d ∈ edges, ¬Holds vars d) (h : IsFirst SaysElse edges e) :
    Decided vars edges (some e)
  /-- if there is none either, no edge -/
  | stuck (hnone : ∀ d ∈ edges, ¬Holds vars d) (helse : ∀ d ∈ edges, ¬SaysElse d) :
    Decided vars edges none

/-- The edge that the labels lead to. -/
def decision (vars : Vars) (edges : List Edge) : Option Edge :=
  (edges.find? (matchesLabel vars)).or (edges.find? isElse)

theorem decided_decision (vars : Vars) (edges : List Edge) :
    Decided vars edges (decision vars edges) := by
  rw [decision]
  cases hmatch : edges.find? (matchesLabel vars) with
  | some e => exact .holds (isFirst_of_find? (fun _ => matchesLabel_iff) hmatch)
  | none =>
    have hnone : ∀ e ∈ edges, ¬Holds vars e := none_of_find? (fun _ => matchesLabel_iff) hmatch
    rw [Option.none_or]
    cases helse : edges.find? isElse with
    | some e => exact .otherwise hnone (isFirst_of_find? (fun _ => isElse_iff) helse)
    | none => exact .stuck hnone (none_of_find? (fun _ => isElse_iff) helse)

namespace Decided

variable {vars : Vars} {edges : List Edge}

theorem mem {e : Edge} (h : Decided vars edges (some e)) : e ∈ edges := by
  cases h with
  | holds h => exact h.mem
  | otherwise _ h => exact h.mem

theorem eq_none_iff {d : Option Edge} (h : Decided vars edges d) :
    d = none ↔ (∀ e ∈ edges, ¬Holds vars e) ∧ ∀ e ∈ edges, ¬SaysElse e := by
  cases h with
  | holds h =>
    obtain ⟨_, _, -, hholds, -⟩ := id h
    exact iff_of_false nofun fun hnone => hnone.1 _ h.mem hholds
  | otherwise _ h =>
    obtain ⟨_, _, -, helse, -⟩ := id h
    exact iff_of_false nofun fun hnone => hnone.2 _ h.mem helse
  | stuck hnone helse => exact iff_of_true rfl ⟨hnone, helse⟩

end Decided

/-! ## What the node has a say in -/

section Node

variable {edges : List Edge} {vars : Vars} {node : Node} {e : Edge}

theorem mem_of_labelled? {wanted : String} (h : labelled? edges wanted = some e) : e ∈ edges := by
  rw [labelled?] at h
  split at h
  · cases h
  · exact List.mem_of_find?_eq_some h

theorem mem_of_yesNo? {yes no : Edge} (h : yesNo? edges = some (yes, no)) :
    yes ∈ edges ∧ no ∈ edges := by
  unfold yesNo? at h
  split at h
  · split at h
    · cases h
      simp
    · cases h
      simp
    · cases h
  · cases h

theorem mem_of_byCheckVar (h : byCheckVar edges vars node = some e) : e ∈ edges := by
  obtain ⟨_, -, h⟩ := Option.bind_eq_some_iff.mp h
  exact mem_of_labelled? h

theorem mem_of_byIfIs (h : byIfIs edges vars node = some e) : e ∈ edges := by
  obtain ⟨q, -, h⟩ := Option.bind_eq_some_iff.mp h
  dsimp only at h
  split at h
  · next yes no hpair =>
    obtain ⟨hyes, hno⟩ := mem_of_yesNo? hpair
    obtain rfl := Option.some.inj h
    split
    · exact hyes
    · exact hno
  · exact mem_of_labelled? h

theorem mem_of_byCheck (h : byCheck edges vars node = some e) : e ∈ edges := by
  obtain ⟨q, -, h⟩ := Option.bind_eq_some_iff.mp h
  obtain ⟨⟨yes, no⟩, hpair, h⟩ := Option.map_eq_some_iff.mp h
  obtain ⟨hyes, hno⟩ := mem_of_yesNo? hpair
  obtain rfl := h
  dsimp only
  split
  · exact hyes
  · exact hno

end Node

/-! ## The choice -/

/-- What is chosen if the labels decide nothing: what the node speaks for, else the first edge. -/
def byNode (first : Edge) (edges : List Edge) (vars : Vars) (node : Node) : Edge :=
  (((byCheckVar edges vars node).or (byIfIs edges vars node)).or
    (byCheck edges vars node)).getD first

theorem byNode_mem {first : Edge} {edges : List Edge} (h : first ∈ edges) (vars : Vars)
    (node : Node) : byNode first edges vars node ∈ edges := by
  rw [byNode]
  -- the first rule that has an answer gives it
  cases hvar : byCheckVar edges vars node with
  | some e => exact mem_of_byCheckVar hvar
  | none =>
    cases hif : byIfIs edges vars node with
    | some e => exact mem_of_byIfIs hif
    | none =>
      cases hcheck : byCheck edges vars node with
      | some e => exact mem_of_byCheck hcheck
      | none => exact h

/-- Among several edges the labels come first, then the node. -/
theorem chooseEdge_several (a b : Edge) (rest : List Edge) (vars : Vars) (node : Node) :
    chooseEdge (a :: b :: rest) vars node = (decision vars (a :: b :: rest)).or
      (if (a :: b :: rest).any fun e => looksConditional e.labelText then none
        else some (byNode a (a :: b :: rest) vars node)) := by
  rw [chooseEdge, decision]
  · generalize ((a :: b :: rest).any fun e => looksConditional e.labelText) = conditional
    cases (a :: b :: rest).find? (matchesLabel vars) with
    | some e => rfl
    | none => cases (a :: b :: rest).find? isElse <;> rfl
  · exact nofun

/-- If no label reads like a condition, it is for the node to decide. -/
theorem chooseEdge_byNode {a b : Edge} {rest : List Edge} {vars : Vars} {node : Node}
    (h : ¬∃ e ∈ a :: b :: rest, looksConditional e.labelText = true) :
    chooseEdge (a :: b :: rest) vars node = some (byNode a (a :: b :: rest) vars node) := by
  have hdecision : decision vars (a :: b :: rest) = none :=
    (decided_decision vars _).eq_none_iff.mpr
      ⟨fun e he hholds => h ⟨e, he, looksConditional_iff.mpr (Or.inr (Or.inr
          (hholds.imp fun _ hc => hc.1)))⟩,
        fun e he helse => h ⟨e, he, looksConditional_iff.mpr (Or.inl helse)⟩⟩
  rw [chooseEdge_several, hdecision, Option.none_or, if_neg (mt List.any_eq_true.mp h)]

theorem eq_cons_cons {edges : List Edge} (h : 2 ≤ edges.length) :
    ∃ a b rest, edges = a :: b :: rest := by
  rcases edges with _ | ⟨a, _ | ⟨b, rest⟩⟩
  · exact absurd h (Nat.not_succ_le_zero 1)
  · exact absurd h (Nat.not_succ_le_self 1)
  · exact ⟨a, b, rest, rfl⟩

section Several

variable {edges : List Edge} (hsome : 2 ≤ edges.length) (vars : Vars) (node : Node)
include hsome

/-- If a label reads like a condition, the labels decide. -/
theorem chooseEdge_conditional (h : ∃ e ∈ edges, looksConditional e.labelText = true) :
    chooseEdge edges vars node = decision vars edges := by
  obtain ⟨a, b, rest, rfl⟩ := eq_cons_cons hsome
  rw [chooseEdge_several, if_pos (List.any_eq_true.mpr h), Option.or_none]

/-- If none does, the labels decide nothing, and some edge is taken. -/
theorem chooseEdge_plain (h : ¬∃ e ∈ edges, looksConditional e.labelText = true) :
    ∃ e ∈ edges, chooseEdge edges vars node = some e := by
  obtain ⟨a, b, rest, rfl⟩ := eq_cons_cons hsome
  exact ⟨_, byNode_mem (List.mem_cons_self ..) vars node, chooseEdge_byNode h⟩

end Several

/-- **What is chosen**: no edge only if there is none, or if of several edges some reads like a
condition while no comparison holds and no label says `else`; else one of the edges. Where several
edges leave and a label reads like a condition, as every comparison does, the labels decide, and
they decide alike for every node. -/
theorem chooseEdge_decided (edges : List Edge) (vars : Vars) :
    (∀ node, chooseEdge edges vars node = none ↔ edges = [] ∨
      2 ≤ edges.length ∧ (∀ e ∈ edges, ¬Holds vars e) ∧ (∀ e ∈ edges, ¬SaysElse e) ∧
        ∃ e ∈ edges, looksConditional e.labelText = true) ∧
    (∀ node e, chooseEdge edges vars node = some e → e ∈ edges) ∧
    (∀ e ∈ edges, Compares e → looksConditional e.labelText = true) ∧
    (2 ≤ edges.length → (∃ e ∈ edges, looksConditional e.labelText = true) →
      ∃ d, Decided vars edges d ∧ ∀ node, chooseEdge edges vars node = d) := by
  have hagree : ∀ e ∈ edges, Compares e → looksConditional e.labelText = true :=
    fun e _ h => looksConditional_iff.mpr (Or.inr (Or.inr h))
  by_cases hsome : 2 ≤ edges.length
  · have hne : edges ≠ [] := fun h => by
      rw [h] at hsome
      exact absurd hsome (by decide)
    by_cases hcond : ∃ e ∈ edges, looksConditional e.labelText = true
    · have hchoose := fun node => chooseEdge_conditional hsome vars node hcond
      have hdecided := decided_decision vars edges
      refine ⟨fun node => ?_, fun node e he => ?_, hagree, fun _ _ => ⟨_, hdecided, hchoose⟩⟩
      · rw [hchoose node, hdecided.eq_none_iff]
        exact ⟨fun h => Or.inr ⟨hsome, h.1, h.2, hcond⟩,
          fun h => h.elim (absurd · hne) fun h => ⟨h.2.1, h.2.2.1⟩⟩
      · rw [hchoose node] at he
        exact (he ▸ hdecided).mem
    · have hchoose := fun node => chooseEdge_plain hsome vars node hcond
      refine ⟨fun node => ?_, fun node e he => ?_, hagree, fun _ h => absurd h hcond⟩
      · obtain ⟨e, -, heq⟩ := hchoose node
        rw [heq]
        exact iff_of_false nofun fun h => h.elim hne fun h => hcond h.2.2.2
      · obtain ⟨d, hd, heq⟩ := hchoose node
        rw [heq] at he
        exact Option.some.inj he ▸ hd
  · -- there is no edge, or only one
    rcases edges with _ | ⟨only, _ | ⟨b, rest⟩⟩
    · exact ⟨fun _ => iff_of_true rfl (Or.inl rfl), nofun, hagree, fun h => absurd h hsome⟩
    · refine ⟨fun _ => iff_of_false nofun ?_, fun _ e he => ?_, hagree, fun h => absurd h hsome⟩
      · rintro (h | h)
        · cases h
        · exact hsome h.1
      · exact Option.some.inj he ▸ List.mem_cons_self ..
    · exact absurd (Nat.le_add_left 2 rest.length) hsome

/-- Two ways out of a node: one for a status, one for any other. -/
def statusWays : List Edge :=
  [{ id := "e1", source := "a", target := "b", label := some "status === 'done'" },
    { id := "e2", source := "a", target := "c", label := some " ELSE " }]

/-- A run that is not done leaves by the other way, whatever its node says. -/
theorem open_takes_else :
    2 ≤ statusWays.length ∧ (∃ e ∈ statusWays, looksConditional e.labelText = true) ∧
      Decided (Vars.empty.set "Status" (.str "open")) statusWays statusWays[1]? ∧
      ∀ node, chooseEdge statusWays (Vars.empty.set "Status" (.str "open")) node =
        statusWays[1]? := by
  have hconditional : ∃ e ∈ statusWays, looksConditional e.labelText = true :=
    ⟨_, List.mem_cons_self .., by decide⟩
  obtain ⟨d, hdecided, hchoose⟩ :=
    (chooseEdge_decided statusWays (Vars.empty.set "Status" (.str "open"))).2.2.2 (by decide)
      hconditional
  obtain rfl : statusWays[1]? = d := hchoose { id := "a", config := [], metadata := [] }
  exact ⟨by decide, hconditional, hdecided, hchoose⟩

end Workflow.Choice
