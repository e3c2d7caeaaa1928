import Mathlib.Data.List.TakeWhile
import Workflow.CommandLine.Commands
import Workflow.Proofs.Interpreter.Wait
import Workflow.Proofs.Text.Blank

/-!
# The line to be typed

When a node waits, a preview tells which line is to be typed so that the run goes on: `resume`
and the id of the node. A typed line is taken apart at its blanks, and what stands behind the
first word after `resume` is not looked at. So the line is understood as the resume of the first
word of the id (`Control.ofLine_resumeLine`), which is the id itself just when no blank is in it.

Then the wait is ended by the line. Otherwise it never is: the run takes up what was typed, and
waits on as if nothing had been (`Preview.typed_as_told`).
-/

namespace Workflow

/-! ## Words -/

namespace Control

variable {c : Char} {cs : List Char}

theorem words_eq (c : Char) (cs : List Char) : words (c :: cs) =
    if Text.isBlank c then words cs
    else
      match cs, words cs with
      | d :: _, w :: rest => if Text.isBlank d then [c] :: w :: rest else (c :: w) :: rest
      | _, rest => [c] :: rest := rfl

theorem words_blank (h : Text.isBlank c = true) : words (c :: cs) = words cs := by
  rw [words_eq, if_pos h]

/-- A word reaches up to the next blank. -/
theorem words_cons (h : Text.isBlank c = false) : words (c :: cs) =
    (c :: cs.takeWhile fun d => !Text.isBlank d) ::
      words (cs.dropWhile fun d => !Text.isBlank d) := by
  induction cs generalizing c with
  | nil =>
    rw [words_eq, if_neg (Bool.eq_false_iff.mp h)]
    rfl
  | cons d rest ih =>
    rw [words_eq, if_neg (Bool.eq_false_iff.mp h)]
    cases hd : Text.isBlank d with
    | true =>
      rw [List.takeWhile_cons_of_neg (by rw [hd]; exact nofun),
        List.dropWhile_cons_of_neg (by rw [hd]; exact nofun)]
      cases words (d :: rest) with
      | nil => rfl
      | cons w ws => exact if_pos hd
    | false =>
      rw [List.takeWhile_cons_of_pos (by rw [hd]; rfl), List.dropWhile_cons_of_pos (by rw [hd]; rfl),
        ih hd]
      exact if_neg (Bool.eq_false_iff.mp hd)

/-- A text up to its first blank. -/
def firstWord (text : String) : String :=
  String.ofList (text.toList.takeWhile fun c => !Text.isBlank c)

theorem firstWord_eq_iff {text : String} :
    firstWord text = text ↔ ∀ c ∈ text.toList, Text.isBlank c = false := by
  rw [firstWord, ← String.toList_inj, String.toList_ofList, List.takeWhile_eq_self_iff]
  exact forall₂_congr fun c _ => by rw [Bool.not_eq_true']

/-- **The line is understood** as the resume of the first word of the id. -/
theorem ofLine_resumeLine {id : String} (hid : id ≠ "") (htrim : Text.trimmed id = id) :
    ofLine (resumeLine id) = .ok (some (.resume (firstWord id))) := by
  have htrim' : Text.trim id.toList = id.toList := by
    rw [← String.toList_inj, Text.trimmed, String.toList_ofList] at htrim
    exact htrim
  obtain ⟨c, cs, hcs⟩ := List.exists_cons_of_ne_nil fun h => hid (String.toList_eq_nil_iff.mp h)
  have hc : Text.isBlank c = false :=
    Text.not_isBlank_head_trim id.toList c (by rw [htrim', hcs]; rfl)
  have hline : (resumeLine id).toList = ['r', 'e', 's', 'u', 'm', 'e', ' '] ++ id.toList := by
    rw [resumeLine, String.toList_append]
    rfl
  have htrimLine : Text.trim (resumeLine id).toList = (resumeLine id).toList := by
    refine Text.trim_eq_self (fun d hd => ?_) fun d hd => ?_
    · rw [hline] at hd
      obtain rfl : 'r' = d := Option.some.inj hd
      rfl
    · rw [hline, List.getLast?_append_of_ne_nil _ (hcs ▸ List.cons_ne_nil c cs),
        ← htrim'] at hd
      exact Text.not_isBlank_last_trim _ d hd
  have hwords : words (resumeLine id).toList = ['r', 'e', 's', 'u', 'm', 'e'] :: words id.toList := by
    rw [hline]
    exact (words_cons rfl).trans (congrArg _ (words_blank rfl))
  have hfirst : words id.toList = (id.toList.takeWhile fun d => !Text.isBlank d) ::
      words (cs.dropWhile fun d => !Text.isBlank d) := by
    rw [hcs, words_cons hc, List.takeWhile_cons_of_pos (by rw [hc]; rfl)]
  unfold ofLine
  rw [htrimLine]
  dsimp only
  split
  · next hbrace =>
    rw [hline] at hbrace
    cases hbrace
  · rw [hwords, hfirst]
    rfl

end Control

/-! ## A run that waits -/

namespace Interpreter

/-- A run that waits at a node, with nothing on its way that ends the wait. -/
structure Waits (node : Node) (r : Interpreter) : Prop where
  /-- it waits there -/
  phase : r.phase = .waiting node
  /-- it was not told to stop -/
  cancelled : r.cancelled = false
  /-- somebody may send it messages -/
  isReachable : r.isReachable = true
  /-- those that were sent do not end the wait -/
  unreleased : ∀ m ∈ r.queue, m.releases node.id = false

section Waiting

variable {around : Surroundings} {node : Node} {r₁ r : Interpreter} {l : List Stride}

theorem Waits.inbox_isSome (h : r.Waits node) : r.inbox.isSome = true := by
  cases hbox : r.inbox with
  | some box => rfl
  | none =>
    have hreach := h.isReachable
    rw [Interpreter.isReachable, hbox] at hreach
    cases hreach

theorem queue_send (hbox : r.inbox.isSome = true) (m : Control) :
    (r.send m).queue = r.queue ++ [m] := by
  obtain ⟨box, hbox⟩ := Option.isSome_iff_exists.mp hbox
  rw [queue, queue, send, hbox]
  rfl

/-- A run that waits is held from there on. -/
theorem held_nil (hp : r.phase = .waiting node) (hnot : r.cancelled = false) : Held node r [] r :=
  ⟨hp, hnot, List.forall_mem_nil _, rfl, rfl, rfl, rfl⟩

/-- A run waits on for as long as nothing is sent that ends the wait. -/
theorem Waits.held (h : r₁.Waits node) (hw : Walks around r₁ l r)
    (hl : ∀ st ∈ l, st.turn.meddles = false)
    (hsent : ∀ m ∈ delivered l, m.releases node.id = false) : Held node r₁ l r := by
  rcases hw.held_or_released (held_nil h.phase h.cancelled) h.isReachable hl with
    hheld | ⟨front, st, rest, m, rfl, -, hm, hrelease⟩
  · exact hheld
  · have htaken : m ∈ taken (front ++ st :: rest) :=
      List.mem_filterMap.mpr ⟨st, List.mem_append_right _ List.mem_cons_self, hm⟩
    have hmem : m ∈ r₁.queue ++ delivered (front ++ st :: rest) :=
      (hw.queue_eq h.inbox_isSome).1 ▸ List.mem_append_left _ htaken
    have hnever := (List.mem_append.mp hmem).elim (h.unreleased m) (hsent m)
    cases hrelease.symm.trans hnever

/-- The message to resume from the node ends the wait, once all is taken up that was sent
before. -/
theorem Waits.released (h : r₁.Waits node)
    (hw : Walks around (r₁.send (.resume node.id)) l r)
    (hl : ∀ st ∈ l, st.turn.meddles = false) :
    (Held node (r₁.send (.resume node.id)) l r ∧ l.countP (·.turn.isStep) ≤ r₁.queue.length ∧
      ∀ now, (r.step around now).isSome = true) ∨
    ∃ front st rest, l = front ++ st :: rest ∧ taken front = r₁.queue ∧
      st.before.phase = .waiting node ∧ st.taken? = some (.resume node.id) ∧
      st.told = some (.varsUpdate st.after.vars) ∧
      ∃ deadline, st.after.phase = .lingering node deadline := by
  have hm : (Control.resume node.id).releases node.id = true := decide_eq_true rfl
  have hqueue := queue_send h.inbox_isSome (.resume node.id)
  have hbox : (r₁.send (.resume node.id)).inbox.isSome = true :=
    Option.isSome_map.trans h.inbox_isSome
  have hreach : (r₁.send (.resume node.id)).isReachable = true := by
    rw [Interpreter.isReachable, send, Option.map_map]
    exact h.isReachable
  have hall : (r₁.send (.resume node.id)).queue ++ delivered l =
      r₁.queue ++ .resume node.id :: delivered l := by
    rw [hqueue, List.append_assoc]
    rfl
  rcases hw.held_or_released (held_nil h.phase h.cancelled) hreach hl with
    hheld | ⟨front, st, rest, m, rfl, hheld, hm', hrelease⟩
  · rw [(hw.queue_eq hbox).1] at hall
    obtain ⟨hsteps, hleft⟩ := hheld.before_release hm hall
    exact Or.inl ⟨hheld, hsteps, hheld.step_isSome hleft⟩
  · obtain ⟨hfront, rfl, -⟩ := hheld.first_release hw hbox hm' hrelease hall h.unreleased hm
    have hobeys := hw.obeys (List.mem_append_right _ List.mem_cons_self) hm'
    obtain ⟨htold, deadline, hafter⟩ := hheld.resumed hobeys
    exact Or.inr ⟨front, st, rest, rfl, hfront, hheld.phase, hm', htold, deadline, by rw [hafter]⟩

end Waiting

end Interpreter

/-! ## Typing the line -/

namespace CommandLine.Preview

open Interpreter

/-- **What a preview says is to be typed**, and what comes of it. The line that is told is passed
on as the resume of the first word of the id, which is the id just when there is no blank in it.
Then a run that waits at the node goes on as soon as what was sent before is taken up, and until
then it has a step to go. Otherwise, however often the line is typed, the run waits on. -/
theorem typed_as_told {node : Node} (hid : node.id ≠ "") (htrim : Text.trimmed node.id = node.id) :
    Control.ofLine (Control.resumeLine node.id) =
      .ok (some (.resume (Control.firstWord node.id))) ∧
    (Control.ofLine (Control.resumeLine node.id) = .ok (some (.resume node.id)) ↔
      ∀ c ∈ node.id.toList, Text.isBlank c = false) ∧
    ∀ p : Preview,
      (p.isListening = true → ∀ reason, p.remark? (.nodeWait node.id reason) =
        some ("Waiting; type `" ++ Control.resumeLine node.id ++ "` to continue")) ∧
      p.take (Control.resumeLine node.id) =
        .done { p with run := p.run.send (.resume (Control.firstWord node.id)) } ∧
      (p.run.Waits node →
        ((∀ c ∈ node.id.toList, Text.isBlank c = false) → ∀ l r,
          Walks p.around (p.run.send (.resume (Control.firstWord node.id))) l r →
          (∀ st ∈ l, st.turn.meddles = false) →
          (r.phase = .waiting node ∧ l.countP (·.turn.isStep) ≤ p.run.queue.length ∧
            ∀ now, (r.step p.around now).isSome = true) ∨
          ∃ front st rest, l = front ++ st :: rest ∧ taken front = p.run.queue ∧
            st.before.phase = .waiting node ∧ st.taken? = some (.resume node.id) ∧
            st.told = some (.varsUpdate st.after.vars) ∧
            ∃ deadline, st.after.phase = .lingering node deadline) ∧
        ((∃ c ∈ node.id.toList, Text.isBlank c = true) → ∀ l r, Walks p.around p.run l r →
          (∀ st ∈ l, st.turn.meddles = false) →
          (∀ m ∈ delivered l, Control.ofLine (Control.resumeLine node.id) = .ok (some m)) →
          Held node p.run l r)) := by
  have hline := Control.ofLine_resumeLine hid htrim
  refine ⟨hline, ?_, fun p => ⟨fun hlistens reason => ?_, ?_, fun hwaits => ⟨?_, ?_⟩⟩⟩
  · rw [hline, ← Control.firstWord_eq_iff]
    exact ⟨fun h => Control.resume.inj (Option.some.inj (Except.ok.inj h)), fun h => by rw [h]⟩
  · rw [remark?, if_pos hlistens]
  · rw [take, hline]
    rfl
  · intro hnone l r hw hl
    rw [Control.firstWord_eq_iff.mpr hnone] at hw
    exact (hwaits.released hw hl).imp_left fun ⟨hheld, hrest⟩ => ⟨hheld.phase, hrest⟩
  · rintro ⟨c, hc, hblank⟩ l r hw hl htyped
    have hother : Control.firstWord node.id ≠ node.id := fun h =>
      nomatch (Control.firstWord_eq_iff.mp h c hc).symm.trans hblank
    refine hwaits.held hw hl fun m hm => ?_
    have hsame := Option.some.inj (Except.ok.inj (hline.symm.trans (htyped m hm)))
    rw [← hsame, Control.releases]
    exact decide_eq_false hother

/-- A preview that waits at its only node. -/
def waitingAt (id : String) : Preview where
  around := quiet
  run := {
    definition := { nodes := [{ id }] }
    vars := { fields := [(Vars.waitFlag, .bool true)] }
    inbox := some {}
    phase := .waiting { id } }

theorem waits_waitingAt (id : String) : (waitingAt id).run.Waits { id } := ⟨rfl, rfl, rfl, nofun⟩

/-- The line is typed twice, and taken up each time. -/
def insisting : List Turn :=
  [.send (.resume "Fetch"), .step 0, .send (.resume "Fetch"), .step 0]

/-- A node whose id has a blank in it waits on, although what was said is typed, and typed again;
one without is resumed. -/
theorem typed_in_vain :
    (waitingAt "Fetch Data").remark? (.nodeWait "Fetch Data" none) =
      some "Waiting; type `resume Fetch Data` to continue" ∧
    Control.ofLine "resume Fetch Data" ≠ .ok (some (.resume "Fetch Data")) ∧
    (∃ l r, (waitingAt "Fetch Data").run.stroll quiet insisting = some (l, r) ∧
      Held { id := "Fetch Data" } (waitingAt "Fetch Data").run l r ∧ r.queue = []) ∧
    ∃ l r, ((waitingAt "fetch").run.send (.resume "fetch")).stroll quiet [.step 0] = some (l, r) ∧
      ∃ front st rest, l = front ++ st :: rest ∧ st.taken? = some (.resume "fetch") ∧
        st.told = some (.varsUpdate st.after.vars) := by
  have hsome : ((waitingAt "Fetch Data").run.stroll quiet insisting).isSome = true := rfl
  have hsome' :
      (((waitingAt "fetch").run.send (.resume "fetch")).stroll quiet [.step 0]).isSome = true := rfl
  obtain ⟨⟨l, r⟩, hl⟩ := Option.isSome_iff_exists.mp hsome
  obtain ⟨⟨l', r'⟩, hl'⟩ := Option.isSome_iff_exists.mp hsome'
  have hturns := stroll_turns hl
  have hturns' := stroll_turns hl'
  obtain ⟨hline, hexact, hall⟩ := @typed_as_told { id := "Fetch Data" } (by decide) (by decide)
  obtain ⟨-, -, hall'⟩ := @typed_as_told { id := "fetch" } (by decide) (by decide)
  obtain ⟨hremark, -, hrun⟩ := hall (waitingAt "Fetch Data")
  obtain ⟨-, -, hrun'⟩ := hall' (waitingAt "fetch")
  obtain ⟨-, hvain⟩ := hrun (waits_waitingAt _)
  obtain ⟨hreleased, -⟩ := hrun' (waits_waitingAt _)
  refine ⟨(hremark rfl none).trans (by decide), fun h => ?_, ⟨l, r, hl, ?_⟩, l', r', hl', ?_⟩
  · exact absurd (Control.firstWord_eq_iff.mpr (hexact.mp h)) (by decide)
  · have hquiet : ∀ turn ∈ insisting, turn.meddles = false := by decide
    have hdelivered : delivered l = [.resume "Fetch", .resume "Fetch"] := by
      cases hl
      rfl
    refine ⟨hvain ⟨' ', by decide, rfl⟩ l r (stroll_walks hl)
      (List.forall_mem_map.mp (hturns ▸ hquiet)) fun m hm => ?_, by cases hl; rfl⟩
    obtain rfl : m = .resume "Fetch" := by
      rw [hdelivered] at hm
      simpa using hm
    exact hline
  · have hquiet : ∀ turn ∈ [Turn.step 0], turn.meddles = false := by decide
    have hword : Control.firstWord "fetch" = "fetch" := by decide
    rcases hreleased (Control.firstWord_eq_iff.mp hword) l' r' (stroll_walks hl')
      (List.forall_mem_map.mp (hturns' ▸ hquiet)) with
      ⟨-, hsteps, -⟩ | ⟨front, st, rest, heq, -, -, htaken, htold, -⟩
    · have hone : l'.countP (·.turn.isStep) = 1 := by
        cases hl'
        rfl
      exact absurd (hone ▸ hsteps) (by decide)
    · exact ⟨front, st, rest, heq, htaken, htold⟩

end CommandLine.Preview

end Workflow
