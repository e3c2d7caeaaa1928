import Workflow.Proofs.Interpreter.Replay
import Workflow.Proofs.Vars.Store

/-!
# What is kept of failures

When the script of a node fails, the failure is told, and behind it the variables with its message
under a key of the node (`Walks.failure_noted`). The key is the folded id of the node with a word
behind it, and folded again when it is used, so it goes by the runs of the id and one more
(`Key.runs_ofError`): nodes whose ids fold alike share it, and all others have keys of their own.
-/

namespace Workflow

/-! ## Keys of failures -/

namespace Key

/-- The runs of the key of a failure are those of the id, and the word for a failure. -/
theorem runs_ofError (id : String) :
    runs (ofError id).toList = runs id.toList ++ ["error".toList] := by
  have hword : runs "error".toList = ["error".toList] := by decide
  rw [ofError, String.toList_append]
  change runs ((normalize id).toList ++ '_' :: "error".toList) = _
  rw [runs_append_separator _ _ rfl, runs_normalize, hword]

/-- **Failures of two nodes are kept under one key if their ids fold alike**, and only then. -/
theorem normalize_ofError_eq_iff {id other : String} :
    normalize (ofError id) = normalize (ofError other) ↔ normalize id = normalize other := by
  rw [normalize_eq_iff, runs_ofError, runs_ofError, List.append_left_inj, ← normalize_eq_iff]

/-- The key of a failure is folded as it stands, unless the id folds to nothing. -/
theorem normalize_ofError (id : String) :
    normalize (ofError id) = if normalize id = "" then "error" else ofError id := by
  split
  · next h =>
    rw [ofError, h]
    decide
  · next h =>
    have hruns : runs id.toList ≠ [] := fun hnil => h <| by
      rw [← String.toList_inj, toList_normalize, hnil]
      rfl
    obtain ⟨w, ws, hcons⟩ := List.exists_cons_of_ne_nil hruns
    rw [← String.toList_inj, toList_normalize, runs_ofError, ofError, String.toList_append,
      toList_normalize, hcons, List.cons_append, intercalate_cons, intercalate_cons, led,
      List.flatMap_append, List.append_assoc]
    rfl

end Key

/-- What is noted of a failure: its message under the key of the node, and under every key of a
failure that folds alike; what is under the others stays. -/
theorem Vars.get?_set_ofError (vars : Vars) (node id error : String) :
    (vars.set (Key.ofError node) (.str error)).get? (Key.ofError id) =
      if Key.normalize node = Key.normalize id then some (.str error)
      else vars.get? (Key.ofError id) := by
  rw [get?_set]
  exact if_congr Key.normalize_ofError_eq_iff rfl rfl

namespace Interpreter

/-! ## Telling -/

section Telling

variable {around : Surroundings} {r₁ r : Interpreter} {l : List Stride} {node : Node}
  {pending : List Event} {left : Vars}

theorem step_telling {event : Event} (around : Surroundings) (now : Nat)
    (hp : r.phase = .telling node (event :: pending) left) :
    r.step around now = some (some event, { r with phase := .telling node pending left }) := by
  rw [step, hp]
  rfl

/-- What is left to tell of a script comes first, before the run does anything else. -/
theorem Walks.telling (h : Walks around r₁ l r) (hp : r₁.phase = .telling node pending left) :
    (∃ rest, r.phase = .telling node rest left ∧ events l ++ rest = pending) ∨
      pending <+: events l := by
  induction h with
  | nil => exact Or.inl ⟨pending, hp, rfl⟩
  | @snoc l r r' turn told _ ht ih =>
    rw [events_snoc]
    rcases ih with ⟨rest, hphase, rfl⟩ | hwhole
    · cases turn with
      | step now =>
        change r.step around now = _ at ht
        cases rest with
        | nil =>
          rw [List.append_nil]
          exact Or.inr (List.prefix_append ..)
        | cons event rest =>
          rw [step_telling around now hphase] at ht
          cases ht
          exact Or.inl ⟨rest, rfl, List.append_assoc ..⟩
      | _ =>
        -- from outside nothing is told, and the run stays where it is
        cases ht
        exact Or.inl ⟨rest, hphase, congrArg (· ++ rest) (List.append_nil _)⟩
    · exact Or.inr (hwhole.trans (List.prefix_append ..))

/-- A run behind a script has a step to go. -/
theorem step_isSome_of_telling (around : Surroundings) (now : Nat)
    (hp : r.phase = .telling node pending left) : (r.step around now).isSome = true := by
  rw [step, hp]
  cases pending with
  | nil =>
    dsimp only
    split <;> rfl
  | cons => rfl

/-- All that is left to tell can be told. -/
theorem exists_walks_telling (around : Surroundings) (hp : r.phase = .telling node pending left) :
    ∃ l r', Walks around r l r' ∧ events l = pending := by
  induction pending generalizing r with
  | nil => exact ⟨[], r, .nil, rfl⟩
  | cons event pending ih =>
    have ht : r.take around (.step 0) = _ := step_telling around 0 hp
    obtain ⟨l, r', hw, hl⟩ := @ih { r with phase := .telling node pending left } rfl
    exact ⟨_, _, (Walks.nil.snoc ht).trans hw, congrArg (event :: ·) hl⟩

end Telling

/-! ## Failing -/

/-- A stride in which the script of a node is run and fails with an error. -/
structure Stride.Fails (around : Surroundings) (st : Stride) (node : Node) (o : Sandbox.Outcome)
    (error : String) : Prop where
  /-- it is a step -/
  step : ∃ now, st.turn = .step now
  /-- the run is at the node, and was not told to stop -/
  entered : st.before.phase = .entered node ∧ st.before.cancelled = false
  /-- the script of the node leaves something behind -/
  ran : ∃ script, scriptOf around node = .script script ∧
    around.execute st.before.occasion node.id script st.before.vars = o
  /-- namely a failure -/
  failed : o.error = some error

/-- What is left to tell of a script that has failed, and the variables that it leaves. -/
theorem Stride.Fails.after {around : Surroundings} {st : Stride} {node : Node} {o : Sandbox.Outcome}
    {error : String} (h : st.Fails around node o error)
    (ht : st.before.take around st.turn = some (st.told, st.after)) :
    st.told = none ∧ st.after.phase =
      .telling node (o.told ++ [.nodeError node.id error,
        .varsUpdate (o.vars.set (Key.ofError node.id) (.str error))])
        (o.vars.set (Key.ofError node.id) (.str error)) := by
  obtain ⟨⟨now, hturn⟩, ⟨hp, hc⟩, ⟨script, hscript, rfl⟩, herror⟩ := h
  rw [hturn] at ht
  change st.before.step around now = _ at ht
  rw [Interpreter.step, hp] at ht
  simp only [hc, Bool.false_eq_true, if_false, hscript, Option.some.injEq, Prod.mk.injEq] at ht
  obtain ⟨htold, hafter⟩ := ht
  refine ⟨htold.symm, ?_⟩
  rw [← hafter, runScript, eventsOf, varsAfter, herror]

/-- **A failure is noted, and no other note is touched.** When the script of a node fails, what is
told from then on is what the script told, then the failure, and right behind it the variables; and
as long as they are not told the run has a step to go. They hold the message under the key of the
node, which is kept as it stands, or without its underscore if the id folds to nothing. What was
noted of any node before, as it was shown last before the failure was told, is what they hold of it,
unless its id folds as that of the node does: then the message has taken its place. -/
theorem Walks.failure_noted {around : Surroundings} (hs : around.IsSandboxed) {d : Definition}
    {vars : Vars} {inbox : Option Inbox} {front rest : List Stride} {st : Stride} {r : Interpreter}
    {node : Node} {o : Sandbox.Outcome} {error : String}
    (h : Walks around (start d vars inbox) (front ++ st :: rest) r)
    (hfails : st.Fails around node o error) :
    ∃ (noted : Vars) (tale : List Event),
      tale = o.told ++ [.nodeError node.id error, .varsUpdate noted] ∧
      (events rest <+: tale ∨ tale <+: events rest) ∧
      (¬tale <+: events rest → ∀ now, (r.step around now).isSome = true) ∧
      noted.get? (Key.ofError node.id) = some (.str error) ∧
      noted.fields.find?
        (if Key.normalize node.id = "" then "error" else Key.ofError node.id) = some (.str error) ∧
      ∀ id, noted.get? (Key.ofError id) =
        if Key.normalize node.id = Key.normalize id then some (.str error)
        else (vars.replay (events front ++ o.told)).get? (Key.ofError id) := by
  obtain ⟨hfront, ht, hrest⟩ := h.split
  obtain ⟨-, hphase⟩ := hfails.after ht
  have hshown : vars.replay (events front ++ o.told) = o.vars := by
    obtain ⟨hp, -⟩ := hfails.entered
    obtain ⟨script, -, rfl⟩ := hfails.ran
    have hbefore := (mirrors_iff (by rw [hp]; rfl)).mp (hfront.mirrors hs)
    rw [Vars.replay_append, hbefore]
    exact hs.vars ..
  refine ⟨o.vars.set (Key.ofError node.id) (.str error), _, rfl, ?_, ?_, ?_, ?_, fun id => ?_⟩
  · exact (hrest.telling hphase).imp_left fun ⟨left, _, heq⟩ => ⟨left, heq⟩
  · intro hnot now
    rcases hrest.telling hphase with ⟨left, hleft, -⟩ | hwhole
    · exact step_isSome_of_telling around now hleft
    · exact absurd hwhole hnot
  · rw [Vars.get?_set_ofError, if_pos rfl]
  · rw [← Key.normalize_ofError]
    exact (Vars.get?_set_ofError ..).trans (if_pos rfl)
  · rw [hshown]
    exact Vars.get?_set_ofError ..

/-! ## Ids that fold alike -/

/-- A node whose script is no program. -/
def unreadable : Node := { id := "Fetch Data", script := some "x" }

/-- That node, one whose id is another spelling, and one whose id is not. -/
def spellings : Definition where
  nodes := [unreadable, { id := "fetch-data" }, { id := "b" }]
  edges := [{ id := "e", source := "Fetch Data", target := "b" }]

/-- A store in which failures of the two other nodes are noted. -/
def remembered : Vars :=
  { fields := [("b_error", .str "closed"), ("fetch_data_error", .str "late")] }

/-- A run of these nodes that has come to the first of them. -/
def atUnreadable : Interpreter where
  definition := spellings
  vars := remembered
  inbox := none
  steps := 1
  lastNode := some "Fetch Data"
  phase := .entered unreadable

/-- The stride that has led there. -/
def towardsUnreadable : Stride :=
  ⟨start spellings remembered none, .step 0, some (.nodeStart "Fetch Data"), atUnreadable⟩

/-- The stride in which its script is run. -/
def runningUnreadable : Stride :=
  ⟨atUnreadable, .step 0, none, atUnreadable.runScript quiet unreadable "x"⟩

/-- The script fails, and has told nothing and written nothing. -/
theorem unreadable_fails : ∃ o error, runningUnreadable.Fails quiet unreadable o error ∧
    o.told = [] ∧ o.vars = remembered ∧ error ≠ "late" := by
  let o := quiet.execute atUnreadable.occasion "Fetch Data" "x" remembered
  have hsome : o.error.isSome = true := by decide +kernel
  have hother : o.error ≠ some "late" := by decide +kernel
  have htold : o.told = [] := List.isEmpty_iff.mp (by decide +kernel)
  have hvars := quiet_isSandboxed.vars atUnreadable.occasion "Fetch Data" "x" remembered
  rw [htold] at hvars
  obtain ⟨error, herror⟩ := Option.isSome_iff_exists.mp hsome
  refine ⟨_, error, ⟨⟨0, rfl⟩, ⟨rfl, rfl⟩, ⟨"x", rfl, rfl⟩, herror⟩, htold, hvars.symm, ?_⟩
  rintro rfl
  exact hother herror

/-- All of such a run up to where the failure and the variables are told. -/
theorem exists_walks_unreadable {o : Sandbox.Outcome} {error : String}
    (h : runningUnreadable.Fails quiet unreadable o error) : ∃ rest r,
    Walks quiet (start spellings remembered none) ([towardsUnreadable] ++ runningUnreadable :: rest) r ∧
      events rest = o.told ++ [.nodeError "Fetch Data" error,
        .varsUpdate (o.vars.set (Key.ofError "Fetch Data") (.str error))] := by
  have hfront : Walks quiet (start spellings remembered none) [towardsUnreadable] atUnreadable :=
    Walks.nil.snoc rfl
  have ht : runningUnreadable.before.take quiet runningUnreadable.turn =
      some (runningUnreadable.told, runningUnreadable.after) := rfl
  obtain ⟨rest, r, hrest, hevents⟩ := exists_walks_telling quiet (h.after ht).2
  exact ⟨rest, r, hfront.trans ((Walks.nil.snoc ht).trans hrest), hevents⟩

/-- The failure is noted under the key of its node, and the note of another node stays. -/
theorem unreadable_noted : ∃ rest r o error noted,
    Walks quiet (start spellings remembered none)
        ([towardsUnreadable] ++ runningUnreadable :: rest) r ∧
      runningUnreadable.Fails quiet unreadable o error ∧
      events rest = o.told ++ [.nodeError "Fetch Data" error, .varsUpdate noted] ∧
      noted.get? (Key.ofError "Fetch Data") = some (.str error) ∧
      noted.fields.find? "fetch_data_error" = some (.str error) ∧
      noted.get? (Key.ofError "b") = some (.str "closed") := by
  obtain ⟨o, error, hfails, htold, -⟩ := unreadable_fails
  obtain ⟨rest, r, hw, hevents⟩ := exists_walks_unreadable hfails
  obtain ⟨noted, tale, rfl, htale, -, hkey, hstored, hall⟩ := hw.failure_noted quiet_isSandboxed hfails
  have hlength : (events rest).length =
      (o.told ++ [Event.nodeError unreadable.id error, Event.varsUpdate noted]).length := by
    rw [hevents, List.length_append, List.length_append]
    rfl
  have hevents' := htale.elim (·.eq_of_length hlength) fun h => (h.eq_of_length hlength.symm).symm
  refine ⟨rest, r, o, error, noted, hw, hfails, hevents', hkey, hstored, ?_⟩
  rw [hall, if_neg (by decide), htold]
  rfl

/-- The failure of a node takes the place of what was noted of another node, whose id is not the
same but folds alike. -/
theorem other_spelling_overwritten : ∃ rest r o error noted,
    Walks quiet (start spellings remembered none)
        ([towardsUnreadable] ++ runningUnreadable :: rest) r ∧
      runningUnreadable.Fails quiet unreadable o error ∧
      events rest = o.told ++ [.nodeError "Fetch Data" error, .varsUpdate noted] ∧
      (∃ other ∈ spellings.nodes, other.id = "fetch-data" ∧ other.id ≠ unreadable.id) ∧
      (remembered.replay (events [towardsUnreadable] ++ o.told)).get? (Key.ofError "fetch-data") =
        some (.str "late") ∧
      noted.get? (Key.ofError "fetch-data") ≠ some (.str "late") := by
  obtain ⟨o, error, hfails, htold, -, hother⟩ := unreadable_fails
  obtain ⟨rest, r, hw, hevents⟩ := exists_walks_unreadable hfails
  have hmem : { id := "fetch-data" } ∈ spellings.nodes := List.mem_cons_of_mem _ List.mem_cons_self
  refine ⟨rest, r, o, error, _, hw, hfails, hevents, ⟨_, hmem, rfl, by decide⟩, ?_, ?_⟩
  · rw [htold]
    rfl
  · rw [Vars.get?_set_ofError, if_pos (by decide)]
    intro heq
    cases heq
    exact hother rfl

end Interpreter

end Workflow
