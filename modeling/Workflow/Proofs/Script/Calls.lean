import Workflow.Proofs.Sandbox

/-!
# Calls of the host

What a script does is a run of the machine against its host, and what can be seen of it are the
requests that the host serves on the way (`Sandbox.Drives`). A run can be cut anywhere: up to a call
of a function of the host, through the call, and on from there. The call takes three steps with one
request in between (`Calls.drives`), and the rest of a run leaves the variables alone unless one of
its requests writes (`Drives.vars_eq`). So does the end of a script, also where a fault has to be
put into words (`Concludes.vars_eq`); that asks for nothing unless the fault has a say in them
(`Concludes.plain`).

A call is carried out once there is room on the heap. If there is none, the machine makes some or
gives up before it gets to the call.
-/

namespace Workflow

open Script

/-- Whether a request can change the variables. -/
def Script.Request.writes : Request → Bool
  | setVar .. | deleteVar _ | wait _ => true
  | getVar _ | allVars | log .. | send _ => false

namespace Sandbox

/-! ## Runs -/

/-- The machine gets to where it is now in so many steps, and the host serves these requests on the
way. -/
inductive Drives (traffic : Traffic) (node : String) :
    Nat → Machine → State → List Request → Machine → State → Prop where
  /-- it is there -/
  | here (m : Machine) (s : State) : Drives traffic node 0 m s [] m s
  /-- it goes on by itself first -/
  | next {n : Nat} {m m₁ m' : Machine} {s s' : State} {requests : List Request}
      (hstep : m.step = .next m₁) (hrest : Drives traffic node n m₁ s requests m' s') :
    Drives traffic node (n + 1) m s requests m' s'
  /-- it asks the host first -/
  | ask {n : Nat} {m m' : Machine} {s s' : State} {requests : List Request} {r : Request}
      {k : r.Answer → Machine} (hstep : m.step = .ask r k)
      (hrest : Drives traffic node n (k (serve traffic node s r).1) (serve traffic node s r).2
        requests m' s') :
    Drives traffic node (n + 1) m s (r :: requests) m' s'

section Runs

variable {traffic : Traffic} {node : String} {n n' : Nat} {m m' m'' : Machine} {s s' s'' : State}
  {requests requests' : List Request}

namespace Drives

theorem trans (hfirst : Drives traffic node n m s requests m' s')
    (hsecond : Drives traffic node n' m' s' requests' m'' s'') :
    Drives traffic node (n + n') m s (requests ++ requests') m'' s'' := by
  induction hfirst with
  | here => rwa [Nat.zero_add]
  | next hstep _ ih => exact Nat.succ_add .. ▸ .next hstep (ih hsecond)
  | ask hstep _ ih => exact Nat.succ_add .. ▸ .ask hstep (ih hsecond)

/-- Driving the machine goes on from where it has got to. -/
theorem drive_eq (h : Drives traffic node n m s requests m' s') (steps : Nat) :
    drive traffic node (n + steps) m s = drive traffic node steps m' s' := by
  induction h with
  | here => rw [Nat.zero_add]
  | next hstep _ ih =>
    rw [Nat.succ_add, drive, hstep]
    exact ih
  | ask hstep _ ih =>
    rw [Nat.succ_add, drive, hstep]
    exact ih

/-- Without a request that writes the variables stay. -/
theorem vars_eq (h : Drives traffic node n m s requests m' s')
    (hrequests : ∀ r ∈ requests, r.writes = false) : s'.vars = s.vars := by
  induction h with
  | here => rfl
  | next _ _ ih => exact ih hrequests
  | @ask _ _ _ s _ _ r _ _ _ ih =>
    obtain ⟨hr, hrest⟩ := List.forall_mem_cons.mp hrequests
    have hserve : (serve traffic node s r).2.vars = s.vars := by
      cases r with
      | getVar | allVars | log | send => rfl
      | setVar | deleteVar | wait => cases hr
    rw [ih hrest, hserve]

end Drives

/-- The script of a node gets to a point of its run. -/
def Reaches (traffic : Traffic) (random : RandomState) (memoryLimit : Nat) (node script : String)
    (vars : Vars) (n : Nat) (requests : List Request) (m : Machine) (s : State) : Prop :=
  zeroIn? ("node:" ++ node).toUTF8 = none ∧
    ∃ main h, Library.loadSource ("node:" ++ node).toUTF8 script.toUTF8 (.table Heap.globals)
        (Heap.initial random memoryLimit) = (.ok main, h) ∧
      Drives traffic node n { mode := .call main [], heap := h } { vars := vars } requests m s

theorem Reaches.trans {random : RandomState} {memoryLimit : Nat} {script : String} {vars : Vars}
    (h : Reaches traffic random memoryLimit node script vars n requests m s)
    (hmore : Drives traffic node n' m s requests' m' s') :
    Reaches traffic random memoryLimit node script vars (n + n') (requests ++ requests') m' s' := by
  obtain ⟨hname, main, heap, hload, hdrives⟩ := h
  exact ⟨hname, main, heap, hload, hdrives.trans hmore⟩

/-- How a machine has ended that ends with a result. -/
def endingOf : Except Raised (List Value) → Ending
  | .ok vs => .values vs
  | .error r => .fault r

/-- A machine that has an end to come to comes to it. -/
theorem Drives.drive_ended (h : Drives traffic node n m s requests m' s') (hn : n < maxSteps)
    {result : Except Raised (List Value)} {heap : Heap} (hend : m'.step = .ended result heap) :
    drive traffic node maxSteps m s = (endingOf result, heap, s') := by
  obtain ⟨steps, hsteps⟩ := Nat.exists_eq_add_of_lt hn
  rw [hsteps, Nat.add_assoc, h.drive_eq, drive, hend]
  cases result <;> rfl

end Runs

/-! ## Ends -/

/-- The machine that puts a fault into words. -/
def wording (v : Value) (h : Heap) : Machine := { mode := .call (.builtin .tostring) [v], heap := h }

/-- A fault is put into words within so many attempts, and the host serves these requests on the
way: a program may have a say in the words, and may fail in turn. -/
inductive Explains (traffic : Traffic) (node : String) :
    Nat → Value → Heap → State → List Request → State → Prop where
  /-- there were too many attempts -/
  | exhausted (v : Value) (h : Heap) (s : State) : Explains traffic node 0 v h s [] s
  /-- it has words of its own -/
  | failure (attempts r : Nat) (h : Heap) (s : State) :
    Explains traffic node (attempts + 1) (.failure r) h s [] s
  /-- words are found -/
  | worded {attempts n : Nat} {v : Value} {h heap : Heap} {s s' : State} {requests : List Request}
      {m : Machine} {vs : List Value} (hv : ∀ r, v ≠ .failure r)
      (hdrives : Drives traffic node n (wording v h) s requests m s') (hn : n < maxSteps)
      (hend : m.step = .ended (.ok vs) heap) :
    Explains traffic node (attempts + 1) v h s requests s'
  /-- looking for them fails, and that is put into words -/
  | again {attempts n : Nat} {v : Value} {h heap : Heap} {s s' s'' : State}
      {requests requests' : List Request} {m : Machine} {r : Raised} (hv : ∀ r, v ≠ .failure r)
      (hdrives : Drives traffic node n (wording v h) s requests m s') (hn : n < maxSteps)
      (hend : m.step = .ended (.error r) heap)
      (hagain : Explains traffic node attempts r.value heap s' requests' s'') :
    Explains traffic node (attempts + 1) v h s (requests ++ requests') s''

/-- The script of a node has come to its end, and the host serves these requests before there is an
outcome. -/
inductive Concludes (traffic : Traffic) (node : String) (m : Machine) (s : State) :
    List Request → State → Prop where
  /-- it ends with values -/
  | values {vs : List Value} {heap : Heap} (hend : m.step = .ended (.ok vs) heap) :
    Concludes traffic node m s [] s
  /-- it ends because there is no memory left -/
  | memory {r : Raised} {heap : Heap} (hend : m.step = .ended (.error r) heap)
      (hmemory : r.isMemory = true) : Concludes traffic node m s [] s
  /-- it ends with another fault, which is put into words -/
  | fault {r : Raised} {heap : Heap} {requests : List Request} {s' : State}
      (hend : m.step = .ended (.error r) heap) (hmemory : r.isMemory = false)
      (hexplains : Explains traffic node 190 r.value heap s requests s') :
    Concludes traffic node m s requests s'

section Ends

variable {traffic : Traffic} {node : String} {n : Nat} {m : Machine} {s s' : State}
  {requests requests' : List Request}

/-- A fault without words of its own is put into words. -/
theorem faultText_wording {v : Value} (hv : ∀ r, v ≠ .failure r) {h heap : Heap}
    {result : Except Raised (List Value)}
    (hdrive : drive traffic node maxSteps (wording v h) s = (endingOf result, heap, s'))
    (attempts : Nat) :
    (faultText traffic node (attempts + 1) v h s).2 = match result with
      | .ok _ => s'
      | .error r => (faultText traffic node attempts r.value heap s').2 := by
  rw [wording] at hdrive
  conv_lhs => unfold faultText
  split
  · exact absurd rfl (hv _)
  · dsimp only
    rw [hdrive]
    cases result <;> rfl

theorem tostring_plain {v : Value} {h : Heap} (hplain : h.handler v "__tostring" = .nil) :
    Builtin.run .tostring [v] h =
      .done [.str (Operators.plainText h v)] (h.newString (Operators.plainText h v)).2 := by
  change (Operators.toText v h).bind _ = _
  rw [Operators.toText, hplain]
  rfl

/-- A fault that has no say in its words is put into them without a request, if there is room. -/
theorem Explains.plain {v : Value} {h : Heap} (hv : ∀ r, v ≠ .failure r)
    (hplain : h.handler v "__tostring" = .nil) (hroom : h.isOver = false)
    (hfits : (h.newString (Operators.plainText h v)).2.isOver = false) (attempts : Nat) :
    Explains traffic node (attempts + 1) v h s [] s := by
  let words : Value := .str (Operators.plainText h v)
  let told : Heap := (h.newString (Operators.plainText h v)).2
  let asking : Machine :=
    { mode := .proc (.builtin .tostring [v] (Machine.calledBy [])) (.done [words] told), heap := h }
  have hcall : (wording v h).step = .next asking := by
    rw [wording, Machine.step, if_neg (by rw [hroom]; decide)]
    dsimp only [Machine.call]
    rw [tostring_plain hplain]
  have hdone : asking.step = .next { mode := .give [words], heap := told } := by
    rw [Machine.step, if_neg (by rw [hroom]; decide)]
    rfl
  have hend : Machine.step { mode := .give [words], heap := told } = .ended (.ok [words]) told := by
    rw [Machine.step, if_neg (by rw [hfits]; decide)]
    rfl
  exact .worded hv (.next hcall (.next hdone (.here ..))) (by decide) hend

/-- A script that ends with such a fault asks for nothing more. -/
theorem Concludes.plain {r : Raised} {heap : Heap} (hend : m.step = .ended (.error r) heap)
    (hmemory : r.isMemory = false) (hv : ∀ i, r.value ≠ .failure i)
    (hplain : heap.handler r.value "__tostring" = .nil) (hroom : heap.isOver = false)
    (hfits : (heap.newString (Operators.plainText heap r.value)).2.isOver = false) :
    Concludes traffic node m s [] s :=
  .fault hend hmemory (.plain hv hplain hroom hfits 189)

theorem Explains.faultText_eq {attempts : Nat} {v : Value} {h : Heap}
    (hexplains : Explains traffic node attempts v h s requests s') :
    (faultText traffic node attempts v h s).2 = s' := by
  induction hexplains with
  | exhausted | failure => rfl
  | worded hv hdrives hn hend =>
    exact faultText_wording hv (hdrives.drive_ended hn hend) _
  | again hv hdrives hn hend _ ih =>
    exact (faultText_wording hv (hdrives.drive_ended hn hend) _).trans ih

theorem Explains.vars_eq {attempts : Nat} {v : Value} {h : Heap}
    (hexplains : Explains traffic node attempts v h s requests s')
    (hrequests : ∀ r ∈ requests, r.writes = false) : s'.vars = s.vars := by
  induction hexplains with
  | exhausted | failure => rfl
  | worded _ hdrives => exact hdrives.vars_eq hrequests
  | again _ hdrives _ _ _ ih =>
    obtain ⟨hfirst, hsecond⟩ := List.forall_mem_append.mp hrequests
    exact (ih hsecond).trans (hdrives.vars_eq hfirst)

/-- An end at which nothing is written leaves the variables as they are. -/
theorem Concludes.vars_eq (h : Concludes traffic node m s requests s')
    (hrequests : ∀ r ∈ requests, r.writes = false) : s'.vars = s.vars := by
  cases h with
  | values | memory => rfl
  | fault _ _ hexplains => exact hexplains.vars_eq hrequests

/-- **A script leaves behind what there is at its end**, be it a good one or not. -/
theorem Reaches.vars_eq {random : RandomState} {memoryLimit : Nat} {script : String} {vars : Vars}
    (h : Reaches traffic random memoryLimit node script vars n requests m s) (hn : n < maxSteps)
    (hend : Concludes traffic node m s requests' s') :
    (executeAmid traffic random memoryLimit node script vars).vars = s'.vars := by
  obtain ⟨hname, main, heap, hload, hdrives⟩ := h
  rw [executeAmid]
  dsimp only
  rw [hname]
  dsimp only
  rw [hload]
  dsimp only
  cases hend with
  | values hend =>
    rw [hdrives.drive_ended hn hend]
    rfl
  | memory hend hmemory =>
    rw [hdrives.drive_ended hn hend]
    dsimp only [endingOf]
    rw [if_pos hmemory]
    rfl
  | fault hend hmemory hexplains =>
    rw [hdrives.drive_ended hn hend]
    dsimp only [endingOf]
    rw [if_neg (Bool.eq_false_iff.mp hmemory)]
    exact congrArg State.vars hexplains.faultText_eq

end Ends

/-! ## Calls -/

/-- The machine is about to carry out a call of a function that scripts start with. -/
structure Calls (m : Machine) (b : Builtin) (args : Arguments) : Prop where
  /-- it has got to the call -/
  mode : m.mode = .call (.builtin b) args
  /-- and there is room -/
  room : m.heap.isOver = false

/-- An argument is a text, or a number that is written like it. -/
def Names (args : Arguments) (n : Nat) (key : String) : Prop :=
  ∃ b : Bytes, (args.nth n).toBytes? = some b ∧ b.toText = .ok key

theorem Names.hostText_eq {args : Arguments} {n : Nat} {key : String} (h : Names args n key)
    (heap : Heap) : Library.hostText args n heap = .done key heap := by
  obtain ⟨b, hbytes, htext⟩ := h
  rw [Library.hostText, hbytes]
  dsimp only
  rw [htext]
  rfl

namespace Calls

variable {traffic : Traffic} {node : String} {m : Machine} {s : State} {args : Arguments}
  {key : String} {v : Json}

/-- **A call of the host** takes three steps: to the function, to its request and back. -/
theorem drives {b : Builtin} {r : Request} {heap heap' : Heap} {vs : List Value}
    {k : r.Answer → Heap → Step Arguments} (hcall : Calls m b args)
    (hrun : b.run args m.heap = .ask r heap k)
    (hdone : k (serve traffic node s r).1 heap = .done vs heap') :
    Drives traffic node 3 m s [r] { m with mode := .give vs, heap := heap' }
      (serve traffic node s r).2 := by
  obtain ⟨mode, conts, room, nested, height⟩ := m
  obtain ⟨hmode, hroom⟩ := hcall
  dsimp only at hmode hroom hrun
  subst hmode
  let ctx : Context := .builtin b args (Machine.calledBy conts)
  let stops (step : Step Arguments) (room : Heap) : Machine :=
    ⟨.proc ctx step, conts, room, nested, height⟩
  have hentered : Machine.step ⟨.call (.builtin b) args, conts, room, nested, height⟩ =
      .next (stops (.ask r heap k) room) := by
    rw [Machine.step, if_neg (by rw [hroom]; decide), ← hrun]
    rfl
  -- while the host is asked, the heap is with the procedure and the machine has none
  have hasked : (stops (.ask r heap k) room).step = .ask r fun a => stops (k a heap) default := by
    rw [Machine.step, if_neg (by rw [hroom]; decide)]
    rfl
  have hgiven : (stops (k (serve traffic node s r).1 heap) default).step =
      .next ⟨.give vs, conts, heap', nested, height⟩ := by
    rw [hdone]
    rfl
  exact .next hentered (.ask hasked (.next hgiven (.here ..)))

variable (traffic node s)

/-- A variable is set to what the argument is as JSON. -/
theorem sets (hcall : Calls m .varsSet args) (hkey : Names args 1 key)
    (hvalue : Exchange.toJson m.heap (args.nth 2) = .ok v) :
    Drives traffic node 3 m s [.setVar key v] { m with mode := .give [] }
      (s.write fun vars => vars.set key v) := by
  refine hcall.drives (r := .setVar key v) (k := fun _ heap => .done [] heap) ?_ rfl
  change (Library.hostText args 1 m.heap).bind _ = _
  rw [hkey.hostText_eq]
  change (Library.hostJson (args.nth 2) m.heap).bind _ = _
  rw [Library.hostJson, hvalue]
  rfl

/-- A variable is handed in, and nil where there is none. -/
theorem gets (hcall : Calls m .varsGet args) (hkey : Names args 1 key) :
    let handed := Exchange.ofJson ((s.vars.resolve? key).getD .null) m.heap
    Drives traffic node 3 m s [.getVar key]
      { m with mode := .give [handed.1], heap := handed.2 } s := by
  refine hcall.drives (r := .getVar key) (k := fun found heap =>
    let handed := Exchange.ofJson (Option.getD found .null) heap
    .done [handed.1] handed.2) ?_ rfl
  change (Library.hostText args 1 m.heap).bind _ = _
  rw [hkey.hostText_eq]
  change Step.ask _ _ _ = Step.ask _ _ _
  congr 1
  funext found heap
  cases found with
  | none => rfl
  | some v => rfl

end Calls

end Sandbox

end Workflow
