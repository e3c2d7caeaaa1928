import Workflow.Proofs.Script.Calls
import Workflow.Proofs.Script.Exchange
import Workflow.Proofs.Vars.Reference

/-!
# Reading back and writing back

What a script has set it gets back, and so does whoever looks at the variables after it, until
something else is written (`Sandbox.reads_back`). What it gets it can set again, and nothing has
changed (`Sandbox.writes_back`). In between lie two borders: values cross into the script and out of
it, and come back as what they were; and a key is set as a whole but looked up as a reference. At
the second a key with a colon is lost. It is set and there, but a reference cannot name it.
-/

namespace Workflow

open Script

/-- Setting a variable to what it is changes nothing. -/
theorem Vars.set_found {vars : Vars} (hsorted : vars.fields.Sorted) {key : String} {v : Json}
    (h : vars.get? key = some v) : vars.set key v = vars := by
  have hput := hsorted.map_put h (f := id) rfl
  rw [List.map_id, List.map_id] at hput
  exact congrArg Vars.mk hput

namespace Sandbox

/-- A text names itself. -/
theorem names_text (key : String) (rest : Arguments) : Names (.text key :: rest) 1 key :=
  ⟨key.toUTF8, rfl, Bytes.toText_toUTF8 key⟩

/-! ## Reading back -/

/-- **What a script sets it gets back**, with whatever it does in between that writes nothing, and
it is there after the script, if the key has no colon. Whether the script ends well or with a fault
makes no difference, unless it writes while the fault is put into words. A key with a colon is set
as well, but what a reference leads to is as before, for all references. -/
theorem reads_back {traffic : Traffic} {node : String} {m : Machine} {s : State} {args : Arguments}
    {key : String} {v : Json} (hcall : Calls m .varsSet args) (hkey : Names args 1 key)
    (hvalue : Exchange.toJson m.heap (args.nth 2) = .ok v) (hv : v.IsPortable) :
    ∃ s₁, Drives traffic node 3 m s [.setVar key v] { m with mode := .give [] } s₁ ∧
      ∀ n requests m₂ s₂, Drives traffic node n { m with mode := .give [] } s₁ requests m₂ s₂ →
        (∀ r ∈ requests, r.writes = false) →
        s₂.vars.get? key = some v ∧
        (∀ random memoryLimit script vars n₀ requests₀ requests₁ s₃,
          Reaches traffic random memoryLimit node script vars n₀ requests₀ m s →
          Concludes traffic node m₂ s₂ requests₁ s₃ → (∀ r ∈ requests₁, r.writes = false) →
          n₀ + 3 + n < maxSteps →
          (executeAmid traffic random memoryLimit node script vars).vars = s₂.vars) ∧
        (':' ∉ key.toList →
          s₂.vars.resolve? key = some v ∧
          ∀ args₂, Calls m₂ .varsGet args₂ → Names args₂ 1 key →
            ∃ val heap, Exchange.ofJson v m₂.heap = (val, heap) ∧
              Drives traffic node 3 m₂ s₂ [.getVar key]
                { m₂ with mode := .give [val], heap := heap } s₂ ∧
              Exchange.toJson heap val = .ok v) ∧
        (':' ∈ key.toList →
          ∀ reference, s₂.vars.resolve? reference = s.vars.resolve? reference) := by
  have hset := hcall.sets traffic node s hkey hvalue
  refine ⟨_, hset, fun n requests m₂ s₂ hlater hquiet => ?_⟩
  have hvars : s₂.vars = s.vars.set key v := hlater.vars_eq hquiet
  have hfound : s₂.vars.get? key = some v := by rw [hvars, Vars.get?_set, if_pos rfl]
  refine ⟨hfound, ?_, fun hcolon => ?_, fun hcolon reference => ?_⟩
  · intro random memoryLimit script vars n₀ requests₀ requests₁ s₃ hreaches hend hsilent hn
    have hleft := ((hreaches.trans hset).trans hlater).vars_eq hn hend
    exact hleft.trans (hend.vars_eq hsilent)
  · -- without a colon the reference is the key
    have hresolve : s₂.vars.resolve? key = some v := by rw [Vars.resolve?_key hcolon, hfound]
    refine ⟨hresolve, fun args₂ hcall₂ hkey₂ => ⟨_, _, rfl, ?_, ?_⟩⟩
    · have hget := hcall₂.gets traffic node s₂ hkey₂
      rwa [hresolve] at hget
    · exact Exchange.toJson_ofJson (Or.inr hv) m₂.heap (.refl _ _)
  · rw [hvars, Vars.resolve?_set_colon hcolon]

/-- The machine calls a function of the host for a function of a script, which then calls another
with what it has on its stack and returns what that gives. -/
def callingTwice (first : Builtin) (args : Arguments) (wanted : Wanted) (stack : Array Value)
    (count : Nat) : Machine where
  mode := .call (.builtin first) args
  conts := [.frame
    { code := { instrs := #[.call (.fixed count) .all .unknown 0, .ret (.withTail 0)] }
      vars := #[], cells := #[], upvalues := #[], stack := stack } wanted none {}]
  heap := {}

/-- The machine sets a variable to one and returns what it then gets. -/
def settingThenGetting (key : String) : Machine :=
  callingTwice .varsSet [.text key, .int 1] (.exactly 0) #[.builtin .varsGet, .text key] 1

theorem calls_settingThenGetting (key : String) :
    Calls (settingThenGetting key) .varsSet [.text key, .int 1] := ⟨rfl, rfl⟩

/-- Once the variable is set, it gets to the other call, and from there to its end. -/
theorem settingThenGetting_drives (traffic : Traffic) (node key : String) (s : State) :
    ∃ m, Drives traffic node 2 { settingThenGetting key with mode := .give [] } s [] m s ∧
      Calls m .varsGet [.text key] ∧
      ∀ val s, ∃ m', Drives traffic node 2 { m with mode := .give [val] } s [] m' s ∧
        m'.step = .ended (.ok [val]) {} :=
  ⟨_, .next rfl (.next rfl (.here ..)), ⟨rfl, rfl⟩, fun _ _ =>
    ⟨_, .next rfl (.next rfl (.here ..)), rfl⟩⟩

theorem toJson_one (h : Heap) : Exchange.toJson h (.int 1) = .ok (.num (.int 1)) := by
  rw [Exchange.toJson, Exchange.Data.ofValue, Exchange.take]
  rfl

/-- A key is found in the spelling in which it was set. -/
theorem reads_back_spelled :
    ∃ m s, Drives (fun _ _ => .error "") "n" 8 (settingThenGetting "Key A") { vars := .empty }
        [.setVar "Key A" (.num (.int 1)), .getVar "Key A"] m s ∧
      (∃ val, m.mode = .give [val] ∧ Exchange.toJson m.heap val = .ok (.num (.int 1))) ∧
      s.vars.resolve? "Key A" = some (.num (.int 1)) := by
  obtain ⟨s₁, hset, hlater⟩ := @reads_back (fun _ _ => .error "") "n" _ { vars := .empty } _ _ _
    (calls_settingThenGetting "Key A") (names_text "Key A" _) (toJson_one _)
    (.int (by decide) (by decide))
  obtain ⟨m, hmiddle, hcall, -⟩ := settingThenGetting_drives (fun _ _ => .error "") "n" "Key A" s₁
  obtain ⟨-, -, hplain, -⟩ := hlater _ _ _ _ hmiddle (List.forall_mem_nil _)
  obtain ⟨hresolve, hgets⟩ := hplain (by decide)
  obtain ⟨val, heap, -, hget, hval⟩ := hgets _ hcall (names_text "Key A" _)
  exact ⟨_, _, (hset.trans hmiddle).trans hget, ⟨val, rfl, hval⟩, hresolve⟩

/-- What is set under a key with a colon is there, but the script gets nil. -/
theorem colon_not_read_back :
    ∃ s, drive (fun _ _ => .error "") "n" 11 (settingThenGetting "a:b") { vars := .empty } =
        (.values [.nil], {}, s) ∧
      s.vars.get? "a:b" = some (.num (.int 1)) ∧ s.vars.resolve? "a:b" = none := by
  let s : State := State.write { vars := .empty } fun vars => vars.set "a:b" (.num (.int 1))
  have hnone : s.vars.resolve? "a:b" = none := by decide
  have hset := (calls_settingThenGetting "a:b").sets (fun _ _ => .error "") "n" { vars := .empty }
    (names_text "a:b" _) (toJson_one _)
  obtain ⟨m, hmiddle, hcall, hrest⟩ :=
    settingThenGetting_drives (fun _ _ => .error "") "n" "a:b" s
  have hget := hcall.gets (fun _ _ => .error "") "n" s (names_text "a:b" _)
  rw [hnone, Option.getD_none, Exchange.ofJson] at hget
  obtain ⟨m', hleave, hend⟩ := hrest .nil s
  have hdrives := ((hset.trans hmiddle).trans hget).trans hleave
  refine ⟨s, ?_, ?_, hnone⟩
  · rw [hdrives.drive_eq 1, drive, hend]
  · rfl

/-! ## Writing back -/

/-- **What crosses into a script and back is what it was**, whatever lies in between that leaves its
tables alone. So a script that gets all of a variable, by whatever reference leads there, and sets
it to that again leaves the variables as they are. -/
theorem writes_back {v : Json} (hv : v = .null ∨ v.IsPortable) :
    (∀ h h' : Heap, (Exchange.ofJson v h).2.Keeps h.tables.size h' →
      Exchange.toJson h' (Exchange.ofJson v h).1 = .ok v) ∧
    ∀ traffic node m s args reference key, s.vars.fields.Sorted → s.vars.get? key = some v →
      s.vars.resolve? reference = s.vars.get? key → Calls m .varsGet args →
      Names args 1 reference → ∃ val heap, Exchange.ofJson v m.heap = (val, heap) ∧
        Drives traffic node 3 m s [.getVar reference]
          { m with mode := .give [val], heap := heap } s ∧
        ∀ n requests m₂ s₂ args₂, Drives traffic node n
            { m with mode := .give [val], heap := heap } s requests m₂ s₂ →
          (∀ r ∈ requests, r.writes = false) → heap.Keeps m.heap.tables.size m₂.heap →
          Calls m₂ .varsSet args₂ → Names args₂ 1 key → args₂.nth 2 = val →
          ∃ s₃, Drives traffic node 3 m₂ s₂ [.setVar key v] { m₂ with mode := .give [] } s₃ ∧
            s₃.vars = s.vars := by
  have hback : ∀ h h' : Heap, (Exchange.ofJson v h).2.Keeps h.tables.size h' →
      Exchange.toJson h' (Exchange.ofJson v h).1 = .ok v :=
    fun h _ hkeeps => Exchange.toJson_ofJson hv h hkeeps
  refine ⟨hback, ?_⟩
  intro traffic node m s args reference key hsorted hfound hreference hcall hnames
  have hget := hcall.gets traffic node s hnames
  rw [hreference, hfound, Option.getD_some] at hget
  refine ⟨_, _, rfl, hget, ?_⟩
  intro n requests m₂ s₂ args₂ hlater hquiet hkeeps hcall₂ hnames₂ hval
  have hvalue : Exchange.toJson m₂.heap (args₂.nth 2) = .ok v := by
    rw [hval]
    exact hback _ _ hkeeps
  refine ⟨_, hcall₂.sets traffic node s₂ hnames₂ hvalue, ?_⟩
  -- the key is there, so setting it adds nothing
  change s₂.vars.set key v = s.vars
  rw [hlater.vars_eq hquiet, Vars.set_found hsorted hfound]

/-- The machine gets a variable and sets it to that. -/
def gettingThenSetting (key : String) : Machine :=
  callingTwice .varsGet [.text key] (.exactly 1) #[.builtin .varsSet, .text key] 2

/-- A value of many kinds, with an empty array and an empty object in it. -/
def mixed : Json :=
  .obj [("a", .arr []), ("b", .obj []), ("c", .arr [.num (.int 1), .str "1", .bool true])]

theorem isPortable_mixed : mixed.IsPortable := by
  have hlist : Json.IsPortable (.arr [.num (.int 1), .str "1", .bool true]) := by
    refine .arr (by decide) ?_
    simp only [List.forall_mem_cons]
    exact ⟨.int (by decide) (by decide), .str _, .bool _, List.forall_mem_nil _⟩
  refine .obj (by rw [Fields.Sorted]; decide) ?_
  simp only [List.forall_mem_cons]
  exact ⟨.arr (by decide) (List.forall_mem_nil _), .obj .nil (List.forall_mem_nil _), hlist,
    List.forall_mem_nil _⟩

/-- Both of them, and all else in it, are there again after the script. -/
theorem writes_back_mixed :
    ∃ m s, Drives (fun _ _ => .error "") "n" 8 (gettingThenSetting "Key A")
        { vars := ⟨[("key_a", mixed)]⟩ } [.getVar "Key A", .setVar "Key A" mixed] m s ∧
      m.mode = .give [] ∧ s.vars = ⟨[("key_a", mixed)]⟩ := by
  obtain ⟨-, hscript⟩ := writes_back (Or.inr isPortable_mixed)
  obtain ⟨val, heap, hof, hget, hback⟩ := hscript (fun _ _ => .error "") "n"
    (gettingThenSetting "Key A") { vars := ⟨[("key_a", mixed)]⟩ } [.text "Key A"] "Key A" "Key A"
    (List.pairwise_singleton _ _) rfl rfl ⟨rfl, rfl⟩ (names_text "Key A" [])
  obtain rfl : _ = val := congrArg Prod.fst hof
  obtain rfl : _ = heap := congrArg Prod.snd hof
  obtain ⟨s₃, hset, hs₃⟩ := hback 2 [] _ _ [.text "Key A", _] (.next rfl (.next rfl (.here ..)))
    (List.forall_mem_nil _) (.refl _ _) ⟨rfl, rfl⟩ (names_text "Key A" _) rfl
  exact ⟨_, _, hget.trans (.next rfl (.next rfl hset)), rfl, hs₃⟩

end Sandbox

end Workflow
