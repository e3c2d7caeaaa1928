import Workflow.Proofs.Watch.Fanout
import Workflow.Watch.Journal

/-!
# What a journal writes down, and how it leaves

A journal that nobody disturbs reads what is queued for it up to the event that ends the run, and
writes down what its level asks for (`run_reading`), or waits for more (`run_waiting`). The engine
lets it do so in one turn, which comes to the same (`run_turn`).

Others may do with the register and the mailboxes what they like between any two steps of a journal
(`Lives`). All its steps leave the register alone but the last, which takes its own watcher off its
own subject and nothing else (`Lives.kept`). There is no other way to the end: every exit goes
through the phase of leaving.
-/

namespace Workflow

/-! ## Taking one watcher off -/

namespace Broadcaster

/-- A broadcaster is another one without a watcher on a subject. -/
structure Without (subject : String) (id : Nat) (b b' : Broadcaster) : Prop where
  /-- the subject has all its watchers but the one -/
  own : b'.watchers subject = (b.watchers subject).filter (· ≠ id)
  /-- other subjects have all their watchers -/
  others : ∀ other, other ≠ subject → b'.watchers other = b.watchers other
  /-- other watchers have their mailboxes -/
  boxes : ∀ i, i ≠ id → b'.box? i = b.box? i

theorem unsubscribe_without (b : Broadcaster) (subject : String) (id : Nat) :
    Without subject id b (b.unsubscribe subject id).2 := by
  rw [unsubscribe]
  by_cases hin : id ∈ b.watchers subject
  · rw [if_pos (List.contains_iff_mem.mpr hin)]
    constructor
    · rw [watchers_updateBox, watchers_setWatchers, if_pos rfl]
    · intro other hne
      rw [watchers_updateBox, watchers_setWatchers, if_neg (Ne.symm hne)]
    · intro i hne
      rw [box?_updateBox, if_neg (Ne.symm hne), box?_setWatchers]
  · rw [if_neg fun hc => hin (List.contains_iff_mem.mp hc)]
    refine ⟨(List.filter_eq_self.mpr fun i hi => decide_eq_true ?_).symm, fun _ _ => rfl,
      fun _ _ => rfl⟩
    rintro rfl
    exact hin hi

/-- Reading one's own mailbox before leaving makes no difference to others. -/
theorem Without.of_updateBox {subject : String} {id : Nat} {b b' : Broadcaster}
    {f : Mailbox Envelope → Mailbox Envelope} (h : Without subject id (b.updateBox id f) b') :
    Without subject id b b' where
  own := h.own
  others := h.others
  boxes i hne := by rw [h.boxes i hne, box?_updateBox, if_neg (Ne.symm hne)]

/-- What is read next. -/
theorem receive_eq {b : Broadcaster} {id : Nat} {m : Mailbox Envelope} (hbox : b.box? id = some m) :
    b.receive id = (m.items.head?, b.updateBox id (·.receive)) := by
  rw [receive, hbox]
  rfl

end Broadcaster

namespace Journal

/-! ## Reading -/

/-- A row of envelopes up to the first that ends the run, with it. -/
def upToEnd (items : List Envelope) : List Envelope :=
  items.takeWhile (fun e => !e.event.isTerminal) ++
    (items.dropWhile fun e => !e.event.isTerminal).take 1

theorem upToEnd_cons (e : Envelope) (rest : List Envelope) :
    upToEnd (e :: rest) = if e.event.isTerminal then [e] else e :: upToEnd rest := by
  unfold upToEnd
  cases h : e.event.isTerminal <;> simp [h]

/-- A journal that has written an envelope down, if its level asks for it. -/
def noting (j : Journal) (e : Envelope) : Journal :=
  { j with lines := j.lines ++ [e].filter (writes j.level) }

theorem append_roomy {j : Journal} (hroom : j.room = none) (e : Envelope) :
    j.append e = some (j.noting e) := by
  obtain ⟨_, _, _, _, _, _⟩ := j
  subst hroom
  unfold append noting
  dsimp only
  split
  · next hw =>
    rw [List.filter_cons_of_pos hw]
    rfl
  · next hw => rw [List.filter_cons_of_neg hw, List.filter_nil, List.append_nil]

/-- What a journal whose file has room makes of an envelope. -/
theorem read_roomy {j : Journal} (hroom : j.room = none) (e : Envelope) :
    j.read e =
      if e.event.isTerminal then { j.noting e with phase := .leaving .terminal }
      else j.noting e := by
  rw [read, append_roomy hroom]

theorem filter_upToEnd_cons {e : Envelope} (he : e.event.isTerminal = false) (level : Nat)
    (rest : List Envelope) :
    (upToEnd (e :: rest)).filter (writes level) =
      [e].filter (writes level) ++ (upToEnd rest).filter (writes level) := by
  rw [upToEnd_cons, if_neg (Bool.eq_false_iff.mp he), ← List.filter_append]
  rfl

/-- **A whole row of envelopes is read up to the end of the run.** -/
theorem readAll_eq {j : Journal} (hroom : j.room = none) (hphase : j.phase = .reading)
    (items : List Envelope) :
    j.readAll items =
      { j with
        lines := j.lines ++ (upToEnd items).filter (writes j.level)
        phase := if items.any (·.event.isTerminal) then .leaving .terminal else .reading } := by
  induction items generalizing j with
  | nil =>
    rw [readAll, ← hphase]
    simp [upToEnd]
  | cons e rest ih =>
    rw [readAll, if_pos hphase, read_roomy hroom, List.any_cons]
    cases he : e.event.isTerminal with
    | true =>
      rw [if_pos rfl, Bool.true_or, if_pos rfl, upToEnd_cons, if_pos he]
      cases rest <;> rfl
    | false =>
      rw [if_neg Bool.false_ne_true, ih (j := j.noting e) hroom hphase, filter_upToEnd_cons he,
        Bool.false_or, ← List.append_assoc]
      rfl

/-! ## By itself -/

section Run

variable {place : Place} {finished : Bool} {n : Nat} {j j' : Journal} {b b' : Broadcaster}

theorem run_step (h : j.step place finished b = some (j', b')) (hn : 0 < n) :
    run place finished n j b = run place finished (n - 1) j' b' := by
  obtain ⟨k, rfl⟩ := Nat.exists_eq_succ_of_ne_zero (Nat.ne_of_gt hn)
  rw [run, h]
  rfl

/-- A journal that reads takes up what is queued next. -/
theorem step_reading {m : Mailbox Envelope} {e : Envelope} {rest : List Envelope}
    (hphase : j.phase = .reading) (hbox : b.box? j.watcher = some m) (hitems : m.items = e :: rest) :
    j.step place finished b = some (j.read e, b.updateBox j.watcher (·.receive)) := by
  rw [step, hphase]
  simp [Broadcaster.receive_eq hbox, hitems]

theorem box?_receive {id : Nat} {m : Mailbox Envelope} (hbox : b.box? id = some m) :
    (b.updateBox id (·.receive)).box? id = some m.receive := by
  rw [Broadcaster.box?_updateBox, if_pos rfl, hbox, Option.map_some]

/-- A journal that is leaving takes itself off, and that is the end of it. -/
theorem run_leaving {exit : Exit} (hphase : j.phase = .leaving exit) (hn : 0 < n) :
    run place finished n j b =
      ({ j with phase := .ended exit }, (b.unsubscribe j.subject j.watcher).2) := by
  have hstep : j.step place finished b =
      some ({ j with phase := .ended exit }, (b.unsubscribe j.subject j.watcher).2) := by
    rw [step, hphase]
  rw [run_step hstep hn]
  cases n - 1 <;> rfl

/-- Whether a journal that has so much to read can come to its end by itself. -/
def endsOn (finished : Bool) (m : Mailbox Envelope) : Bool :=
  finished || m.closed || m.items.any (·.event.isTerminal)

/-- **A journal that nobody disturbs** and that has something to end on writes down what is queued
for it, up to the event that ends the run, and takes itself off. -/
theorem run_reading {m : Mailbox Envelope} (hroom : j.room = none) (hphase : j.phase = .reading)
    (hbox : b.box? j.watcher = some m) (hends : endsOn finished m = true)
    (hn : m.items.length + 3 ≤ n) :
    ∃ exit b', run place finished n j b =
      ({ j with
          lines := j.lines ++ (upToEnd m.items).filter (writes j.level)
          phase := .ended exit }, b') ∧ b.Without j.subject j.watcher b' := by
  generalize hitems : m.items = items at hn
  induction items generalizing j b m n with
  | nil =>
    have hnone : b.receive j.watcher = (none, b.updateBox j.watcher (·.receive)) := by
      rw [Broadcaster.receive_eq hbox, hitems]
      rfl
    have hlines : j.lines ++ (upToEnd []).filter (writes j.level) = j.lines := List.append_nil _
    rw [hlines]
    cases hclosed : m.closed with
    | true =>
      have hstep : j.step place finished b = some ({ j with phase := .leaving .closed }, b) := by
        rw [step, hphase]
        simp [hnone, hbox, Mailbox.isOver, hitems, hclosed]
      refine ⟨.closed, _, ?_, b.unsubscribe_without _ _⟩
      rw [run_step hstep (by omega), run_leaving rfl (by omega)]
    | false =>
      obtain rfl : finished = true := by simpa [endsOn, hclosed, hitems] using hends
      have hstep : j.step place true b = some ({ j with phase := .draining }, b) := by
        rw [step, hphase]
        simp [hnone, hbox, Mailbox.isOver, hclosed]
      have hdrained : ({ j with phase := .draining } : Journal).step place true b =
          some ({ j with phase := .leaving .finished }, b) := by
        simp [step, hnone]
      refine ⟨.finished, _, ?_, b.unsubscribe_without _ _⟩
      rw [run_step hstep (by omega), run_step hdrained (by omega), run_leaving rfl (by omega)]
  | cons e rest ih =>
    rw [List.length_cons] at hn
    rw [run_step (step_reading hphase hbox hitems) (by omega), read_roomy hroom]
    cases he : e.event.isTerminal with
    | true =>
      have hwithout := (b.updateBox j.watcher (·.receive)).unsubscribe_without j.subject j.watcher
      refine ⟨.terminal, _, ?_, hwithout.of_updateBox⟩
      rw [if_pos rfl, run_leaving rfl (by omega), upToEnd_cons, if_pos he]
      rfl
    | false =>
      have hnext : (b.updateBox j.watcher (·.receive)).box? j.watcher = some m.receive :=
        box?_receive hbox
      have htail : m.receive.items = rest := by rw [Mailbox.items_receive, hitems, List.tail_cons]
      have hrest : endsOn finished m.receive = true := by
        rw [endsOn, hitems, List.any_cons, he, Bool.false_or] at hends
        rw [endsOn, htail]
        exact hends
      obtain ⟨exit, b', hrun, hwithout⟩ :=
        ih (n := n - 1) (j := j.noting e) hroom hphase hnext hrest htail (by omega)
      refine ⟨exit, b', ?_, hwithout.of_updateBox⟩
      rw [if_neg Bool.false_ne_true, hrun, filter_upToEnd_cons he, ← List.append_assoc]
      rfl

/-- A journal that nobody disturbs and that has nothing to end on writes down what is queued for it
as well, and waits for more. -/
theorem run_waiting {m : Mailbox Envelope} (hroom : j.room = none) (hphase : j.phase = .reading)
    (hbox : b.box? j.watcher = some m) (hwaits : endsOn finished m = false)
    (hn : m.items.length ≤ n) :
    ∃ b', run place finished n j b =
      ({ j with lines := j.lines ++ (upToEnd m.items).filter (writes j.level) }, b') := by
  generalize hitems : m.items = items at hn
  induction items generalizing j b m n with
  | nil =>
    have hlines : j.lines ++ (upToEnd []).filter (writes j.level) = j.lines := List.append_nil _
    have hstep : j.step place finished b = none := by
      obtain ⟨⟨hgoes, hopen⟩, -⟩ : (finished = false ∧ m.closed = false) ∧ _ := by
        simpa [endsOn] using hwaits
      rw [step, hphase]
      simp [Broadcaster.receive_eq hbox, hbox, Mailbox.isOver, hitems, hgoes, hopen]
    refine ⟨b, ?_⟩
    rw [hlines]
    cases n with
    | zero => rfl
    | succ n => rw [run, hstep]
  | cons e rest ih =>
    rw [List.length_cons] at hn
    rw [run_step (step_reading hphase hbox hitems) (by omega), read_roomy hroom]
    have hnext : (b.updateBox j.watcher (·.receive)).box? j.watcher = some m.receive :=
      box?_receive hbox
    have htail : m.receive.items = rest := by rw [Mailbox.items_receive, hitems, List.tail_cons]
    rw [endsOn, hitems, List.any_cons] at hwaits
    simp only [Bool.or_eq_false_iff] at hwaits
    obtain ⟨hgoes, he, hrest⟩ := hwaits
    have hstill : endsOn finished m.receive = false := by
      rw [endsOn, htail, hrest, Bool.or_false]
      exact Bool.or_eq_false_iff.mpr hgoes
    obtain ⟨b', hrun⟩ :=
      ih (n := n - 1) (j := j.noting e) hroom hphase hnext hstill htail (by omega)
    refine ⟨b', ?_⟩
    rw [he, if_neg Bool.false_ne_true, hrun, filter_upToEnd_cons he, ← List.append_assoc]
    rfl

end Run

/-! ## Among others -/

/-- A step of a journal: what it finds and what it leaves. -/
structure Stage where
  /-- the broadcaster before -/
  found : Broadcaster
  /-- the broadcaster after -/
  left : Broadcaster

/-- That a step leaves the register alone, and the mailboxes of all other watchers. -/
structure Stage.IsQuiet (id : Nat) (x : Stage) : Prop where
  /-- nobody comes or goes -/
  register : x.left.subjects = x.found.subjects
  /-- other watchers have their mailboxes -/
  boxes : ∀ i, i ≠ id → x.left.box? i = x.found.box? i

/-- The steps of a journal, the oldest first. Between two of them others may do with the broadcaster
what they like, and the finished signal may be set. -/
inductive Lives (place : Place) (j₀ : Journal) : List Stage → Journal → Prop
  /-- it has done nothing yet -/
  | nil : Lives place j₀ [] j₀
  /-- it does one more step -/
  | snoc {l : List Stage} {j j' : Journal} {b b' : Broadcaster} {finished : Bool} :
      Lives place j₀ l j → j.step place finished b = some (j', b') →
      Lives place j₀ (l ++ [⟨b, b'⟩]) j'

/-- Whether a journal has come to its end. -/
def isOver (j : Journal) : Bool :=
  match j.phase with
  | .ended _ => true
  | _ => false

/-- What a step of a journal comes to. -/
inductive Steps (j : Journal) (b : Broadcaster) (j' : Journal) (b' : Broadcaster) : Prop
  /-- it goes on, or has yet to take itself off -/
  | on : j'.isOver = false → Stage.IsQuiet j.watcher ⟨b, b'⟩ → Steps j b j' b'
  /-- it takes itself off -/
  | off : j'.isOver = true → b.Without j.subject j.watcher b' → Steps j b j' b'

section Lives

variable {place : Place} {finished : Bool} {j₀ j j' : Journal} {b b' : Broadcaster} {l : List Stage}

theorem isQuiet_self (id : Nat) (b : Broadcaster) : Stage.IsQuiet id ⟨b, b⟩ := ⟨rfl, fun _ _ => rfl⟩

theorem isQuiet_updateBox (id : Nat) (b : Broadcaster)
    (f : Mailbox Envelope → Mailbox Envelope) : Stage.IsQuiet id ⟨b, b.updateBox id f⟩ :=
  ⟨rfl, fun i hne => by rw [Broadcaster.box?_updateBox, if_neg (Ne.symm hne)]⟩

theorem append_same (h : j.append e = some j') :
    j'.subject = j.subject ∧ j'.watcher = j.watcher ∧ j'.phase = j.phase := by
  unfold append at h
  repeat' split at h
  all_goals cases h
  all_goals exact ⟨rfl, rfl, rfl⟩

/-- A journal that has read stays who it was, and goes on or is about to leave. -/
structure Reads (j j' : Journal) : Prop where
  /-- it watches what it watched -/
  subject : j'.subject = j.subject
  /-- it has the watcher that it had -/
  watcher : j'.watcher = j.watcher
  /-- it is where it was, or about to leave -/
  phase : j'.phase = j.phase ∨ ∃ exit, j'.phase = .leaving exit

theorem reads_read (j : Journal) (e : Envelope) : Reads j (j.read e) := by
  unfold read
  cases happend : j.append e with
  | none => exact ⟨rfl, rfl, Or.inr ⟨_, rfl⟩⟩
  | some j' =>
    obtain ⟨hsubject, hwatcher, hphase⟩ := append_same happend
    dsimp only
    split
    · exact ⟨hsubject, hwatcher, Or.inr ⟨_, rfl⟩⟩
    · exact ⟨hsubject, hwatcher, Or.inl hphase⟩

theorem reads_readLeft (j : Journal) (e : Envelope) : Reads j (j.readLeft e) := by
  unfold readLeft
  cases happend : j.append e with
  | none => exact ⟨rfl, rfl, Or.inr ⟨_, rfl⟩⟩
  | some j' =>
    obtain ⟨hsubject, hwatcher, hphase⟩ := append_same happend
    exact ⟨hsubject, hwatcher, Or.inl hphase⟩

theorem Reads.isOver (h : Reads j j') (hgoes : j.isOver = false) : j'.isOver = false := by
  rcases h.phase with hphase | ⟨exit, hphase⟩
  · rw [Journal.isOver, hphase]
    exact hgoes
  · rw [Journal.isOver, hphase]

/-- **What a step does**, phase by phase: only the one that ends the journal changes the
register. -/
theorem steps_of_step (h : j.step place finished b = some (j', b')) :
    j'.subject = j.subject ∧ j'.watcher = j.watcher ∧ Steps j b j' b' := by
  unfold step at h
  cases hphase : j.phase with
  | starting =>
    rw [hphase] at h
    cases h
    refine ⟨rfl, rfl, .on ?_ (isQuiet_self ..)⟩
    cases place.hasDirectory <;> rfl
  | opening =>
    rw [hphase] at h
    cases h
    refine ⟨rfl, rfl, .on ?_ (isQuiet_self ..)⟩
    cases place.hasFile <;> rfl
  | reading =>
    have hgoes : j.isOver = false := by rw [isOver, hphase]
    rw [hphase] at h
    dsimp only at h
    split at h
    · next e b₁ hreceived =>
      have hreads := reads_read j e
      cases h
      obtain rfl : b.updateBox j.watcher (·.receive) = b' := congrArg Prod.snd hreceived
      exact ⟨hreads.subject, hreads.watcher, .on (hreads.isOver hgoes) (isQuiet_updateBox ..)⟩
    · repeat' split at h
      all_goals cases h
      all_goals exact ⟨rfl, rfl, .on rfl (isQuiet_self ..)⟩
  | draining =>
    have hgoes : j.isOver = false := by rw [isOver, hphase]
    rw [hphase] at h
    dsimp only at h
    split at h
    · next e b₁ hreceived =>
      have hreads := reads_readLeft j e
      cases h
      obtain rfl : b.updateBox j.watcher (·.receive) = b' := congrArg Prod.snd hreceived
      exact ⟨hreads.subject, hreads.watcher, .on (hreads.isOver hgoes) (isQuiet_updateBox ..)⟩
    · cases h
      exact ⟨rfl, rfl, .on rfl (isQuiet_self ..)⟩
  | leaving exit =>
    rw [hphase] at h
    cases h
    exact ⟨rfl, rfl, .off rfl (b.unsubscribe_without ..)⟩
  | ended =>
    rw [hphase] at h
    cases h

theorem step_over (h : j.step place finished b = some (j', b')) : j.isOver = false := by
  unfold isOver
  split
  · next hphase =>
    rw [step, hphase] at h
    cases h
  · rfl

/-- How far a journal is tells what it has done to the register. -/
structure Kept (j₀ : Journal) (l : List Stage) (j : Journal) : Prop where
  /-- it watches what it watched -/
  subject : j.subject = j₀.subject
  /-- it has the watcher that it had -/
  watcher : j.watcher = j₀.watcher
  /-- before its end it leaves the register alone -/
  quiet : j.isOver = false → ∀ x ∈ l, x.IsQuiet j₀.watcher
  /-- at its end it takes itself off -/
  off : j.isOver = true → ∃ before last, l = before ++ [last] ∧
    (∀ x ∈ before, x.IsQuiet j₀.watcher) ∧ last.found.Without j₀.subject j₀.watcher last.left

theorem Lives.kept (h : Lives place j₀ l j) (h₀ : j₀.isOver = false) : Kept j₀ l j := by
  induction h with
  | nil => exact ⟨rfl, rfl, fun _ => nofun, fun h => nomatch h₀.symm.trans h⟩
  | snoc _ hstep ih =>
    have hquiet := ih.quiet (step_over hstep)
    obtain ⟨hsubject, hwatcher, hsteps⟩ := steps_of_step hstep
    rw [ih.subject] at hsubject
    rw [ih.watcher] at hwatcher
    refine ⟨hsubject, hwatcher, fun hgoes => ?_, fun hover => ?_⟩
    · cases hsteps with
      | on _ hq =>
        rw [ih.watcher] at hq
        intro x hx
        rcases List.mem_append.mp hx with hx | hx
        · exact hquiet x hx
        · obtain rfl := List.mem_singleton.mp hx
          exact hq
      | off hover => cases hgoes.symm.trans hover
    · cases hsteps with
      | on hgoes => cases hgoes.symm.trans hover
      | off _ hw =>
        rw [ih.subject, ih.watcher] at hw
        exact ⟨_, _, rfl, hquiet, hw⟩

/-- What a journal does by itself is one of the things that it may do. -/
theorem Lives.run (h : Lives place j₀ l j) (finished : Bool) (n : Nat) (b : Broadcaster) :
    ∃ l', Lives place j₀ l' (j.run place finished n b).1 := by
  induction n generalizing l j b with
  | zero => exact ⟨l, h⟩
  | succ n ih =>
    rw [Journal.run]
    split
    · next hstep => exact ih (h.snoc hstep) _
    · exact ⟨l, h⟩

end Lives

/-! ## Coming to the end -/

/-- How many steps are left to a journal at most, once its run is finished. -/
def stepsLeft (j : Journal) (b : Broadcaster) : Nat :=
  match j.phase with
  | .starting => (b.queued j.watcher).length + 5
  | .opening => (b.queued j.watcher).length + 4
  | .reading => (b.queued j.watcher).length + 3
  | .draining => (b.queued j.watcher).length + 2
  | .leaving _ => 1
  | .ended _ => 0

section Ending

variable {place : Place} {j : Journal} {b : Broadcaster}

theorem length_queued_receive {id : Nat} {e : Envelope} (h : (b.receive id).1 = some e) :
    ((b.updateBox id (·.receive)).queued id).length + 1 = (b.queued id).length := by
  unfold Broadcaster.queued
  rw [Broadcaster.box?_updateBox, if_pos rfl]
  cases hbox : b.box? id with
  | none =>
    rw [Broadcaster.receive, hbox] at h
    cases h
  | some m =>
    rw [Broadcaster.receive_eq hbox] at h
    rw [Option.map_some, Option.map_some, Option.getD_some, Option.map_some, Option.getD_some,
      Mailbox.items_receive]
    cases hitems : m.items with
    | nil =>
      rw [hitems] at h
      cases h
    | cons => rfl

/-- An envelope that is read brings a journal nearer to its end. -/
theorem Reads.stepsLeft_lt {j' : Journal} (h : Reads j j') {e : Envelope}
    (hreceived : (b.receive j.watcher).1 = some e)
    (hreads : j.phase = .reading ∨ j.phase = .draining) :
    j'.stepsLeft (b.updateBox j.watcher (·.receive)) < j.stepsLeft b := by
  have hlength := length_queued_receive hreceived
  unfold stepsLeft
  rw [h.watcher]
  rcases h.phase with hphase | ⟨exit, hphase⟩ <;> rcases hreads with hreads | hreads <;>
    simp only [hphase, hreads] <;> omega

/-- **Once its run is finished a journal need not wait**, and every step brings it nearer to its
end. -/
theorem step_finished (place : Place) (b : Broadcaster) (h : j.isOver = false) :
    ∃ j' b', j.step place true b = some (j', b') ∧ j'.stepsLeft b' < j.stepsLeft b := by
  unfold step
  cases hphase : j.phase with
  | starting =>
    refine ⟨_, _, rfl, ?_⟩
    cases place.hasDirectory <;> simp [stepsLeft, hphase]
  | opening =>
    refine ⟨_, _, rfl, ?_⟩
    cases place.hasFile <;> simp [stepsLeft, hphase]
  | reading =>
    cases hnext : (b.receive j.watcher).1 with
    | some e =>
      have hreceive : b.receive j.watcher = (some e, b.updateBox j.watcher (·.receive)) :=
        Prod.ext hnext rfl
      rw [hreceive]
      exact ⟨_, _, rfl, (reads_read j e).stepsLeft_lt hnext (Or.inl hphase)⟩
    | none =>
      have hreceive : b.receive j.watcher = (none, b.updateBox j.watcher (·.receive)) :=
        Prod.ext hnext rfl
      rw [hreceive]
      dsimp only
      split
      · exact ⟨_, _, rfl, by simp [stepsLeft, hphase]⟩
      · exact ⟨_, _, rfl, by simp [stepsLeft, hphase]⟩
  | draining =>
    cases hnext : (b.receive j.watcher).1 with
    | some e =>
      have hreceive : b.receive j.watcher = (some e, b.updateBox j.watcher (·.receive)) :=
        Prod.ext hnext rfl
      rw [hreceive]
      exact ⟨_, _, rfl, (reads_readLeft j e).stepsLeft_lt hnext (Or.inr hphase)⟩
    | none =>
      have hreceive : b.receive j.watcher = (none, b.updateBox j.watcher (·.receive)) :=
        Prod.ext hnext rfl
      rw [hreceive]
      exact ⟨_, _, rfl, by simp [stepsLeft, hphase]⟩
  | leaving exit => exact ⟨_, _, rfl, by simp [stepsLeft, hphase]⟩
  | ended exit =>
    rw [isOver, hphase] at h
    cases h

/-- It comes to its end if nobody disturbs it. -/
theorem run_isOver {n : Nat} (hn : j.stepsLeft b ≤ n) :
    (j.run place true n b).1.isOver = true := by
  induction n generalizing j b with
  | zero =>
    refine Decidable.byContradiction fun h => ?_
    obtain ⟨_, _, -, hless⟩ := step_finished place b (Bool.eq_false_iff.mpr h)
    exact Nat.not_lt_zero _ (Nat.lt_of_lt_of_le hless hn)
  | succ n ih =>
    rw [Journal.run]
    split
    · next hstep =>
      obtain ⟨_, _, hstep', hless⟩ := step_finished place b (step_over hstep)
      cases hstep.symm.trans hstep'
      exact ih (by omega)
    · next hstep =>
      refine Decidable.byContradiction fun h => ?_
      obtain ⟨_, _, hstep', -⟩ := step_finished place b (Bool.eq_false_iff.mpr h)
      cases hstep.symm.trans hstep'

end Ending

/-! ## A turn over a whole mailbox -/

/-- What a turn over a mailbox comes to, if there is room for all lines. -/
theorem turn_eq (level : Nat) (finished : Bool) (items : List Envelope) :
    turn level finished none items =
      ⟨(upToEnd items).filter (writes level), finished || items.any (·.event.isTerminal)⟩ := by
  rw [turn, readAll_eq rfl rfl]
  cases items.any (·.event.isTerminal) <;> simp

/-- **A turn over a mailbox is what the journal does by itself**, step by step, with what is in it:
both write the same down, and the journal comes to its end if the turn says so. -/
theorem run_turn {place : Place} {finished : Bool} {n : Nat} {j : Journal} {b : Broadcaster}
    {m : Mailbox Envelope} (hroom : j.room = none) (hphase : j.phase = .reading)
    (hbox : b.box? j.watcher = some m) (hn : m.items.length + 3 ≤ n) :
    (run place finished n j b).1.lines = j.lines ++ (turn j.level finished none m.items).written ∧
      (m.closed = false →
        (run place finished n j b).1.isOver = (turn j.level finished none m.items).ended) := by
  have hended (hopen : m.closed = false) :
      endsOn finished m = (finished || m.items.any (·.event.isTerminal)) := by
    rw [endsOn, hopen, Bool.or_false]
  rw [turn_eq]
  cases hends : endsOn finished m with
  | true =>
    obtain ⟨exit, b', hrun, -⟩ := run_reading hroom hphase hbox hends hn
    rw [hrun]
    exact ⟨rfl, fun hopen => hends.symm.trans (hended hopen)⟩
  | false =>
    have hfits : m.items.length ≤ n := by omega
    obtain ⟨b', hrun⟩ := run_waiting hroom hphase hbox hends hfits
    rw [hrun]
    refine ⟨rfl, fun hopen => ?_⟩
    rw [← hended hopen, hends, isOver, hphase]

/-! ## All of it -/

/-- **What a journal writes down, and how it leaves.** A journal whose file can be made and written
to, and that runs when its run is finished, writes down exactly the envelopes that are queued for it
up to the first that ends the run, as far as its level asks for them, in their order; and it comes
to its end.

It comes to its end as well where its directory cannot be made, or its file not be opened or written
to. And whatever others do meanwhile, and however events and the signal come in: when a journal has
come to its end, the last of its steps took its own watcher off its own subject and changed nothing
else in the register, and all its steps before left the register as it was. -/
theorem written_and_off (level : Nat) (subject : String) (watcher : Nat) :
    (∀ (b : Broadcaster) (m : Mailbox Envelope) (n : Nat), b.box? watcher = some m →
      m.items.length + 5 ≤ n → ∃ exit b',
        run {} true n { level := level, subject := subject, watcher := watcher } b =
          ({ level := level, subject := subject, watcher := watcher, phase := .ended exit
             lines := (upToEnd m.items).filter fun e => levelOf e.event ≤ level }, b') ∧
        b.Without subject watcher b') ∧
    ∀ (place : Place) (room : Option Nat),
      (∀ b n, (b.queued watcher).length + 5 ≤ n →
        (run place true n { level := level, subject := subject, watcher := watcher, room := room }
          b).1.isOver = true) ∧
      ∀ l j, Lives place { level := level, subject := subject, watcher := watcher, room := room }
          l j → j.isOver = true →
        ∃ before last, l = before ++ [last] ∧ (∀ x ∈ before, x.IsQuiet watcher) ∧
          last.found.Without subject watcher last.left := by
  refine ⟨fun b m n hbox hn => ?_, fun place room => ⟨fun b n hn => ?_, fun l j h hover => ?_⟩⟩
  · rw [run_step rfl (by omega), run_step rfl (by omega)]
    exact run_reading rfl rfl hbox rfl (by omega)
  · exact run_isOver hn
  · exact (h.kept rfl).off hover

/-- A run with two watchers was started, took up a node and completed, and something came after
that. -/
def crowd : Broadcaster :=
  let b := ((Broadcaster.ofBuffer 8 8).subscribe "r" []).2
  [.runStarted "r", .nodeStart "a", .runCompleted "r", .nodeStart "b"].foldl
    (fun b event => b.publish "r" event) (b.subscribe "r" []).2

/-- A journal whose file takes one line only. -/
def cramped : Journal := { level := 2, subject := "r", watcher := 2, room := some 1 }

theorem crowd_written :
    (∃ exit b', run {} true 9 { level := 1, subject := "r", watcher := 2 } crowd =
        ({ level := 1, subject := "r", watcher := 2, phase := .ended exit
           lines := [⟨"r", .runStarted "r"⟩, ⟨"r", .runCompleted "r"⟩] }, b') ∧
      crowd.Without "r" 2 b') ∧
    ∃ l j before last, Lives {} cramped l j ∧ j.isOver = true ∧ l = before ++ [last] ∧
      last.found.Without "r" 2 last.left := by
  constructor
  · exact (written_and_off 1 "r" 2).1 crowd _ 9 rfl (by decide)
  · obtain ⟨hends, hleaves⟩ := (written_and_off 2 "r" 2).2 {} (some 1)
    have hover : (run {} true 9 cramped crowd).1.isOver = true := hends crowd 9 (by decide)
    have hlives : ∃ l, Lives {} cramped l (run {} true 9 cramped crowd).1 := Lives.nil.run ..
    obtain ⟨l, hlives⟩ := hlives
    obtain ⟨before, last, hl, -, hoff⟩ := hleaves l _ hlives hover
    exact ⟨l, _, before, last, hlives, hover, hl, hoff⟩

/-- The second line fails, and the event that ends the run is never read. -/
example : (run {} true 9 cramped crowd).1.phase = .ended .failedWrite := by decide

end Journal

end Workflow
