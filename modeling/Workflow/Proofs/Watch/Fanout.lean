import Workflow.Watch.Broadcaster

/-!
# What a watcher hears

A broadcaster walks over lists of watchers that it changes on the way, and forgets a subject
with its last watcher. Seen from one watcher all that comes down to a bounded queue of its own
(`Watcher`), which knows of no other watcher and no other subject: `Holds` says which queue a
broadcaster has of a watcher, and `Holds.after` that each deed does to it what the deed means
for this watcher alone, if it means anything.

So what can be seen of a watcher is a function of its own deeds (`Holds.seen`), and the laws
are laws of the queue. `Life.heard` puts them together: a watcher hears its greeting and then
what is published on its subject until it is removed, except what found its queue full.
-/

namespace Workflow.Broadcaster

/-! ## Histories -/

/-- What can be done with a broadcaster. -/
inductive Deed where
  /-- a watcher comes -/
  | subscribe (subject : String) (greeting : List Event)
  /-- an event is published -/
  | publish (subject : String) (event : Event)
  /-- a watcher reads an envelope, if there is one -/
  | receive (watcher : Nat)
  /-- a watcher is taken off -/
  | unsubscribe (subject : String) (watcher : Nat)
  /-- a watcher drops its reading end -/
  | drop (watcher : Nat)

/-- A broadcaster after a deed. -/
def after (b : Broadcaster) : Deed → Broadcaster
  | .subscribe subject greeting => (b.subscribe subject greeting).2
  | .publish subject event => b.publish subject event
  | .receive id => (b.receive id).2
  | .unsubscribe subject id => (b.unsubscribe subject id).2
  | .drop id => b.drop id

/-- A broadcaster after a row of deeds. -/
def afterAll (b : Broadcaster) (ds : List Deed) : Broadcaster := ds.foldl after b

/-- A deed, and the broadcaster it is done to. -/
structure Moment where
  /-- the broadcaster before -/
  before : Broadcaster
  /-- what is done -/
  deed : Deed

/-- The moments of a row of deeds. -/
def moments (b : Broadcaster) : List Deed → List Moment
  | [] => []
  | d :: rest => ⟨b, d⟩ :: moments (b.after d) rest

/-- What is queued for a watcher. -/
def queued (b : Broadcaster) (id : Nat) : List Envelope := ((b.box? id).map (·.items)).getD []

/-- What a watcher reads at a moment. -/
def Moment.received? (id : Nat) (m : Moment) : Option Envelope :=
  match m.deed with
  | .receive i => if i = id then (m.before.receive id).1 else none
  | _ => none

/-- What a watcher leaves unread when it drops its reading end. -/
def Moment.discarded? (id : Nat) (m : Moment) : Option (List Envelope) :=
  match m.deed with
  | .drop i => if i = id then some (m.before.queued id) else none
  | _ => none

/-- What is published on a subject at a moment at which a watcher has other than `capacity`
envelopes in its queue. -/
def Moment.offered? (subject : String) (id capacity : Nat) (m : Moment) : Option Envelope :=
  match m.deed with
  | .publish s event =>
    if s = subject ∧ (m.before.queued id).length ≠ capacity then some ⟨subject, event⟩ else none
  | _ => none

/-- Whether a deed removes a watcher of a subject. -/
def Deed.removes (subject : String) (id : Nat) : Deed → Bool
  | .unsubscribe s i => s = subject && i = id
  | .drop i => i = id
  | _ => false

/-! ## One watcher on its own -/

/-- A watcher: its mailbox, and whether events are put into it. -/
structure Watcher where
  /-- what is queued -/
  box : Mailbox Envelope
  /-- whether it is in the register -/
  isListed : Bool := true

/-- What can be done to one watcher. -/
inductive Own where
  /-- an event is published on its subject -/
  | publish (event : Event)
  /-- it reads an envelope -/
  | receive
  /-- it is taken off -/
  | unsubscribe
  /-- it drops its reading end -/
  | drop

/-- What a deed means for a watcher of a subject, if anything. -/
def Deed.own? (subject : String) (id : Nat) : Deed → Option Own
  | .subscribe .. => none
  | .publish s event => if s = subject then some (.publish event) else none
  | .receive i => if i = id then some .receive else none
  | .unsubscribe s i => if s = subject ∧ i = id then some .unsubscribe else none
  | .drop i => if i = id then some .drop else none

/-- Whether a watcher is removed. -/
def Own.removes : Own → Bool
  | .unsubscribe | .drop => true
  | _ => false

namespace Watcher

/-- A watcher that is taken off the register. -/
def close (w : Watcher) : Watcher := { box := { w.box with closed := true }, isListed := false }

/-- A watcher after a deed. One whose reading end is gone is found out when something is
published. -/
def after (subject : String) (w : Watcher) : Own → Watcher
  | .publish event =>
    if w.isListed then
      if w.box.dropped then w.close else { w with box := w.box.send ⟨subject, event⟩ }
    else w
  | .receive => { w with box := w.box.receive }
  | .unsubscribe => if w.isListed then w.close else w
  | .drop => { w with box := { w.box with items := [], dropped := true } }

/-- The moments of a watcher. -/
def moments (subject : String) (w : Watcher) : List Own → List (Watcher × Own)
  | [] => []
  | o :: rest => (w, o) :: moments subject (w.after subject o) rest

/-- What a watcher reads at a moment. -/
def received? : Watcher × Own → Option Envelope
  | (w, .receive) => w.box.next?
  | _ => none

/-- What a watcher leaves unread when it drops its reading end. -/
def discarded? : Watcher × Own → Option (List Envelope)
  | (w, .drop) => some w.box.items
  | _ => none

/-- What is published at a moment at which a watcher has other than `capacity` envelopes in its
queue. -/
def offered? (subject : String) (capacity : Nat) : Watcher × Own → Option Envelope
  | (w, .publish event) => if w.box.items.length ≠ capacity then some ⟨subject, event⟩ else none
  | _ => none

end Watcher

/-! ## The register and the mailboxes -/

theorem box?_updateBox (b : Broadcaster) (i id : Nat) (f : Mailbox Envelope → Mailbox Envelope) :
    (b.updateBox i f).box? id = if i = id then (b.box? id).map f else b.box? id := by
  unfold box? updateBox
  dsimp only
  induction b.boxes with
  | nil => split <;> rfl
  | cons x rest ih =>
    obtain ⟨j, m⟩ := x
    rw [List.map_cons]
    by_cases hj : j = id
    · subst hj
      by_cases hi : j = i
      · simp [hi]
      · simp [hi, Ne.symm hi]
    · have hhead : (if j = i then (j, f m) else (j, m)).1 = j := by split <;> rfl
      rw [List.find?_cons_of_neg (by simpa [hhead] using hj), List.find?_cons_of_neg (by simpa using hj)]
      exact ih

theorem box?_updateAll {ids : List Nat} (hd : ids.Nodup) (b : Broadcaster) (id : Nat)
    (f : Mailbox Envelope → Mailbox Envelope) :
    (ids.foldl (fun b i => b.updateBox i f) b).box? id =
      if id ∈ ids then (b.box? id).map f else b.box? id := by
  induction ids generalizing b with
  | nil => rfl
  | cons i rest ih =>
    obtain ⟨hnot, hrest⟩ := List.nodup_cons.mp hd
    rw [List.foldl_cons, ih hrest, box?_updateBox]
    by_cases hi : i = id
    · subst hi
      simp [hnot]
    · simp [hi, Ne.symm hi]

@[simp] theorem watchers_updateBox (b : Broadcaster) (i : Nat)
    (f : Mailbox Envelope → Mailbox Envelope) (subject : String) :
    (b.updateBox i f).watchers subject = b.watchers subject := rfl

@[simp] theorem watchers_updateAll (ids : List Nat) (b : Broadcaster)
    (f : Mailbox Envelope → Mailbox Envelope) (subject : String) :
    (ids.foldl (fun b i => b.updateBox i f) b).watchers subject = b.watchers subject := by
  induction ids generalizing b with
  | nil => rfl
  | cons i rest ih => exact ih (b.updateBox i f)

theorem watchers_setWatchers (b : Broadcaster) (s subject : String) (ids : List Nat) :
    (b.setWatchers s ids).watchers subject = if s = subject then ids else b.watchers subject := by
  unfold watchers setWatchers
  dsimp only
  cases ids with
  | nil =>
    rw [if_pos List.isEmpty_nil, Fields.find?_erase]
    split <;> rfl
  | cons i rest =>
    rw [List.isEmpty_cons, if_neg Bool.false_ne_true, Fields.find?_put]
    split <;> rfl

@[simp] theorem box?_setWatchers (b : Broadcaster) (s : String) (ids : List Nat) (id : Nat) :
    (b.setWatchers s ids).box? id = b.box? id := rfl

theorem updateAll_eq (ids : List Nat) (b : Broadcaster)
    (f : Mailbox Envelope → Mailbox Envelope) :
    ∃ boxes, ids.foldl (fun b i => b.updateBox i f) b = { b with boxes := boxes } := by
  induction ids generalizing b with
  | nil => exact ⟨b.boxes, rfl⟩
  | cons i rest ih =>
    obtain ⟨boxes, heq⟩ := ih (b.updateBox i f)
    exact ⟨boxes, heq⟩

/-! ### Delivering -/

theorem deliver_eq (b : Broadcaster) (s : String) (event : Event) :
    ∃ subjects boxes, b.deliver s event = { b with subjects := subjects, boxes := boxes } := by
  unfold deliver
  obtain ⟨boxes, hsent⟩ := updateAll_eq ((b.watchers s).partition b.isGone).2 b (·.send ⟨s, event⟩)
  obtain ⟨boxes', hclosed⟩ := updateAll_eq ((b.watchers s).partition b.isGone).1
    { b with boxes := boxes } fun m => { m with closed := true }
  dsimp only
  rw [hsent, hclosed]
  split
  · exact ⟨b.subjects, boxes', rfl⟩
  · exact ⟨_, boxes', rfl⟩

/-- Delivering takes those off the register whose reader is gone. -/
theorem watchers_deliver (b : Broadcaster) (s subject : String) (event : Event) :
    (b.deliver s event).watchers subject =
      if s = subject then (b.watchers subject).filter (!b.isGone ·) else b.watchers subject := by
  unfold deliver
  dsimp only
  rw [List.partition_eq_filter_filter]
  dsimp only
  split
  · next hnone =>
    rw [watchers_updateAll, watchers_updateAll]
    split
    · next heq =>
      subst heq
      refine (List.filter_eq_self.mpr fun i hi => ?_).symm
      rw [List.isEmpty_iff, List.filter_eq_nil_iff] at hnone
      simpa using hnone i hi
    · rfl
  · rw [watchers_setWatchers, watchers_updateAll, watchers_updateAll]
    split
    · next heq =>
      rw [heq]
      rfl
    · rfl

/-- Delivering puts an envelope into the mailboxes of those who can read it, and closes the
others. -/
theorem box?_deliver {b : Broadcaster} {s : String} (hd : (b.watchers s).Nodup) (event : Event)
    (id : Nat) :
    (b.deliver s event).box? id =
      if id ∈ b.watchers s then
        (b.box? id).map fun m =>
          if b.isGone id then { m with closed := true } else m.send ⟨s, event⟩
      else b.box? id := by
  have hboth : ∀ p : Nat → Bool, ((b.watchers s).filter p).Nodup := fun p =>
    hd.sublist List.filter_sublist
  have hkept : (b.deliver s event).box? id =
      (((b.watchers s).partition b.isGone).1.foldl
        (fun b i => b.updateBox i fun m => { m with closed := true })
        (((b.watchers s).partition b.isGone).2.foldl
          (fun b i => b.updateBox i (·.send ⟨s, event⟩)) b)).box? id := by
    unfold deliver
    dsimp only
    split
    · rfl
    · rfl
  rw [hkept, List.partition_eq_filter_filter, box?_updateAll (hboth _), box?_updateAll (hboth _)]
  by_cases hmem : id ∈ b.watchers s
  · by_cases hgone : b.isGone id = true <;> simp [hmem, hgone]
  · simp [hmem]

/-! ## Tidiness -/

/-- No watcher is registered twice for a subject, and the numbers of watchers to come are free. -/
structure Tidy (b : Broadcaster) : Prop where
  /-- nobody is registered twice -/
  distinct : ∀ subject, (b.watchers subject).Nodup
  /-- who is registered has a number that was given -/
  below : ∀ {subject id}, id ∈ b.watchers subject → id < b.nextId
  /-- who has a mailbox has a number that was given -/
  boxed : ∀ {id m}, b.box? id = some m → id < b.nextId

theorem tidy_ofBuffer (buffer busCapacity : Nat) : (ofBuffer buffer busCapacity).Tidy where
  distinct := fun _ => List.nodup_nil
  below := nofun
  boxed := nofun

theorem Tidy.updateBox {b : Broadcaster} (ht : b.Tidy) (i : Nat)
    (f : Mailbox Envelope → Mailbox Envelope) : (b.updateBox i f).Tidy where
  distinct := ht.distinct
  below := ht.below
  boxed := by
    intro id m hm
    rw [box?_updateBox] at hm
    split at hm
    · obtain ⟨m', hm', -⟩ := Option.map_eq_some_iff.mp hm
      exact ht.boxed hm'
    · exact ht.boxed hm

theorem Tidy.setWatchers {b : Broadcaster} (ht : b.Tidy) (s : String) {ids : List Nat}
    (hd : ids.Nodup) (hb : ∀ i ∈ ids, i < b.nextId) : (b.setWatchers s ids).Tidy where
  distinct := by
    intro subject
    rw [watchers_setWatchers]
    split
    · exact hd
    · exact ht.distinct subject
  below := by
    intro subject id hid
    rw [watchers_setWatchers] at hid
    split at hid
    · exact hb id hid
    · exact ht.below hid
  boxed := ht.boxed

/-- The mailboxes after a watcher came. -/
theorem box?_subscribe {b : Broadcaster} (ht : b.Tidy) (s : String) (greeting : List Event)
    (id : Nat) :
    (b.subscribe s greeting).2.box? id =
      if id = b.nextId then
        some { capacity := max b.buffer greeting.length, items := greeting.map (⟨s, ·⟩) }
      else b.box? id := by
  change ((b.boxes ++ [_]).find? _).map Prod.snd = _
  rw [List.find?_append]
  by_cases hid : id = b.nextId
  · subst hid
    have hfree : b.boxes.find? (fun x => decide (x.1 = b.nextId)) = none := by
      cases hfound : b.boxes.find? fun x => decide (x.1 = b.nextId) with
      | none => rfl
      | some x => exact absurd (ht.boxed (congrArg (Option.map Prod.snd) hfound)) (Nat.lt_irrefl _)
    rw [hfree]
    simp
  · rw [if_neg hid, List.find?_singleton, if_neg (by simpa using Ne.symm hid), Option.or_none]
    rfl

theorem watchers_subscribe (b : Broadcaster) (s : String) (greeting : List Event)
    (subject : String) :
    (b.subscribe s greeting).2.watchers subject =
      if s = subject then b.watchers s ++ [b.nextId] else b.watchers subject :=
  watchers_setWatchers ..

theorem Tidy.subscribe {b : Broadcaster} (ht : b.Tidy) (s : String) (greeting : List Event) :
    (b.subscribe s greeting).2.Tidy where
  distinct := by
    intro subject
    rw [watchers_subscribe]
    split
    · rw [List.nodup_append]
      refine ⟨ht.distinct s, List.pairwise_singleton _ _, ?_⟩
      rintro i hi j hj rfl
      obtain rfl := List.mem_singleton.mp hj
      exact Nat.lt_irrefl _ (ht.below hi)
    · exact ht.distinct subject
  below := by
    intro subject id hid
    rw [watchers_subscribe] at hid
    split at hid
    · rcases List.mem_append.mp hid with hid | hid
      · exact Nat.lt_succ_of_lt (ht.below hid)
      · obtain rfl := List.mem_singleton.mp hid
        exact Nat.lt_succ_self _
    · exact Nat.lt_succ_of_lt (ht.below hid)
  boxed := by
    intro id m hm
    rw [box?_subscribe ht] at hm
    split at hm
    · next heq => exact heq ▸ Nat.lt_succ_self _
    · exact Nat.lt_succ_of_lt (ht.boxed hm)

theorem Tidy.deliver {b : Broadcaster} (ht : b.Tidy) (s : String) (event : Event) :
    (b.deliver s event).Tidy := by
  have hnext : (b.deliver s event).nextId = b.nextId := by
    obtain ⟨_, _, heq⟩ := b.deliver_eq s event
    rw [heq]
  constructor
  · intro subject
    rw [watchers_deliver]
    split
    · exact (ht.distinct subject).sublist List.filter_sublist
    · exact ht.distinct subject
  · intro subject id hid
    rw [watchers_deliver] at hid
    rw [hnext]
    split at hid
    · exact ht.below (List.mem_filter.mp hid).1
    · exact ht.below hid
  · intro id m hm
    rw [box?_deliver (ht.distinct s)] at hm
    rw [hnext]
    split at hm
    · obtain ⟨m', hm', -⟩ := Option.map_eq_some_iff.mp hm
      exact ht.boxed hm'
    · exact ht.boxed hm

/-- Every deed leaves a broadcaster tidy. -/
theorem Tidy.after {b : Broadcaster} (ht : b.Tidy) (d : Deed) : (b.after d).Tidy := by
  cases d with
  | subscribe s greeting => exact ht.subscribe s greeting
  | publish s event =>
    have hd := ht.deliver s event
    exact ⟨hd.distinct, hd.below, hd.boxed⟩
  | receive i => exact ht.updateBox i _
  | unsubscribe s i =>
    rw [Broadcaster.after, unsubscribe]
    split
    · refine Tidy.updateBox (ht.setWatchers s ?_ ?_) i fun m => { m with closed := true }
      · exact (ht.distinct s).sublist List.filter_sublist
      · exact fun j hj => ht.below (List.mem_filter.mp hj).1
    · exact ht
  | drop i => exact ht.updateBox i fun m => { m with items := [], dropped := true }

/-! ## A broadcaster holds a watcher -/

/-- What a broadcaster has of a watcher of a subject. -/
structure Holds (b : Broadcaster) (subject : String) (id : Nat) (w : Watcher) : Prop where
  /-- its mailbox -/
  box : b.box? id = some w.box
  /-- its place in the register -/
  listed : id ∈ b.watchers subject ↔ w.isListed = true
  /-- and no other place -/
  elsewhere : ∀ s, s ≠ subject → id ∉ b.watchers s

variable {b : Broadcaster} {subject : String} {id : Nat} {w : Watcher}

/-- A watcher that has come is held. -/
theorem Tidy.holds (ht : b.Tidy) (subject : String) (greeting : List Event) :
    Holds (b.subscribe subject greeting).2 subject b.nextId
      { box := { capacity := max b.buffer greeting.length
                 items := greeting.map (⟨subject, ·⟩) } } where
  box := (box?_subscribe ht ..).trans (if_pos rfl)
  listed := by
    rw [watchers_subscribe, if_pos rfl]
    simp
  elsewhere := by
    intro s hs hmem
    rw [watchers_subscribe, if_neg (Ne.symm hs)] at hmem
    exact Nat.lt_irrefl _ (ht.below hmem)

theorem Holds.isGone (h : Holds b subject id w) : b.isGone id = w.box.dropped := by
  rw [Broadcaster.isGone, h.box]
  rfl

theorem Holds.queued (h : Holds b subject id w) : b.queued id = w.box.items := by
  rw [Broadcaster.queued, h.box]
  rfl

/-- Changing a mailbox changes the watcher whose it is. -/
theorem Holds.updateBox (h : Holds b subject id w) (i : Nat)
    (f : Mailbox Envelope → Mailbox Envelope) :
    Holds (b.updateBox i f) subject id (if i = id then { w with box := f w.box } else w) where
  box := by
    rw [box?_updateBox, h.box]
    split <;> rfl
  listed := by
    split <;> exact h.listed
  elsewhere := h.elsewhere

theorem Holds.subscribe (ht : b.Tidy) (h : Holds b subject id w) (s : String)
    (greeting : List Event) : Holds (b.subscribe s greeting).2 subject id w := by
  have hne : id ≠ b.nextId := Nat.ne_of_lt (ht.boxed h.box)
  have hsame : ∀ t, id ∈ (b.subscribe s greeting).2.watchers t ↔ id ∈ b.watchers t := by
    intro t
    rw [watchers_subscribe]
    split
    · next heq => simp [hne, heq]
    · exact Iff.rfl
  constructor
  · rw [box?_subscribe ht, if_neg hne]
    exact h.box
  · rw [hsame]
    exact h.listed
  · intro t hne'
    rw [hsame]
    exact h.elsewhere t hne'

theorem Holds.unsubscribe (h : Holds b subject id w) (s : String) (i : Nat) :
    Holds (b.unsubscribe s i).2 subject id
      (if s = subject ∧ i = id then w.after subject .unsubscribe else w) := by
  rw [Broadcaster.unsubscribe]
  by_cases hin : i ∈ b.watchers s
  · rw [if_pos (List.contains_iff_mem.mpr hin)]
    have hsame : ∀ t, id ∈ ((b.setWatchers s ((b.watchers s).filter (· ≠ i))).updateBox i
        fun m => { m with closed := true }).watchers t ↔
          id ∈ b.watchers t ∧ ¬(s = t ∧ i = id) := by
      intro t
      rw [watchers_updateBox, watchers_setWatchers]
      split
      · next heq =>
        subst heq
        rw [List.mem_filter, decide_eq_true_iff]
        simp only [true_and]
        exact and_congr_right fun _ => ne_comm
      · next hne => simp [hne]
    refine ⟨?_, ?_, fun t hne hmem => h.elsewhere t hne ((hsame t).mp hmem).1⟩
    · rw [box?_updateBox, box?_setWatchers, h.box]
      by_cases hi : i = id
      · subst hi
        have hs : s = subject := by
          refine Classical.byContradiction fun hne => ?_
          exact h.elsewhere s hne hin
        subst hs
        rw [if_pos rfl, if_pos ⟨rfl, rfl⟩, Watcher.after, if_pos (h.listed.mp hin)]
        rfl
      · rw [if_neg hi, if_neg fun hboth => hi hboth.2]
    · rw [hsame, h.listed]
      split
      · next hboth =>
        rw [Watcher.after]
        split <;> simp_all [Watcher.close]
      · next hnot => simp [hnot]
  · rw [if_neg fun hc => hin (List.contains_iff_mem.mp hc)]
    split
    · next hboth =>
      obtain ⟨rfl, rfl⟩ := hboth
      have hnot : w.isListed ≠ true := fun hl => hin (h.listed.mpr hl)
      rw [Watcher.after, if_neg hnot]
      exact h
    · exact h

theorem Holds.publish (ht : b.Tidy) (h : Holds b subject id w) (s : String) (event : Event) :
    Holds (b.publish s event) subject id
      (if s = subject then w.after subject (.publish event) else w) := by
  suffices hd : Holds (b.deliver s event) subject id
      (if s = subject then w.after subject (.publish event) else w) from
    ⟨hd.box, hd.listed, hd.elsewhere⟩
  by_cases hs : s = subject
  · subst hs
    rw [if_pos rfl]
    have helse : ∀ t, t ≠ s → id ∉ (b.deliver s event).watchers t := by
      intro t hne hmem
      rw [watchers_deliver, if_neg (Ne.symm hne)] at hmem
      exact h.elsewhere t hne hmem
    have hbox := box?_deliver (ht.distinct s) event id
    have hlisted : id ∈ (b.deliver s event).watchers s ↔
        w.isListed = true ∧ w.box.dropped = false := by
      rw [watchers_deliver, if_pos rfl, List.mem_filter, h.listed, h.isGone]
      simp
    rw [h.box, h.isGone] at hbox
    rw [Watcher.after]
    by_cases hl : w.isListed = true
    · rw [if_pos (h.listed.mpr hl)] at hbox
      rw [if_pos hl]
      by_cases hgone : w.box.dropped = true
      · rw [if_pos hgone]
        refine ⟨hbox.trans ?_, ?_, helse⟩
        · simp [hgone, Watcher.close]
        · rw [hlisted, hgone]
          simp [Watcher.close]
      · rw [if_neg hgone]
        refine ⟨hbox.trans ?_, ?_, helse⟩
        · simp [hgone]
        · rw [hlisted]
          simp [hl, hgone]
    · rw [if_neg fun hin => hl (h.listed.mp hin)] at hbox
      rw [if_neg hl]
      refine ⟨hbox, ?_, helse⟩
      rw [hlisted]
      simp [hl]
  · rw [if_neg hs]
    have hsame : ∀ t, id ∈ (b.deliver s event).watchers t ↔ id ∈ b.watchers t := by
      intro t
      rw [watchers_deliver]
      split
      · next heq =>
        have hnot := h.elsewhere t (heq ▸ hs)
        simp [hnot]
      · exact Iff.rfl
    refine ⟨?_, ?_, ?_⟩
    · rw [box?_deliver (ht.distinct s), if_neg (h.elsewhere s hs)]
      exact h.box
    · rw [hsame]
      exact h.listed
    · intro t hne
      rw [hsame]
      exact h.elsewhere t hne

/-- **A step**: each deed does to a watcher what it means for this watcher alone. -/
theorem Holds.after (ht : b.Tidy) (h : Holds b subject id w) (d : Deed) :
    Holds (b.after d) subject id (((d.own? subject id).map (w.after subject)).getD w) := by
  cases d with
  | subscribe s greeting => exact h.subscribe ht s greeting
  | publish s event =>
    have hp := h.publish ht s event
    rw [Deed.own?]
    split <;> simp_all [Broadcaster.after]
  | receive i =>
    have hu := h.updateBox i (·.receive)
    rw [Deed.own?]
    split <;> simp_all [Broadcaster.after, receive, Watcher.after]
  | unsubscribe s i =>
    have hu := h.unsubscribe s i
    rw [Deed.own?]
    split <;> simp_all [Broadcaster.after]
  | drop i =>
    have hu := h.updateBox i fun m => { m with items := [], dropped := true }
    rw [Deed.own?]
    split <;> simp_all [Broadcaster.after, Broadcaster.drop, Watcher.after]

/-- What can be seen of a watcher at the moments of a row of deeds is what can be seen of it at
the moments of its own deeds. -/
theorem Holds.seen {α : Type} {f : Moment → Option α} {g : Watcher × Own → Option α}
    (hf : ∀ b w d, Holds b subject id w → f ⟨b, d⟩ = (d.own? subject id).bind fun o => g (w, o))
    (ht : b.Tidy) (h : Holds b subject id w) (ds : List Deed) :
    (b.moments ds).filterMap f =
      (w.moments subject (ds.filterMap (Deed.own? subject id))).filterMap g := by
  induction ds generalizing b w with
  | nil => rfl
  | cons d rest ih =>
    have hrest := ih (ht.after d) (h.after ht d)
    have hd := hf b w d h
    rw [moments, List.filterMap_cons, hd]
    cases hown : d.own? subject id with
    | none =>
      rw [hown] at hrest
      rw [List.filterMap_cons_none hown]
      exact hrest
    | some o =>
      rw [hown] at hrest
      rw [List.filterMap_cons_some hown, Watcher.moments, List.filterMap_cons, Option.bind_some,
        hrest]
      rfl

/-- What a broadcaster has of a watcher in the end. -/
theorem Holds.afterAll (ht : b.Tidy) (h : Holds b subject id w) (ds : List Deed) :
    Holds (b.afterAll ds) subject id
      ((ds.filterMap (Deed.own? subject id)).foldl (Watcher.after subject) w) := by
  induction ds generalizing b w with
  | nil => exact h
  | cons d rest ih =>
    have hrest := ih (ht.after d) (h.after ht d)
    rw [List.filterMap_cons]
    cases hown : d.own? subject id with
    | none =>
      rw [hown] at hrest
      exact hrest
    | some o =>
      rw [hown] at hrest
      exact hrest

theorem removes_own (subject : String) (id : Nat) (d : Deed) :
    d.removes subject id = ((d.own? subject id).map Own.removes).getD false := by
  cases d with
  | subscribe s greeting => rfl
  | publish s event =>
    rw [Deed.own?]
    split <;> rfl
  | receive i =>
    rw [Deed.own?]
    split <;> rfl
  | unsubscribe s i =>
    rw [Deed.removes, Deed.own?]
    by_cases hs : s = subject <;> by_cases hi : i = id <;> simp [hs, hi, Own.removes]
  | drop i =>
    rw [Deed.removes, Deed.own?]
    by_cases hi : i = id <;> simp [hi, Own.removes]

/-- The deeds before a removal. -/
theorem own_before_removal (subject : String) (id : Nat) (ds : List Deed) :
    (ds.takeWhile (!·.removes subject id)).filterMap (Deed.own? subject id) =
      (ds.filterMap (Deed.own? subject id)).takeWhile (!·.removes) := by
  induction ds with
  | nil => rfl
  | cons d rest ih =>
    have hd := removes_own subject id d
    cases hown : d.own? subject id with
    | none =>
      rw [hown] at hd
      rw [List.takeWhile_cons_of_pos (by rw [hd]; rfl), List.filterMap_cons_none hown,
        List.filterMap_cons_none hown, ih]
    | some o =>
      rw [hown, Option.map_some, Option.getD_some] at hd
      rw [List.filterMap_cons_some hown]
      cases ho : o.removes with
      | true =>
        rw [List.takeWhile_cons_of_neg (by simp [hd, ho]),
          List.takeWhile_cons_of_neg (by simp [ho])]
        rfl
      | false =>
        rw [List.takeWhile_cons_of_pos (by simp [hd, ho]),
          List.takeWhile_cons_of_pos (by simp [ho]), List.filterMap_cons_some hown, ih]

/-! ## The laws of the queue -/

namespace Watcher

/-- What a watcher reads, what it discards and what is queued for it in the end. -/
def account (subject : String) (w : Watcher) (os : List Own) : List Envelope :=
  (w.moments subject os).filterMap received? ++
    ((w.moments subject os).filterMap discarded?).flatten ++
      (os.foldl (after subject) w).box.items

theorem account_publish (w : Watcher) (event : Event) (rest : List Own) :
    account subject w (.publish event :: rest) =
      account subject (w.after subject (.publish event)) rest := rfl

theorem account_unsubscribe (w : Watcher) (rest : List Own) :
    account subject w (.unsubscribe :: rest) =
      account subject (w.after subject .unsubscribe) rest := rfl

/-- What is read is the head of the queue. -/
theorem items_eq_read (subject : String) (w : Watcher) :
    w.box.items = (received? (w, .receive)).toList ++ (w.after subject .receive).box.items := by
  rw [received?, Mailbox.next?, after, Mailbox.items_receive]
  cases w.box.items <;> rfl

theorem account_receive (w : Watcher) (rest : List Own) :
    account subject w (.receive :: rest) =
      (received? (w, .receive)).toList ++ account subject (w.after subject .receive) rest := by
  rw [account, account, moments, List.filterMap_cons,
    List.filterMap_cons_none (f := discarded?) rfl]
  cases received? (w, .receive) <;> rfl

/-- Who drops its reading end discards all that is queued, and nothing is left to be read or
discarded after that. -/
theorem account_drop {w : Watcher} {rest : List Own}
    (hrest : (w.after subject .drop).box.items = account subject (w.after subject .drop) rest) :
    w.box.items = account subject w (.drop :: rest) := by
  have hempty : (w.after subject .drop).box.items = [] := rfl
  rw [hempty, account] at hrest
  obtain ⟨hboth, hqueue⟩ := List.append_eq_nil_iff.mp hrest.symm
  obtain ⟨hread, hleft⟩ := List.append_eq_nil_iff.mp hboth
  rw [account, moments, List.foldl_cons, List.filterMap_cons_none (f := received?) rfl,
    List.filterMap_cons_some (f := discarded?) rfl, List.flatten_cons, hread, hleft, hqueue]
  simp

/-- A watcher that gets nothing any more reads or discards what is queued. -/
theorem read_out (subject : String) {w : Watcher}
    (hw : w.isListed = false ∨ w.box.dropped = true) (os : List Own) :
    w.box.items = account subject w os := by
  induction os generalizing w with
  | nil => rfl
  | cons o rest ih =>
    cases o with
    | publish event =>
      have hnext : w.after subject (.publish event) = w ∨
          w.after subject (.publish event) = w.close := by
        rcases hw with hl | hr
        · exact Or.inl (if_neg (Bool.eq_false_iff.mp hl))
        · cases hl : w.isListed with
          | true => exact Or.inr ((if_pos hl).trans (if_pos hr))
          | false => exact Or.inl (if_neg (Bool.eq_false_iff.mp hl))
      rw [account_publish]
      rcases hnext with heq | heq
      · rw [heq]
        exact ih hw
      · rw [heq]
        exact ih (w := w.close) (Or.inl rfl)
    | receive =>
      rw [account_receive, items_eq_read subject w]
      exact congrArg (_ ++ ·) (ih (w := w.after subject .receive) hw)
    | unsubscribe =>
      rw [account_unsubscribe]
      cases hl : w.isListed with
      | true =>
        rw [show w.after subject .unsubscribe = w.close from if_pos hl]
        exact ih (w := w.close) (Or.inl rfl)
      | false =>
        rw [show w.after subject .unsubscribe = w from if_neg (Bool.eq_false_iff.mp hl)]
        exact ih hw
    | drop => exact account_drop (ih (Or.inr rfl))

/-- A watcher that can be reached gets what is published unless its queue is full. -/
theorem items_publish (subject : String) {w : Watcher} (hl : w.isListed = true) (hr : w.box.dropped = false)
    (hroom : w.box.items.length ≤ w.box.capacity) (event : Event) :
    (w.after subject (.publish event)).box.items =
      w.box.items ++ (offered? subject w.box.capacity (w, .publish event)).toList := by
  rw [after, if_pos hl, if_neg (Bool.eq_false_iff.mp hr), Mailbox.items_send, Mailbox.outcome,
    if_neg (Bool.eq_false_iff.mp hr), offered?]
  by_cases hfull : w.box.items.length = w.box.capacity
  · simp [hfull]
  · have hlt : w.box.items.length < w.box.capacity := Nat.lt_of_le_of_ne hroom hfull
    simp [hfull, hlt]

/-- **Nothing is lost or made up**: what is queued, and then what is published before the watcher
is removed unless the queue is full, is read or discarded or queued in the end. -/
theorem conserved (subject : String) {w : Watcher} (hl : w.isListed = true) (hr : w.box.dropped = false)
    (hroom : w.box.items.length ≤ w.box.capacity) (os : List Own) :
    w.box.items ++ (w.moments subject (os.takeWhile (!·.removes))).filterMap
        (offered? subject w.box.capacity) = account subject w os := by
  induction os generalizing w with
  | nil => exact List.append_nil _
  | cons o rest ih =>
    cases o with
    | publish event =>
      have hitems := items_publish subject hl hr hroom event
      have hsend : w.after subject (.publish event) =
          { w with box := w.box.send ⟨subject, event⟩ } := by
        rw [after, if_pos hl, if_neg (Bool.eq_false_iff.mp hr)]
      have hdropped : (w.after subject (.publish event)).box.dropped = false := by
        rw [hsend, Mailbox.send]
        cases w.box.outcome <;> exact hr
      have hcapacity : (w.after subject (.publish event)).box.capacity = w.box.capacity := by
        rw [hsend, Mailbox.capacity_send]
      have hsmall : (w.after subject (.publish event)).box.items.length ≤ w.box.capacity := by
        rw [hitems, offered?]
        by_cases hfull : w.box.items.length = w.box.capacity
        · simp [hfull]
        · rw [if_pos hfull, List.length_append]
          exact Nat.lt_of_le_of_ne hroom hfull
      have hrest := ih (by rw [hsend]; exact hl) hdropped (by rw [hcapacity]; exact hsmall)
      rw [hcapacity, hitems, List.append_assoc] at hrest
      rw [List.takeWhile_cons_of_pos rfl, account_publish, ← hrest, moments, List.filterMap_cons]
      cases offered? subject w.box.capacity (w, .publish event) <;> rfl
    | receive =>
      have hsmall : (w.after subject .receive).box.items.length ≤ w.box.capacity := by
        rw [after, Mailbox.items_receive, List.length_tail]
        omega
      have hrest := ih (w := w.after subject .receive) hl hr hsmall
      rw [List.takeWhile_cons_of_pos rfl, account_receive, ← hrest,
        items_eq_read subject w, List.append_assoc]
      rfl
    | unsubscribe =>
      have hout := read_out subject (w := w.close) (Or.inl rfl) rest
      rw [List.takeWhile_cons_of_neg (by decide), account_unsubscribe,
        show w.after subject .unsubscribe = w.close from if_pos hl, ← hout]
      exact List.append_nil _
    | drop =>
      rw [List.takeWhile_cons_of_neg (by decide)]
      exact (List.append_nil _).trans (account_drop (read_out subject (Or.inr rfl) rest))

end Watcher

/-! ## The life of a watcher -/

theorem buffer_after (b : Broadcaster) (d : Deed) : (b.after d).buffer = b.buffer := by
  cases d with
  | publish s event =>
    obtain ⟨_, _, heq⟩ := b.deliver_eq s event
    rw [Broadcaster.after, publish, heq]
    rfl
  | unsubscribe s i =>
    rw [Broadcaster.after, unsubscribe]
    split <;> rfl
  | subscribe | receive | drop => rfl

theorem tidy_afterAll (ht : b.Tidy) (ds : List Deed) :
    (b.afterAll ds).Tidy ∧ (b.afterAll ds).buffer = b.buffer := by
  induction ds generalizing b with
  | nil => exact ⟨ht, rfl⟩
  | cons d rest ih =>
    obtain ⟨htidy, hbuffer⟩ := ih (ht.after d)
    exact ⟨htidy, hbuffer.trans (b.buffer_after d)⟩

theorem deed_mem_of_mem_moments {ds : List Deed} {m : Moment} (hm : m ∈ b.moments ds) :
    m.deed ∈ ds := by
  induction ds generalizing b with
  | nil => exact absurd hm List.not_mem_nil
  | cons d rest ih =>
    rcases List.mem_cons.mp hm with rfl | hm
    · exact List.mem_cons_self
    · exact List.mem_cons_of_mem d (ih hm)

/-- A watcher, and all that is done with its broadcaster. -/
structure Life where
  /-- how many envelopes the broadcaster keeps for a watcher -/
  buffer : Nat
  /-- how many envelopes its bus keeps -/
  busCapacity : Nat
  /-- what is done before the watcher comes -/
  earlier : List Deed
  /-- the subject it watches -/
  subject : String
  /-- what it is greeted with -/
  greeting : List Event
  /-- what is done after it came -/
  later : List Deed

namespace Life

variable (l : Life)

/-- The broadcaster before the watcher comes. -/
def before : Broadcaster := (ofBuffer l.buffer l.busCapacity).afterAll l.earlier

/-- The watcher. -/
def watcher : Nat := (l.before.subscribe l.subject l.greeting).1

/-- The broadcaster when the watcher has come. -/
def start : Broadcaster := (l.before.subscribe l.subject l.greeting).2

/-- How many envelopes are kept for the watcher. -/
def capacity : Nat := max (max l.buffer l.greeting.length) 1

/-- What the watcher reads. -/
def received : List Envelope := (l.start.moments l.later).filterMap (Moment.received? l.watcher)

/-- What the watcher leaves unread when it drops its reading end. -/
def discarded : List Envelope :=
  ((l.start.moments l.later).filterMap (Moment.discarded? l.watcher)).flatten

/-- What is queued for the watcher in the end. -/
def queued : List Envelope := (l.start.afterAll l.later).queued l.watcher

/-- What is published on the watcher's subject before it is removed, without what finds its
queue full. -/
def offered : List Envelope :=
  (l.start.moments (l.later.takeWhile (!·.removes l.subject l.watcher))).filterMap
    (Moment.offered? l.subject l.watcher l.capacity)

/-- What is done to the watcher, or published on its subject. -/
def own : List Own := l.later.filterMap (Deed.own? l.subject l.watcher)

/-- The watcher when it has come. -/
def newcomer : Watcher :=
  { box := { capacity := l.capacity, items := l.greeting.map (⟨l.subject, ·⟩) } }

theorem holds : l.start.Tidy ∧ Holds l.start l.subject l.watcher l.newcomer := by
  obtain ⟨ht, hbuffer⟩ := tidy_afterAll (tidy_ofBuffer l.buffer l.busCapacity) l.earlier
  have hcapacity : max l.before.buffer l.greeting.length = l.capacity := by
    rw [before, hbuffer, capacity]
    exact Nat.max_right_comm ..
  have hh := ht.holds l.subject l.greeting
  rw [show (afterAll _ l.earlier).buffer = l.before.buffer from rfl, hcapacity] at hh
  exact ⟨ht.subscribe l.subject l.greeting, hh⟩

theorem received_eq :
    l.received = (l.newcomer.moments l.subject l.own).filterMap Watcher.received? := by
  refine l.holds.2.seen (fun b w d h => ?_) l.holds.1 l.later
  cases d with
  | receive i =>
    rw [Moment.received?, Deed.own?]
    dsimp only
    split
    · rw [receive, h.box]
      rfl
    · rfl
  | subscribe => rfl
  | publish | unsubscribe | drop =>
    rw [Deed.own?]
    split <;> rfl

theorem discarded_eq :
    l.discarded = ((l.newcomer.moments l.subject l.own).filterMap Watcher.discarded?).flatten := by
  refine congrArg List.flatten (l.holds.2.seen (fun b w d h => ?_) l.holds.1 l.later)
  cases d with
  | drop i =>
    rw [Moment.discarded?, Deed.own?]
    dsimp only
    split
    · rw [h.queued]
      rfl
    · rfl
  | subscribe => rfl
  | publish | unsubscribe | receive =>
    rw [Deed.own?]
    split <;> rfl

theorem queued_eq :
    l.queued = (l.own.foldl (Watcher.after l.subject) l.newcomer).box.items :=
  (l.holds.2.afterAll l.holds.1 l.later).queued

theorem offered_eq :
    l.offered = (l.newcomer.moments l.subject (l.own.takeWhile (!·.removes))).filterMap
      (Watcher.offered? l.subject l.capacity) := by
  rw [own, ← own_before_removal]
  refine l.holds.2.seen (fun b w d h => ?_) l.holds.1 _
  cases d with
  | publish s event =>
    rw [Moment.offered?, Deed.own?]
    dsimp only
    rw [h.queued]
    by_cases hs : s = l.subject
    · simp only [hs, true_and, if_true, Option.bind_some, Watcher.offered?]
    · simp only [hs, false_and, if_false, Option.bind_none]
  | subscribe => rfl
  | receive | unsubscribe | drop =>
    rw [Deed.own?]
    split <;> rfl

/-- **What a watcher hears**: its greeting and then what is published on its subject until it is
removed, in that order, except what finds its queue full. All of that it reads or has in its
queue, unless it drops its reading end, with what is unread. None of it depends on what is done
to other watchers or published on other subjects. -/
theorem heard :
    l.received ++ l.discarded ++ l.queued =
        l.greeting.map (⟨l.subject, ·⟩) ++ l.offered ∧
      (.drop l.watcher ∉ l.later → l.discarded = []) ∧
      ∀ l' : Life, l'.buffer = l.buffer → l'.subject = l.subject → l'.greeting = l.greeting →
        l'.own = l.own → l'.received = l.received ∧ l'.discarded = l.discarded ∧
          l'.queued = l.queued ∧ l'.offered = l.offered := by
  refine ⟨?_, fun hkept => ?_, fun l' hbuffer hsubject hgreeting hown => ?_⟩
  · have hall := Watcher.conserved l.subject (w := l.newcomer) rfl rfl
      (by simp only [newcomer, List.length_map, capacity]; omega) l.own
    rw [received_eq, discarded_eq, queued_eq, offered_eq]
    exact hall.symm
  · have hnone : (l.start.moments l.later).filterMap (Moment.discarded? l.watcher) = [] := by
      refine List.filterMap_eq_nil_iff.mpr fun m hm => ?_
      have hdeed := deed_mem_of_mem_moments hm
      obtain ⟨b, d⟩ := m
      cases d with
      | drop i =>
        refine if_neg fun hi => hkept ?_
        rw [← hi]
        exact hdeed
      | subscribe | publish | receive | unsubscribe => rfl
    rw [discarded, hnone]
    rfl
  · have hcapacity : l'.capacity = l.capacity := by rw [capacity, capacity, hbuffer, hgreeting]
    have hcome : l'.newcomer = l.newcomer := by
      rw [newcomer, newcomer, hcapacity, hgreeting, hsubject]
    rw [received_eq, received_eq, discarded_eq, discarded_eq, queued_eq, queued_eq, offered_eq,
      offered_eq, hcome, hown, hsubject, hcapacity]
    exact ⟨rfl, rfl, rfl, rfl⟩

/-- A watcher of one subject among others, whose queue of two runs full. -/
def crowded : Life where
  buffer := 2
  busCapacity := 4
  earlier := [.subscribe "q" [], .subscribe "p" []]
  subject := "p"
  greeting := [.runStarted "r"]
  later := [.publish "q" .workflowComplete, .publish "p" (.nodeStart "a"), .receive 1,
    .publish "p" (.nodeStart "b"), .drop 2, .receive 3, .publish "p" (.nodeStart "c"),
    .unsubscribe "p" 3, .publish "p" (.nodeStart "d")]

/-- The same watcher without the others. -/
def alone : Life where
  buffer := 2
  busCapacity := 8
  earlier := []
  subject := "p"
  greeting := [.runStarted "r"]
  later := [.publish "p" (.nodeStart "a"), .publish "p" (.nodeStart "b"), .receive 1,
    .publish "p" (.nodeStart "c"), .unsubscribe "p" 1, .publish "p" (.nodeStart "d")]

theorem crowded_hears_as_alone :
    crowded.received = [⟨"p", .runStarted "r"⟩] ∧ crowded.discarded = [] ∧
      crowded.queued = [⟨"p", .nodeStart "a"⟩, ⟨"p", .nodeStart "c"⟩] ∧
      crowded.offered = [⟨"p", .nodeStart "a"⟩, ⟨"p", .nodeStart "c"⟩] ∧
      alone.received = crowded.received ∧ alone.queued = crowded.queued := by
  have hsame := crowded.heard.2.2 alone rfl rfl rfl rfl
  have hkept : .drop crowded.watcher ∉ crowded.later := by
    rw [show crowded.watcher = 3 from rfl, crowded]
    simp
  exact ⟨rfl, crowded.heard.2.1 hkept, rfl, rfl, hsame.1, hsame.2.2.1⟩

end Life

end Workflow.Broadcaster
