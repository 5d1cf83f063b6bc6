import BehaviorScript.Message.Bus
import Mathlib.Data.List.Basic
import Mathlib.Data.Nat.ModEq

/-!
# The message bus is a queue

Seen from outside, a bus is a list of messages with a bound on its length: a message is put
at the end unless the list is full, and taken from the front.  The slots, the place where the
oldest message is, and whatever receivers leave in the envelopes they were handed do not show.

Requests to a bus are served one after another.  The waiting messages are followed through
each request, and so through every list of requests.
-/

namespace BehaviorScript

/-!
## Requests
-/

/--
What a receiver does with the envelope that it was handed, before the bus is used again.
-/
inductive Handling where
  | leave
  | recycle
  | overwrite (envelope : Envelope)
  deriving DecidableEq, Repr

inductive BusRequest where
  | enqueue (key : String) (recipient : Nat) (value : Option Value)
  | dequeue (handling : Handling)
  deriving DecidableEq, Repr

inductive BusReply where
  | stored
  | refused (failure : BusFull)
  | handed (envelope : Envelope)
  | nothing
  deriving DecidableEq, Repr

structure BusView where
  reply : BusReply
  size : Nat
  isEmpty : Bool
  deriving DecidableEq, Repr

namespace MessageBus

def handle (bus : MessageBus) (handout : Handout) : Handling -> MessageBus
  | .leave => bus
  | .recycle => bus.recycle handout
  | .overwrite envelope => bus.putBack handout.slot envelope

def serve (bus : MessageBus) : BusRequest -> BusReply × MessageBus
  | .enqueue key recipient value =>
      match bus.enqueue key recipient value with
      | .error failure => (.refused failure, bus)
      | .ok bus => (.stored, bus)
  | .dequeue handling =>
      match bus.dequeue? with
      | none => (.nothing, bus)
      | some (handout, bus) => (.handed handout.envelope, bus.handle handout handling)

def visited (bus : MessageBus) : List BusRequest -> List MessageBus
  | [] => [bus]
  | request :: rest => bus :: (bus.serve request).2.visited rest

def view (served : BusReply × MessageBus) : BusView :=
  ⟨served.1, served.2.size, served.2.isEmpty⟩

def views (bus : MessageBus) : List BusRequest -> List BusView
  | [] => []
  | request :: rest => view (bus.serve request) :: (bus.serve request).2.views rest

end MessageBus

/-!
## The queue
-/

structure Queue where
  capacity : Nat
  waiting : List Envelope := []
  deriving DecidableEq, Repr

namespace Queue

def serve (q : Queue) : BusRequest -> BusReply × Queue
  | .enqueue key recipient value =>
      if q.waiting.length = q.capacity then (.refused ⟨q.capacity⟩, q)
      else (.stored, { q with waiting := q.waiting ++ [⟨key, some recipient, value⟩] })
  | .dequeue _ =>
      match q.waiting with
      | [] => (.nothing, q)
      | envelope :: rest => (.handed envelope, { q with waiting := rest })

def view (served : BusReply × Queue) : BusView :=
  ⟨served.1, served.2.waiting.length, served.2.waiting.isEmpty⟩

def views (q : Queue) : List BusRequest -> List BusView
  | [] => []
  | request :: rest => view (q.serve request) :: (q.serve request).2.views rest

theorem capacity_serve (q : Queue) (request : BusRequest) :
    (q.serve request).2.capacity = q.capacity := by
  cases request with
  | enqueue key recipient value =>
      rw [serve]
      split
      · rfl
      · rfl
  | dequeue handling =>
      rw [serve]
      split
      · rfl
      · rfl

end Queue

/-!
## Slots

A bus changes in three ways: an envelope is put into a slot, the slot behind the waiting messages
is taken for one more, and the slot of the oldest message is given up.
-/

namespace MessageBus

/--
The bus has its number of slots, no more messages than that, and its head at one of the slots.
-/
structure IsSound (capacity : Nat) (bus : MessageBus) : Prop where
  slots : bus.capacity = capacity
  size : bus.size ≤ capacity
  head : 0 < capacity -> bus.head < capacity

def grow (bus : MessageBus) : MessageBus :=
  { bus with size := bus.size + 1 }

def advance (bus : MessageBus) : MessageBus :=
  { bus with head := bus.slotOf 1, size := bus.size - 1 }

theorem slotOf_putBack (bus : MessageBus) (slot : Nat) (envelope : Envelope) (n : Nat) :
    (bus.putBack slot envelope).slotOf n = bus.slotOf n := by
  simp [slotOf, capacity, putBack]

theorem slotOf_advance (bus : MessageBus) (n : Nat) :
    bus.advance.slotOf n = bus.slotOf (n + 1) := by
  change (bus.slotOf 1 + n) % bus.capacity = bus.slotOf (n + 1)
  rw [slotOf, slotOf, Nat.mod_add_mod, Nat.add_assoc, Nat.add_comm 1]

theorem isSound_empty (capacity : Nat) : (empty capacity).IsSound capacity where
  slots := List.length_replicate
  size := Nat.zero_le _
  head := id

namespace IsSound

variable {capacity : Nat} {bus : MessageBus}

theorem slotOf_lt (h : bus.IsSound capacity) (hpos : 0 < capacity) (n : Nat) :
    bus.slotOf n < bus.slots.length := by
  apply Nat.mod_lt
  rw [h.slots]
  exact hpos

theorem slotOf_zero (h : bus.IsSound capacity) (hpos : 0 < capacity) :
    bus.slotOf 0 = bus.head := by
  rw [slotOf, h.slots, Nat.add_zero, Nat.mod_eq_of_lt (h.head hpos)]

theorem slotOf_inj (h : bus.IsSound capacity) {m n : Nat} (hm : m < capacity)
    (hn : n < capacity) (heq : bus.slotOf m = bus.slotOf n) :
    m = n := by
  unfold slotOf at heq
  rw [h.slots] at heq
  have hmod : m ≡ n [MOD capacity] := Nat.ModEq.add_left_cancel' bus.head heq
  exact hmod.eq_of_lt_of_lt hm hn

theorem putBack (h : bus.IsSound capacity) (slot : Nat) (envelope : Envelope) :
    (bus.putBack slot envelope).IsSound capacity where
  slots := by
    rw [← h.slots]
    exact List.length_set
  size := h.size
  head := h.head

theorem grow (h : bus.IsSound capacity) (hfree : bus.size < capacity) :
    bus.grow.IsSound capacity where
  slots := h.slots
  size := hfree
  head := h.head

theorem advance (h : bus.IsSound capacity) : bus.advance.IsSound capacity where
  slots := h.slots
  size := Nat.le_trans (Nat.sub_le _ _) h.size
  head hpos := by
    rw [← h.slots]
    exact h.slotOf_lt hpos 1

/-!
## The waiting messages
-/

theorem queued_eq_map (h : bus.IsSound capacity) :
    bus.queued = (List.range bus.size).map fun n => bus.slots.getD (bus.slotOf n) .blank := by
  apply List.filterMap_eq_map_iff_forall_eq_some.mpr
  intro n hn
  have hpos : 0 < capacity := Nat.lt_of_lt_of_le (Nat.zero_lt_of_lt (List.mem_range.mp hn)) h.size
  simp [h.slotOf_lt hpos n]

theorem length_queued (h : bus.IsSound capacity) : bus.queued.length = bus.size := by
  rw [h.queued_eq_map, List.length_map, List.length_range]

theorem queued_putBack (h : bus.IsSound capacity) {slot : Nat} (envelope : Envelope)
    (hfree : forall n, n < bus.size -> bus.slotOf n ≠ slot) :
    (bus.putBack slot envelope).queued = bus.queued := by
  rw [(h.putBack slot envelope).queued_eq_map, h.queued_eq_map]
  apply List.map_congr_left
  intro n hn
  have hne := hfree n (List.mem_range.mp hn)
  rw [slotOf_putBack, MessageBus.putBack, List.getD_eq_getElem?_getD,
    List.getElem?_set_ne hne.symm, List.getD_eq_getElem?_getD]

theorem queued_grow (h : bus.IsSound capacity) (hfree : bus.size < capacity) :
    bus.grow.queued = bus.queued ++ [bus.slots.getD (bus.slotOf bus.size) .blank] := by
  rw [(h.grow hfree).queued_eq_map, h.queued_eq_map]
  change (List.range (bus.size + 1)).map (fun n => bus.slots.getD (bus.slotOf n) .blank) = _
  rw [List.range_succ, List.map_append, List.map_singleton]

theorem queued_advance (h : bus.IsSound capacity) (hwaiting : 0 < bus.size) :
    bus.queued = bus.slots.getD bus.head .blank :: bus.advance.queued := by
  have hpos : 0 < capacity := Nat.lt_of_lt_of_le hwaiting h.size
  have hsize : bus.size = bus.advance.size + 1 := (Nat.sub_add_cancel hwaiting).symm
  rw [h.queued_eq_map, h.advance.queued_eq_map, hsize, List.range_succ_eq_map, List.map_cons,
    h.slotOf_zero hpos, List.map_map]
  congr 1
  apply List.map_congr_left
  intro n _
  rw [slotOf_advance]
  rfl

end IsSound

/-!
## Requests, one by one
-/

section Serve

variable {capacity : Nat} {bus : MessageBus}

theorem enqueue_of_full (h : bus.IsSound capacity) (hfull : bus.size = capacity) (key : String)
    (recipient : Nat) (value : Option Value) :
    bus.enqueue key recipient value = .error ⟨capacity⟩ := by
  rw [enqueue, h.slots, if_pos (Nat.le_of_eq hfull.symm)]

theorem enqueue_of_free (h : bus.IsSound capacity) (hfree : bus.size < capacity) (key : String)
    (recipient : Nat) (value : Option Value) :
    exists bus', bus.enqueue key recipient value = .ok bus' ∧ bus'.IsSound capacity ∧
      bus'.queued = bus.queued ++ [⟨key, some recipient, value⟩] := by
  have hslot := h.slotOf_lt (Nat.zero_lt_of_lt hfree) bus.size
  have hfilled := h.putBack (bus.slotOf bus.size) ⟨key, some recipient, value⟩
  refine ⟨(bus.putBack (bus.slotOf bus.size) ⟨key, some recipient, value⟩).grow, ?_,
    hfilled.grow hfree, ?_⟩
  · rw [enqueue, h.slots, if_neg (Nat.not_le_of_lt hfree)]
    rfl
  · rw [hfilled.queued_grow hfree, h.queued_putBack, slotOf_putBack]
    · simp [putBack, hslot]
    · intro n hn heq
      exact Nat.ne_of_lt hn (h.slotOf_inj (Nat.lt_trans hn hfree) hfree heq)

theorem dequeue?_of_empty (hempty : bus.size = 0) : bus.dequeue? = none := by
  rw [dequeue?, if_pos hempty]

theorem dequeue?_of_waiting (h : bus.IsSound capacity) (hwaiting : 0 < bus.size) :
    bus.dequeue? = some (⟨bus.head, bus.slots.getD bus.head .blank⟩, bus.advance) := by
  have hpos : 0 < capacity := Nat.lt_of_lt_of_le hwaiting h.size
  have hhead : bus.head < bus.slots.length := by
    rw [← h.slotOf_zero hpos]
    exact h.slotOf_lt hpos 0
  rw [dequeue?, if_neg (Nat.ne_of_gt hwaiting)]
  simp [hhead, advance]

/--
Whatever a receiver does with its envelope, the messages that are still waiting are the same.
-/
theorem queued_handle (h : bus.IsSound capacity) (hwaiting : 0 < bus.size) (envelope : Envelope)
    (handling : Handling) :
    (bus.advance.handle ⟨bus.head, envelope⟩ handling).IsSound capacity ∧
      (bus.advance.handle ⟨bus.head, envelope⟩ handling).queued = bus.advance.queued := by
  have hpos : 0 < capacity := Nat.lt_of_lt_of_le hwaiting h.size
  have hfree : forall n, n < bus.advance.size -> bus.advance.slotOf n ≠ bus.head := by
    intro n hn heq
    have hlt : n + 1 < capacity := by
      have hsize : n < bus.size - 1 := hn
      have hle := h.size
      omega
    rw [slotOf_advance, ← h.slotOf_zero hpos] at heq
    exact Nat.succ_ne_zero n (h.slotOf_inj hlt hpos heq)
  cases handling with
  | leave => exact ⟨h.advance, rfl⟩
  | recycle => exact ⟨h.advance.putBack _ _, h.advance.queued_putBack _ hfree⟩
  | overwrite other => exact ⟨h.advance.putBack _ _, h.advance.queued_putBack _ hfree⟩

structure StandsFor (bus : MessageBus) (q : Queue) : Prop where
  sound : bus.IsSound q.capacity
  queued : bus.queued = q.waiting

theorem StandsFor.size_eq {q : Queue} (h : bus.StandsFor q) : bus.size = q.waiting.length := by
  rw [← h.queued, h.sound.length_queued]

/--
A request gets the same reply from the bus and from the queue, and leaves them standing for
each other.
-/
theorem StandsFor.serve {q : Queue} (h : bus.StandsFor q) (request : BusRequest) :
    (bus.serve request).1 = (q.serve request).1 ∧
      (bus.serve request).2.StandsFor (q.serve request).2 := by
  have hsize := h.size_eq
  cases request with
  | enqueue key recipient value =>
      by_cases hfull : q.waiting.length = q.capacity
      · rw [MessageBus.serve, Queue.serve, enqueue_of_full h.sound (hsize.trans hfull),
          if_pos hfull]
        exact ⟨rfl, h⟩
      · have hfree : bus.size < q.capacity :=
          Nat.lt_of_le_of_ne h.sound.size (fun heq => hfull (hsize.symm.trans heq))
        rcases enqueue_of_free h.sound hfree key recipient value with
          ⟨bus', henqueue, hsound, hqueued⟩
        rw [MessageBus.serve, Queue.serve, henqueue, if_neg hfull]
        refine ⟨rfl, hsound, ?_⟩
        rw [hqueued, h.queued]
  | dequeue handling =>
      cases hwaiting : q.waiting with
      | nil =>
          rw [hwaiting] at hsize
          rw [MessageBus.serve, Queue.serve, dequeue?_of_empty hsize, hwaiting]
          exact ⟨rfl, h⟩
      | cons envelope rest =>
          have hpos : 0 < bus.size := by
            rw [hsize, hwaiting]
            exact Nat.zero_lt_succ _
          have hqueued := h.sound.queued_advance hpos
          rw [h.queued, hwaiting] at hqueued
          rcases List.cons.inj hqueued with ⟨hfirst, hrest⟩
          rcases queued_handle h.sound hpos envelope handling with ⟨hsound, hsame⟩
          rw [MessageBus.serve, Queue.serve, dequeue?_of_waiting h.sound hpos, hwaiting, ← hfirst]
          exact ⟨rfl, hsound, hsame.trans hrest.symm⟩

theorem StandsFor.enqueue {q : Queue} (h : bus.StandsFor q) (hroom : q.waiting.length < q.capacity)
    (key : String) (recipient : Nat) (value : Option Value) :
    exists bus', bus.enqueue key recipient value = .ok bus' ∧
      bus'.StandsFor { q with waiting := q.waiting ++ [⟨key, some recipient, value⟩] } := by
  have hfree : bus.size < q.capacity := by
    rw [h.size_eq]
    exact hroom
  rcases enqueue_of_free h.sound hfree key recipient value with ⟨bus', henqueue, hsound, hqueued⟩
  refine ⟨bus', henqueue, hsound, ?_⟩
  rw [hqueued, h.queued]

theorem StandsFor.of_enqueue_eq_ok {q : Queue} {bus' : MessageBus} {key : String} {recipient : Nat}
    {value : Option Value} (h : bus.StandsFor q)
    (henqueue : bus.enqueue key recipient value = .ok bus') :
    bus'.StandsFor { q with waiting := q.waiting ++ [⟨key, some recipient, value⟩] } := by
  by_cases hfull : q.waiting.length = q.capacity
  · rw [enqueue_of_full h.sound (h.size_eq.trans hfull)] at henqueue
    cases henqueue
  · have hsize := h.sound.size
    rw [h.size_eq] at hsize
    rcases h.enqueue (Nat.lt_of_le_of_ne hsize hfull) key recipient value with
      ⟨other, hother, hstands⟩
    rw [henqueue] at hother
    cases hother
    exact hstands

theorem StandsFor.dequeue? {q : Queue} {envelope : Envelope} {rest : List Envelope}
    (h : bus.StandsFor q) (hwaiting : q.waiting = envelope :: rest) :
    exists handout bus', bus.dequeue? = some (handout, bus') ∧ handout.envelope = envelope ∧
      (bus'.recycle handout).StandsFor { q with waiting := rest } := by
  have hpos : 0 < bus.size := by
    rw [h.size_eq, hwaiting]
    exact Nat.zero_lt_succ _
  rcases h.serve (.dequeue .recycle) with ⟨hreply, hnext⟩
  have hdequeue := dequeue?_of_waiting h.sound hpos
  rw [MessageBus.serve, Queue.serve, hdequeue, hwaiting] at hreply hnext
  exact ⟨_, _, hdequeue, BusReply.handed.inj hreply, hnext⟩

end Serve

/-!
## Whole runs
-/

theorem StandsFor.isEmpty_eq {bus : MessageBus} {q : Queue} (h : bus.StandsFor q) :
    bus.isEmpty = q.waiting.isEmpty := by
  rw [isEmpty, h.size_eq]
  cases q.waiting with
  | nil => rfl
  | cons envelope rest => rfl

theorem StandsFor.views_eq {bus : MessageBus} {q : Queue} (h : bus.StandsFor q)
    (requests : List BusRequest) :
    bus.views requests = q.views requests := by
  induction requests generalizing bus q with
  | nil => rfl
  | cons request rest ih =>
      rcases h.serve request with ⟨hreply, hnext⟩
      have hview : view (bus.serve request) = Queue.view (q.serve request) := by
        rw [view, Queue.view, hreply, hnext.size_eq, hnext.isEmpty_eq]
      rw [views, Queue.views, hview, ih hnext]

theorem StandsFor.isSound_of_mem_visited {bus : MessageBus} {q : Queue} (h : bus.StandsFor q)
    {requests : List BusRequest} {other : MessageBus} (hmem : other ∈ bus.visited requests) :
    other.IsSound q.capacity := by
  induction requests generalizing bus q with
  | nil =>
      rw [List.mem_singleton.mp hmem]
      exact h.sound
  | cons request rest ih =>
      rcases List.mem_cons.mp hmem with rfl | hlater
      · exact h.sound
      · rw [← q.capacity_serve request]
        exact ih (h.serve request).2 hlater

theorem standsFor_empty (capacity : Nat) : (empty capacity).StandsFor { capacity := capacity } where
  sound := isSound_empty capacity
  queued := rfl

end MessageBus

/--
A bus cannot be told from a queue of its capacity, whatever is requested of it and whatever
receivers do with their envelopes.  All the while its head and its size stay within its slots, and
the slot that the next request uses exists.
-/
theorem bus_serves_as_queue (capacity : Nat) (requests : List BusRequest) :
    (MessageBus.empty capacity).views requests =
        Queue.views { capacity := capacity } requests ∧
      forall bus, bus ∈ (MessageBus.empty capacity).visited requests ->
        bus.IsSound capacity ∧
          (bus.size < bus.capacity ->
            bus.capacity ≠ 0 ∧ bus.slotOf bus.size < bus.slots.length) ∧
          (bus.size ≠ 0 -> bus.capacity ≠ 0 ∧ bus.head < bus.slots.length) := by
  have hempty := MessageBus.standsFor_empty capacity
  refine ⟨hempty.views_eq requests, ?_⟩
  intro bus hbus
  have hsound : bus.IsSound capacity := hempty.isSound_of_mem_visited hbus
  have hslots : bus.slots.length = capacity := hsound.slots
  refine ⟨hsound, ?_, ?_⟩
  · intro hfree
    have hpos : 0 < bus.capacity := Nat.zero_lt_of_lt hfree
    exact ⟨Nat.ne_of_gt hpos, hsound.slotOf_lt (hsound.slots ▸ hpos) bus.size⟩
  · intro hwaiting
    have hpos : 0 < capacity := Nat.lt_of_lt_of_le (Nat.pos_of_ne_zero hwaiting) hsound.size
    rw [hsound.slots, hslots]
    exact ⟨Nat.ne_of_gt hpos, hsound.head hpos⟩

end BehaviorScript
