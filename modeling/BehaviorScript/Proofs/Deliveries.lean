import BehaviorScript.CommandLine.Session
import BehaviorScript.Proofs.BusQueue
import BehaviorScript.Proofs.LentMessages

/-!
# Scheduled messages are delivered once

A session shows little of what it does: a row for each tick, with the answers to the messages
before it.  Its history tells all of it, one deed after another: which message was put on
the bus and whether there was room, which message was handed to the machine, and how many
were still waiting when the machine was ticked.  The rows can be read off the history.

One bus is used for all ticks, and a batch of messages never exceeds its slots, so every
batch goes through it whole and in order and leaves it empty for the next one.
-/

namespace BehaviorScript
namespace CommandLine

/-!
## Histories
-/

inductive Deed where
  | stored (send : Send)
  | dropped (send : Send)
  | delivered (message : Envelope)
  | ticked (waiting : Nat)
  deriving DecidableEq, Repr

/--
A deed, and what it came to.  Only a delivery has an answer.
-/
structure Moment where
  deed : Deed
  step : Step Unit (Option (TickResult × Envelope))

def Send.envelope (s : Send) : Envelope :=
  ⟨s.key, some 0, s.value⟩

def Deed.delivered? : Deed -> Option Envelope
  | .delivered message => some message
  | _ => none

def Moment.delivery? (moment : Moment) : Option Delivery :=
  moment.step.value.map fun (result, message) =>
    ⟨message.key, result, moment.step.context.lastError⟩

namespace Session

variable (m : Machine Unit) (sends : List Send)

def batch (tick : Nat) : List Send :=
  sends.filter fun send => send.tick == tick

def storing (context : Context Unit) (bus : MessageBus) : List Send -> List Moment
  | [] => []
  | s :: rest =>
      match bus.enqueue s.key 0 s.value with
      | .ok bus => ⟨.stored s, ⟨none, context, []⟩⟩ :: storing context bus rest
      | .error _ => ⟨.dropped s, ⟨none, context, []⟩⟩ :: storing context bus rest

def delivering : Nat -> Session -> List Moment
  | 0, _ => []
  | limit + 1, s =>
      match s.bus.dequeue? with
      | none => []
      | some (handout, bus) =>
          let step := m.perform (.send handout.envelope) s.context.resetError
          ⟨.delivered handout.envelope, step⟩ ::
            delivering limit ⟨step.context, bus.recycle handout⟩

def moments (tick : Nat) (s : Session) : List Moment :=
  let filled := enqueueAll s.bus (batch sends tick)
  let ready := (s.prepare m sends tick).2
  storing s.context s.bus (batch sends tick) ++ delivering m filled.size { s with bus := filled } ++
    [⟨.ticked ready.bus.size, m.perform .tick ready.context⟩]

def history : Nat -> Nat -> Session -> List (List Moment)
  | 0, _, _ => []
  | count + 1, first, s =>
      s.moments m sends first :: history count (first + 1) (s.tick m sends first).2

end Session

/-!
## Rows from histories
-/

/--
The row that tells of what was done for a tick.
-/
def TickRow.ofMoments (m : Machine Unit) (tick : Nat) (moments : List Moment) : TickRow :=
  let context := (moments.getLast?.map fun moment => moment.step.context).getD (.fresh ())
  { tick := tick
    deliveries := moments.filterMap Moment.delivery?
    state := (m.currentState? context).map State.name
    position := context.position
    error := context.lastError }

namespace Session

variable {m : Machine Unit} {sends : List Send}

theorem filterMap_delivery?_storing (context : Context Unit) (bus : MessageBus)
    (batch : List Send) :
    (storing context bus batch).filterMap Moment.delivery? = [] := by
  induction batch generalizing bus with
  | nil => rfl
  | cons s rest ih =>
      rw [storing]
      cases bus.enqueue s.key 0 s.value with
      | ok bus' => exact ih bus'
      | error e => exact ih bus

theorem filterMap_delivery?_delivering (limit : Nat) (s : Session) :
    (delivering m limit s).filterMap Moment.delivery? = (deliver m limit s).1 := by
  induction limit generalizing s with
  | zero => rfl
  | succ limit ih =>
      rw [delivering, deliver]
      cases s.bus.dequeue? with
      | none => rfl
      | some found =>
          rcases found with ⟨handout, bus⟩
          exact congrArg (List.cons _) (ih _)

theorem filterMap_delivery?_moments (tick : Nat) (s : Session) :
    (s.moments m sends tick).filterMap Moment.delivery? = (s.prepare m sends tick).1 := by
  rw [moments, List.filterMap_append, List.filterMap_append, filterMap_delivery?_storing,
    filterMap_delivery?_delivering, List.nil_append]
  exact List.append_nil _

theorem tick_eq (tick : Nat) (s : Session) :
    (s.tick m sends tick).1 = TickRow.ofMoments m tick (s.moments m sends tick) := by
  rw [TickRow.ofMoments, filterMap_delivery?_moments, moments, List.getLast?_append]
  rfl

def deedsFor (batch : List Send) : List Deed :=
  batch.map .stored ++ batch.map (fun s => .delivered s.envelope) ++ [.ticked 0]

theorem storing_deeds (context : Context Unit) {bus : MessageBus} {capacity : Nat}
    {waiting : List Envelope} (h : bus.StandsFor ⟨capacity, waiting⟩) (batch : List Send)
    (hroom : waiting.length + batch.length ≤ capacity) :
    (storing context bus batch).map Moment.deed = batch.map .stored ∧
      (enqueueAll bus batch).StandsFor ⟨capacity, waiting ++ batch.map Send.envelope⟩ := by
  induction batch generalizing bus waiting with
  | nil =>
      constructor
      · rfl
      · rw [List.map_nil, List.append_nil]
        exact h
  | cons s rest ih =>
      rw [List.length_cons] at hroom
      have hfree : waiting.length < capacity := by omega
      rcases h.enqueue hfree s.key 0 s.value with ⟨bus', henqueue, hbus'⟩
      have hrest : (waiting ++ [s.envelope]).length + rest.length ≤ capacity := by
        rw [List.length_append, List.length_singleton]
        omega
      rcases ih hbus' hrest with ⟨hdeeds, hstands⟩
      rw [storing, enqueueAll, henqueue]
      constructor
      · exact congrArg (List.cons _) hdeeds
      · rw [List.map_cons, List.append_cons]
        exact hstands

theorem delivering_deeds {s : Session} {capacity : Nat} {waiting : List Envelope}
    (h : s.bus.StandsFor ⟨capacity, waiting⟩) :
    (delivering m waiting.length s).map Moment.deed = waiting.map .delivered ∧
      (deliver m waiting.length s).2.bus.StandsFor ⟨capacity, []⟩ := by
  induction waiting generalizing s with
  | nil => exact ⟨rfl, h⟩
  | cons envelope rest ih =>
      rcases h.dequeue? rfl with ⟨handout, bus, hdequeue, henvelope, hbus⟩
      let next : Session :=
        ⟨(m.send handout.envelope s.context.resetError).context, bus.recycle handout⟩
      have hnext : next.bus.StandsFor ⟨capacity, rest⟩ := hbus
      rcases ih hnext with ⟨hdeeds, hstands⟩
      rw [List.length_cons, delivering, deliver, hdequeue]
      constructor
      · rw [List.map_cons, List.map_cons, ← henvelope]
        exact congrArg (List.cons _) hdeeds
      · exact hstands

/--
A batch that fits the bus goes through it whole, and leaves it empty.
-/
theorem moments_deeds {s : Session} {capacity : Nat} (h : s.bus.StandsFor ⟨capacity, []⟩)
    (hroom : sends.length ≤ capacity) (tick : Nat) :
    (s.moments m sends tick).map Moment.deed = deedsFor (batch sends tick) ∧
      (s.tick m sends tick).2.bus.StandsFor ⟨capacity, []⟩ := by
  have hbatch : (batch sends tick).length ≤ capacity :=
    Nat.le_trans (List.length_filter_le _ _) hroom
  rcases storing_deeds s.context h (batch sends tick) (by simpa using hbatch) with
    ⟨hstored, hfilled⟩
  rw [List.nil_append] at hfilled
  let filled : Session := { s with bus := enqueueAll s.bus (batch sends tick) }
  have hsize : filled.bus.size = ((batch sends tick).map Send.envelope).length := hfilled.size_eq
  have hdelivering : filled.bus.StandsFor ⟨capacity, (batch sends tick).map Send.envelope⟩ :=
    hfilled
  rcases delivering_deeds (m := m) hdelivering with ⟨hdelivered, hempty⟩
  rw [← hsize] at hdelivered hempty
  have hready : (s.prepare m sends tick).2.bus.StandsFor ⟨capacity, []⟩ := hempty
  constructor
  · rw [moments, List.map_append, List.map_append, hstored, hdelivered, List.map_singleton,
      hready.size_eq, deedsFor, List.map_map]
    rfl
  · exact hready

theorem filterMap_delivered?_deedsFor (batch : List Send) :
    (deedsFor batch).filterMap Deed.delivered? = batch.map Send.envelope := by
  have hstored : (batch.map Deed.stored).filterMap Deed.delivered? = [] := by
    rw [List.filterMap_map]
    exact List.filterMap_eq_nil_iff.mpr fun _ _ => rfl
  have hdelivered : (batch.map fun s => Deed.delivered s.envelope).filterMap Deed.delivered? =
      batch.map Send.envelope := by
    rw [List.filterMap_map]
    exact congrFun (List.filterMap_eq_map (f := Send.envelope)) batch
  rw [deedsFor, List.filterMap_append, List.filterMap_append, hstored, hdelivered,
    List.nil_append]
  exact List.append_nil _

theorem filterMap_moments {α : Type} {s : Session} {capacity : Nat}
    (h : s.bus.StandsFor ⟨capacity, []⟩) (hroom : sends.length ≤ capacity) (tick : Nat)
    {f : Envelope -> α} {g : Moment -> Option α}
    (hg : forall moment, moment ∈ s.moments m sends tick ->
      g moment = moment.deed.delivered?.map f) :
    (s.moments m sends tick).filterMap g = (batch sends tick).map fun send => f send.envelope := by
  calc (s.moments m sends tick).filterMap g
    _ = ((s.moments m sends tick).map Moment.deed).filterMap
          fun deed => deed.delivered?.map f := by
        rw [List.filterMap_map]
        exact List.filterMap_congr hg
    _ = ((deedsFor (batch sends tick)).filterMap Deed.delivered?).map f := by
        rw [(moments_deeds h hroom tick).1, List.map_filterMap]
    _ = (batch sends tick).map fun send => f send.envelope := by
        rw [filterMap_delivered?_deedsFor, List.map_map]
        rfl

/-!
## Whole sessions
-/

end Session

/--
Every deed keeps `I` of the context and shows `S`.
-/
structure Session.Keeps (m : Machine Unit) (I : Context Unit -> Prop) (S : Moment -> Prop) :
    Prop where
  stored : forall send c, I c -> S ⟨.stored send, ⟨none, c, []⟩⟩
  dropped : forall send c, I c -> S ⟨.dropped send, ⟨none, c, []⟩⟩
  delivered : forall message c, I c ->
    S ⟨.delivered message, m.perform (.send message) c.resetError⟩ ∧
      I (m.perform (.send message) c.resetError).context
  ticked : forall waiting c, I c ->
    S ⟨.ticked waiting, m.perform .tick c⟩ ∧ I (m.perform .tick c).context

namespace Session.Keeps

variable {m : Machine Unit} {I : Context Unit -> Prop} {S : Moment -> Prop}

theorem storing (h : Keeps m I S) {c : Context Unit} (hc : I c) (bus : MessageBus)
    (batch : List Send) :
    forall moment, moment ∈ Session.storing c bus batch -> S moment := by
  induction batch generalizing bus with
  | nil =>
      intro moment hmem
      cases hmem
  | cons s rest ih =>
      intro moment hmem
      rw [Session.storing] at hmem
      cases henqueue : bus.enqueue s.key 0 s.value with
      | ok bus' =>
          rw [henqueue] at hmem
          rcases List.mem_cons.mp hmem with rfl | hmem
          · exact h.stored s c hc
          · exact ih bus' moment hmem
      | error e =>
          rw [henqueue] at hmem
          rcases List.mem_cons.mp hmem with rfl | hmem
          · exact h.dropped s c hc
          · exact ih bus moment hmem

theorem delivering (h : Keeps m I S) (limit : Nat) {s : Session} (hs : I s.context) :
    (forall moment, moment ∈ Session.delivering m limit s -> S moment) ∧
      I (Session.deliver m limit s).2.context := by
  induction limit generalizing s with
  | zero =>
      constructor
      · intro moment hmem
        cases hmem
      · exact hs
  | succ limit ih =>
      rw [Session.delivering, Session.deliver]
      cases s.bus.dequeue? with
      | none =>
          constructor
          · intro moment hmem
            cases hmem
          · exact hs
      | some found =>
          rcases found with ⟨handout, bus⟩
          rcases h.delivered handout.envelope s.context hs with ⟨hmoment, hnext⟩
          let next : Session :=
            ⟨(m.send handout.envelope s.context.resetError).context, bus.recycle handout⟩
          have hrest := ih (show I next.context from hnext)
          constructor
          · intro moment hmem
            rcases List.mem_cons.mp hmem with rfl | hmem
            · exact hmoment
            · exact hrest.1 moment hmem
          · exact hrest.2

theorem moments (h : Keeps m I S) (sends : List Send) (tick : Nat) {s : Session}
    (hs : I s.context) :
    (forall moment, moment ∈ s.moments m sends tick -> S moment) ∧
      I (s.tick m sends tick).2.context := by
  let filled : Session := { s with bus := Session.enqueueAll s.bus (Session.batch sends tick) }
  have hfilled : I filled.context := hs
  rcases h.delivering filled.bus.size hfilled with ⟨hdelivering, hready⟩
  rcases h.ticked (s.prepare m sends tick).2.bus.size _ hready with ⟨hticked, hnext⟩
  constructor
  · intro moment hmem
    rcases List.mem_append.mp hmem with hbefore | hlast
    · rcases List.mem_append.mp hbefore with hfirst | hsecond
      · exact h.storing hs _ _ moment hfirst
      · exact hdelivering moment hsecond
    · rw [List.mem_singleton.mp hlast]
      exact hticked
  · exact hnext

theorem history (h : Keeps m I S) (sends : List Send) (count first : Nat) {s : Session}
    (hs : I s.context) :
    forall moments, moments ∈ Session.history m sends count first s ->
      forall moment, moment ∈ moments -> S moment := by
  induction count generalizing first s with
  | zero =>
      intro moments hmem
      cases hmem
  | succ count ih =>
      rcases h.moments sends first hs with ⟨hmoments, hnext⟩
      intro moments hmem
      rcases List.mem_cons.mp hmem with rfl | hmem
      · exact hmoments
      · exact ih (first + 1) hnext moments hmem

end Session.Keeps

/-!
## What the rows say
-/

end CommandLine
end BehaviorScript
