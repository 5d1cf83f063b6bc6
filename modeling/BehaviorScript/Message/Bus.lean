import BehaviorScript.Message

/-!
# The message bus

A bus holds messages until they are handed out, oldest first, in a ring of slots
whose number never changes.  A slot that was handed out keeps its envelope until the
receiver empties it or a later message overwrites it; either way the next message in
that slot has nothing left over from the one before.
-/

namespace BehaviorScript

structure BusFull where
  capacity : Nat
  deriving DecidableEq, Repr

def BusFull.message (e : BusFull) : String :=
  s!"message bus is full (capacity {e.capacity}); construct it with a larger capacity"

/--
A ring of slots.  The waiting messages are in the `size` slots from `head` on, going round
at the end.
-/
structure MessageBus where
  slots : List Envelope
  head : Nat
  size : Nat
  deriving DecidableEq, Repr

namespace MessageBus

def empty (capacity : Nat) : MessageBus :=
  { slots := List.replicate capacity .blank, head := 0, size := 0 }

def capacity (bus : MessageBus) : Nat :=
  bus.slots.length

def isEmpty (bus : MessageBus) : Bool :=
  bus.size == 0

def slotOf (bus : MessageBus) (n : Nat) : Nat :=
  (bus.head + n) % bus.capacity

def queued (bus : MessageBus) : List Envelope :=
  (List.range bus.size).filterMap fun n => bus.slots[bus.slotOf n]?

def putBack (bus : MessageBus) (slot : Nat) (envelope : Envelope) : MessageBus :=
  { bus with slots := bus.slots.set slot envelope }

def enqueue (bus : MessageBus) (key : String) (recipient : Nat) (value : Option Value) :
    Except BusFull MessageBus :=
  if bus.capacity ≤ bus.size then .error ⟨bus.capacity⟩
  else
    let filled := bus.putBack (bus.slotOf bus.size) ⟨key, some recipient, value⟩
    .ok { filled with size := bus.size + 1 }

/--
A message that was handed out, with the slot that its envelope still occupies.
-/
structure Handout where
  slot : Nat
  envelope : Envelope
  deriving DecidableEq, Repr

/--
Hand out the message that has waited longest.  Its slot is free from then on.
-/
def dequeue? (bus : MessageBus) : Option (Handout × MessageBus) :=
  if bus.size = 0 then none
  else
    bus.slots[bus.head]?.map fun envelope =>
      (⟨bus.head, envelope⟩, { bus with head := bus.slotOf 1, size := bus.size - 1 })

def recycle (bus : MessageBus) (handout : Handout) : MessageBus :=
  bus.putBack handout.slot .blank

end MessageBus
end BehaviorScript
