import BehaviorScript.CommandLine.Arguments
import BehaviorScript.Machine
import BehaviorScript.Message.Bus

/-!
# Sessions

A session ticks one instance of a machine a given number of times.  Right before each
tick the messages scheduled for it are put on a bus and delivered, oldest first.  The bus has
slots for all messages that will ever be sent, and room for the rows of all ticks is asked for
before the first of them.
-/

namespace BehaviorScript
namespace CommandLine

structure Delivery where
  key : String
  result : TickResult
  error : Option Fault
  deriving DecidableEq, Repr

/--
What one tick came to: the messages before it, and where the instance stands after it.
-/
structure TickRow where
  tick : Nat
  deliveries : List Delivery
  state : Option String
  position : Position
  error : Option Fault
  deriving DecidableEq, Repr

structure Session where
  context : Context Unit
  bus : MessageBus
  deriving DecidableEq, Repr

namespace Session

def start (sends : List Send) : Session :=
  { context := .fresh (), bus := .empty (max 1 sends.length) }

/--
Put messages on the bus.  One that finds no room is dropped.
-/
def enqueueAll (bus : MessageBus) : List Send -> MessageBus
  | [] => bus
  | s :: rest =>
      match bus.enqueue s.key 0 s.value with
      | .ok bus => enqueueAll bus rest
      | .error _ => enqueueAll bus rest

def deliver (m : Machine Unit) : Nat -> Session -> List Delivery × Session
  | 0, s => ([], s)
  | limit + 1, s =>
      match s.bus.dequeue? with
      | none => ([], s)
      | some (handout, bus) =>
          let step := m.send handout.envelope s.context.resetError
          let (result, envelope) := step.value
          let (rest, s) := deliver m limit ⟨step.context, bus.recycle handout⟩
          (⟨envelope.key, result, step.context.lastError⟩ :: rest, s)

def prepare (m : Machine Unit) (sends : List Send) (tick : Nat) (s : Session) :
    List Delivery × Session :=
  let bus := enqueueAll s.bus (sends.filter fun send => send.tick == tick)
  deliver m bus.size { s with bus := bus }

def tick (m : Machine Unit) (sends : List Send) (tick : Nat) (s : Session) : TickRow × Session :=
  let (deliveries, s) := s.prepare m sends tick
  let context := (m.tick s.context).context
  ({ tick := tick
     deliveries := deliveries
     state := (m.currentState? context).map State.name
     position := context.position
     error := context.lastError },
    { s with context := context })

def ticks (m : Machine Unit) (sends : List Send) : Nat -> Nat -> Session -> List TickRow
  | 0, _, _ => []
  | count + 1, first, s =>
      let (row, s) := s.tick m sends first
      row :: ticks m sends count (first + 1) s

/--
The number of rows that there can be room for: a row takes 80 bytes, and all of them at most
`2 ^ 63 - 8`.
-/
def rowLimit : Nat :=
  0x7ffffffffffffff8 / 80

/--
A whole session.  There is none if there can be no room for its rows.  Up to that limit the room
is taken for granted.
-/
def run (m : Machine Unit) (count : Nat) (sends : List Send) : Option (List TickRow) :=
  if count ≤ rowLimit then some (ticks m sends count 1 (start sends)) else none

end Session

def TickRow.anyFatal (rows : List TickRow) : Bool :=
  rows.any fun row => row.error.any Fault.isFatal

end CommandLine
end BehaviorScript
