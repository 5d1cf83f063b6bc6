import BehaviorScript.State

/-!
# Machines

A machine is a table of states and an action that picks the first of them.  States go
by their place in the table.  A tick either starts an instance or takes up the run
section of its state, and carries out at most one transition: the exit section of the
state that is left, then the enter section of the state that is entered.

Place numbers in transitions are 64-bit words, and the state number of a position is
a signed 32-bit word.  A destination beyond the largest state number stands for that
number, so a transition never leads back to the position before the start.
-/

namespace BehaviorScript

/--
A table of states, with the action that answers which state comes first.
-/
structure Machine (σ : Type) where
  name : String
  enter : Action σ
  states : List (State σ) := []

namespace Machine

def state? {σ : Type} (m : Machine σ) (id : Int32) : Option (State σ) :=
  if 0 ≤ id.toInt then m.states[id.toInt.toNat]? else none

def stateId? {σ : Type} (m : Machine σ) (name : String) : Option Int32 :=
  (m.states.findIdx? fun s => Text.sameName s.name name).map Int32.ofNat

def currentState? {σ : Type} (m : Machine σ) (c : Context σ) : Option (State σ) :=
  m.state? c.position.stateId

def maxStateId : Nat :=
  0x7fffffff

def destinationId (destination : UInt64) : Int32 :=
  Int32.ofNat (min destination.toNat maxStateId)

def transition {σ : Type} (m : Machine σ) (destination : UInt64) : Activity σ Unit := do
  match m.currentState? (← Activity.look) with
  | some current => current.callExit
  | none => pure ()
  Activity.change (·.moveTo ⟨destinationId destination, 0⟩)
  match m.state? (destinationId destination) with
  | some next =>
      Activity.tell (.entered m.name next.name)
      next.callEnter
  | none => Activity.raise .destinationMissing

def begin {σ : Type} (m : Machine σ) : Activity σ Unit := do
  match ← m.enter with
  | .transition destination => m.transition destination
  | result =>
      Activity.tell (.notStarted m.name result)
      Activity.raise .noFirstTransition

def proceed {σ : Type} (m : Machine σ) : Activity σ Unit := do
  match m.currentState? (← Activity.look) with
  | none => Activity.raise .currentStateMissing
  | some current =>
      match ← current.tick with
      | .transition destination => m.transition destination
      | _ => pure ()

def tick {σ : Type} (m : Machine σ) : Activity σ Unit := do
  Activity.change Context.resetError
  if (← Activity.look).position.isStart then
    m.begin
  else
    m.proceed

/--
Hand a message to the current state, and carry out the transition that its handler may answer.
The message is given back with the answer.
-/
def send {σ : Type} (m : Machine σ) (message : Envelope) : Activity σ (TickResult × Envelope) := do
  match m.currentState? (← Activity.look) with
  | none => return (.done, message)
  | some current =>
      let (result, message) ← current.send message
      match result with
      | .transition destination => m.transition destination
      | _ => pure ()
      return (result, message)

end Machine
end BehaviorScript
