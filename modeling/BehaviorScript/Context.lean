import BehaviorScript.Message

/-!
# Contexts

A machine is never changed by running it.  What changes is a context: where an
instance of the machine stands, what last went wrong, the message it is dealing with,
and data that belongs to the host.  Any number of contexts can share one machine.
-/

namespace BehaviorScript

/--
What an action answers when it is ticked: it is done and the next action may follow, it
wants to be ticked again, the section is to start over, or another state is to be entered.
-/
inductive TickResult where
  | done
  | yield
  | loop
  | transition (destination : UInt64)
  deriving DecidableEq, Repr

namespace TickResult

def text : TickResult -> String
  | done => "Done"
  | yield => "Yield"
  | loop => "Loop"
  | transition destination => s!"Transition({destination.toNat})"

end TickResult

inductive Fault where
  | enterActionNotDone
  | exitActionNotDone
  | handlerNotDone
  | noFirstTransition
  | currentStateMissing
  | destinationMissing
  deriving DecidableEq, Repr

namespace Fault

def text : Fault -> String
  | enterActionNotDone => "an @enter action did not return done"
  | exitActionNotDone => "an @exit action did not return done"
  | handlerNotDone => "a message handler returned yield or loop"
  | noFirstTransition => "the machine's enter action must return a transition"
  | currentStateMissing => "the current state does not exist"
  | destinationMissing => "the destination state does not exist"

/--
After a fatal fault the instance is in no state and can only be reset.
-/
def isFatal : Fault -> Bool
  | noFirstTransition => true
  | currentStateMissing => true
  | destinationMissing => true
  | _ => false

end Fault

/--
Where an instance stands: the number of its state, and the next action of that state's run
section.  State `-1` is that of an instance that has not been started.
-/
structure Position where
  stateId : Int32 := -1
  actionIndex : UInt64 := 0
  deriving DecidableEq, Repr

namespace Position

def start : Position :=
  {}

def isStart (p : Position) : Bool :=
  p.stateId == -1

end Position

/--
One instance of a machine.  The message in `slot` counts only while `hasMessage` holds.
-/
structure Context (σ : Type) where
  position : Position := .start
  lastError : Option Fault := none
  slot : Envelope := .blank
  hasMessage : Bool := false
  data : σ
  deriving DecidableEq, Repr

namespace Context

def fresh {σ : Type} (data : σ) : Context σ :=
  { data := data }

def currentMessage? {σ : Type} (c : Context σ) : Option Envelope :=
  if c.hasMessage then some c.slot else none

def resetError {σ : Type} (c : Context σ) : Context σ :=
  { c with lastError := none }

def reset {σ : Type} (c : Context σ) : Context σ :=
  { c with position := .start, lastError := none, hasMessage := false }

def moveTo {σ : Type} (c : Context σ) (p : Position) : Context σ :=
  { c with position := p }

def setActionIndex {σ : Type} (c : Context σ) (index : UInt64) : Context σ :=
  { c with position := { c.position with actionIndex := index } }

/--
Take a message into the slot, giving out the envelope that was there.
-/
def lend {σ : Type} (c : Context σ) (message : Envelope) : Context σ × Envelope :=
  ({ c with slot := message, hasMessage := true }, c.slot)

/--
Give the message back, taking in the envelope that had been there before.
-/
def giveBack {σ : Type} (c : Context σ) (kept : Envelope) : Context σ × Envelope :=
  ({ c with slot := kept, hasMessage := false }, c.slot)

end Context
end BehaviorScript
