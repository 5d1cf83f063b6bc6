import BehaviorScript.Action
import BehaviorScript.Table

/-!
# States

A state has four sections of actions.  The run section is taken up where the context
left it: an action that is done makes way for the next one in the same tick, one that
yields will be ticked again, one that loops sends the section back to its start, and a
transition ends the state's turn.  The enter and exit sections run through to their
end every time.  Of the message section, only the handler of the message's key runs.
-/

namespace BehaviorScript

structure State (σ : Type) where
  name : String
  run : List (Action σ) := []
  enter : List (Action σ) := []
  exit : List (Action σ) := []
  on : List (String × Action σ) := []

namespace State

def addHandler {σ : Type} (s : State σ) (key : String) (action : Action σ) : State σ :=
  { s with on := Table.put key action s.on }

def handler? {σ : Type} (s : State σ) (key : String) : Option (Action σ) :=
  s.on.lookup key

def messageKeys {σ : Type} (s : State σ) : List String :=
  (s.on.map Prod.fst).mergeSort fun a b => decide (a ≤ b)

/-!
## The run section
-/

/--
The number of actions that one tick of a run section may call.  Only a section whose actions
keep moving the position back gets there, and no host waits that long.
-/
def cascadeLimit : Nat :=
  0x10000000000000000

/--
Call the actions of the run section from the context's position on, until one of them is not done or
none is left.  The answer is `done` when the limit is reached first, and never otherwise.
-/
def cascade {σ : Type} (s : State σ) : Nat -> Activity σ TickResult
  | 0 => pure .done
  | limit + 1 => do
      match s.run[(← Activity.look).position.actionIndex.toNat]? with
      | none => return .yield
      | some action =>
          let result ← action
          let index := (← Activity.look).position.actionIndex
          Activity.tell (.ticked s.name index result)
          match result with
          | .done =>
              Activity.change (·.setActionIndex (index + 1))
              s.cascade limit
          | .yield => return .yield
          | .loop =>
              Activity.change (·.setActionIndex 0)
              return .yield
          | .transition destination => return .transition destination

def tick {σ : Type} (s : State σ) : Activity σ TickResult :=
  s.cascade cascadeLimit

/-!
## The other sections
-/

/--
Call every action.  For each one that is not done the given fault is recorded.
-/
def callAll {σ : Type} (fault : Fault) : List (Action σ) -> Activity σ Unit
  | [] => pure ()
  | action :: rest => do
      let result ← action
      if result ≠ .done then
        Activity.raise fault
      callAll fault rest

def callEnter {σ : Type} (s : State σ) : Activity σ Unit :=
  callAll .enterActionNotDone s.enter

def callExit {σ : Type} (s : State σ) : Activity σ Unit :=
  callAll .exitActionNotDone s.exit

def callWith {σ : Type} (action : Action σ) (message : Envelope) :
    Activity σ (TickResult × Envelope) :=
  fun c =>
    let (lent, kept) := c.lend message
    let step := action lent
    let (returned, message) := step.context.giveBack kept
    ⟨(step.value, message), returned, step.events⟩

/--
Answer a message with the handler of its key, and give the message back.  Without a handler
the answer is `done`.  A handler may neither yield nor loop.
-/
def send {σ : Type} (s : State σ) (message : Envelope) : Activity σ (TickResult × Envelope) :=
  match s.handler? message.key with
  | none => pure (.done, message)
  | some action => do
      let (result, message) ← callWith action message
      match result with
      | .done => return (.done, message)
      | .transition destination => return (.transition destination, message)
      | .yield | .loop =>
          Activity.raise .handlerNotDone
          return (.done, message)

end State
end BehaviorScript
