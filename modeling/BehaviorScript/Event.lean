import BehaviorScript.Bindings
import BehaviorScript.Context

/-!
# Events

What happens while a script is compiled and while a machine runs is told in events,
in the order in which it happens.  An event has a level, a text and named fields.
-/

namespace BehaviorScript

inductive Level where
  | trace
  | debug
  | info
  | warn
  deriving DecidableEq, Repr

namespace Level

def name : Level -> String
  | trace => "trace"
  | debug => "debug"
  | info => "info"
  | warn => "warn"

end Level

/--
What an action of the host saw when it was called.
-/
structure Call where
  action : String
  position : Position
  args : List Binding
  message : Option Envelope
  error : Option Fault
  deriving DecidableEq, Repr

inductive Event where
  | scanEnded (tokens lines : Nat)
  | scanStuck (offset line : Nat)
  | lexed (tokens : Nat)
  | parsed (machine : String) (states : Nat)
  | resolved (states transitions : Nat)
  | generated (machine : String) (states : Nat)
  | registered (action : String) (aliases : Nat)
  | logged (message : String) (stateId : Int32)
  | raised (fault : Fault) (stateId : Int32)
  | ticked (state : String) (actionIndex : UInt64) (result : TickResult)
  | entered (machine state : String)
  | notStarted (machine : String) (result : TickResult)
  | called (call : Call)
  deriving DecidableEq, Repr

namespace Event

def level : Event -> Level
  | scanEnded .. => .trace
  | registered .. => .trace
  | ticked .. => .trace
  | called .. => .trace
  | logged .. => .info
  | raised .. => .warn
  | _ => .debug

def text : Event -> String
  | scanEnded .. => "lexer reached end of input"
  | scanStuck .. => "lexer stuck"
  | lexed .. => "lexed"
  | parsed .. => "parsed"
  | resolved .. => "resolved"
  | generated .. => "generated"
  | registered .. => "action registered"
  | logged message _ => message
  | raised .. => "runtime error raised"
  | ticked .. => "run action ticked"
  | entered .. => "entered state"
  | notStarted .. => "enter action did not transition"
  | called .. => "action called"

def fields : Event -> List (String × String)
  | scanEnded tokens lines => [("tokens", toString tokens), ("lines", toString lines)]
  | scanStuck offset line => [("offset", toString offset), ("line", toString line)]
  | lexed tokens => [("tokens", toString tokens)]
  | parsed machine states => [("machine", machine), ("states", toString states)]
  | resolved states transitions =>
      [("states", toString states), ("transitions", toString transitions)]
  | generated machine states => [("machine", machine), ("states", toString states)]
  | registered action aliases => [("action", action), ("aliases", toString aliases)]
  | logged _ stateId => [("state_id", toString stateId.toInt)]
  | raised fault stateId => [("error", fault.text), ("state_id", toString stateId.toInt)]
  | ticked state actionIndex result =>
      [("state", state), ("action_index", toString actionIndex.toNat), ("result", result.text)]
  | entered machine state => [("machine", machine), ("state", state)]
  | notStarted machine result => [("machine", machine), ("result", result.text)]
  | called call => [("action", call.action)]

end Event
end BehaviorScript
