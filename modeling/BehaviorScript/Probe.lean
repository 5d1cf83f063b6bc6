import BehaviorScript.Registry

/-!
# Probes

A probe is an action described by data.  It stands in for an action of the host where
a machine is watched from outside: each call is told as an event, with all that the
action could see, and then the probe does what its description says.  Probes count in
the context's data how often they have waited and been called.
-/

namespace BehaviorScript

/-!
## Reading properties
-/

inductive Query where
  | int (property : String)
  | intOr (property : String) (default : Int64)
  | float (property : String)
  | floatOr (property : String) (default : Binary64)
  | text (property : String)
  | textOr (property : String) (default : String)
  | bool (property : String)
  | boolOr (property : String) (default : Bool)
  | state (property : String)
  deriving DecidableEq, Repr

def Bindings.ask (bs : Bindings) : Query -> Except BindError Binding
  | .int p => (bs.int p).map fun v => .value (.int v)
  | .intOr p d => (bs.intOr p d).map fun v => .value (.int v)
  | .float p => (bs.float p).map fun v => .value (.float v)
  | .floatOr p d => (bs.floatOr p d).map fun v => .value (.float v)
  | .text p => (bs.text p).map fun v => .value (.text v)
  | .textOr p d => (bs.textOr p d).map fun v => .value (.text v)
  | .bool p => (bs.bool p).map fun v => .value (.bool v)
  | .boolOr p d => (bs.boolOr p d).map fun v => .value (.bool v)
  | .state p => (bs.transition p).map .state

namespace Probe

/-!
## What probes do
-/

/--
What a probe does when it is called.

- `answer` gives an answer.
- `follow` goes to the state in one of the arguments.
- `wait` yields as many times as one of the arguments says, and is then done.
- `cycle` does one thing after another, a new one with each call.
- The others do something to the context first.
-/
inductive Behavior where
  | answer (result : TickResult)
  | follow (arg : Nat)
  | wait (arg : Nat)
  | cycle (steps : List Behavior)
  | reset (next : Behavior)
  | clearError (next : Behavior)
  | raise (fault : Fault) (next : Behavior)
  | skip (count : UInt64) (next : Behavior)
  | moveTo (position : Position) (next : Behavior)

structure Tally where
  waited : Int64 := 0
  calls : List (String × Nat) := []
  deriving DecidableEq, Repr

namespace Tally

def callsOf (t : Tally) (id : String) : Nat :=
  (t.calls.lookup id).getD 0

def countCall (t : Tally) (id : String) : Tally :=
  { t with calls := (id, t.callsOf id + 1) :: t.calls.filter fun entry => entry.1 ≠ id }

end Tally

def changeTally (f : Tally -> Tally) : Activity Tally Unit :=
  Activity.change fun c => { c with data := f c.data }

def waitFor (count : Int64) : Activity Tally TickResult := do
  let waited := (← Activity.look).data.waited
  if waited < count then
    changeTally fun t => { t with waited := waited + 1 }
    return .yield
  else
    changeTally fun t => { t with waited := 0 }
    return .done

mutual

def perform (id : String) (args : List Binding) : Behavior -> Activity Tally TickResult
  | .answer result => pure result
  | .follow arg =>
      match args[arg]? with
      | some (.state destination) => pure (.transition destination)
      | _ => pure .done
  | .wait arg =>
      match args[arg]? with
      | some (.value (.int count)) => waitFor count
      | _ => pure .done
  | .cycle steps => do
      let calls := (← Activity.look).data.callsOf id
      changeTally fun t => t.countCall id
      performNth id args (calls % steps.length) steps
  | .reset next => do
      Activity.change Context.reset
      perform id args next
  | .clearError next => do
      Activity.change Context.resetError
      perform id args next
  | .raise fault next => do
      Activity.raise fault
      perform id args next
  | .skip count next => do
      Activity.change fun c => c.setActionIndex (c.position.actionIndex + count)
      perform id args next
  | .moveTo position next => do
      Activity.change fun c => c.moveTo position
      perform id args next

def performNth (id : String) (args : List Binding) :
    Nat -> List Behavior -> Activity Tally TickResult
  | _, [] => pure .done
  | 0, b :: _ => perform id args b
  | n + 1, _ :: rest => performNth id args n rest

end

def action (id : String) (args : List Binding) (behavior : Behavior) :
    Activity Tally TickResult := do
  let c ← Activity.look
  Activity.tell (.called ⟨id, c.position, args, c.currentMessage?, c.lastError⟩)
  perform id args behavior

/-!
## Schemas of probes
-/

structure Declared where
  name : String
  kind : Kind
  isDefault : Bool := false
  deriving DecidableEq, Repr

/--
The description of a schema.  The properties to read become the arguments of the action; a lower
bound may be set for one whole number.  A `plain` probe looks at no properties.
-/
structure Spec where
  name : String
  aliases : List String := []
  properties : List Declared := []
  reads : List Query := []
  atLeast : Option (String × Int64) := none
  behavior : Behavior
  plain : Bool := false

namespace Spec

def checkBound (spec : Spec) (bs : Bindings) : Except BindError Unit :=
  match spec.atLeast with
  | none => .ok ()
  | some (property, least) => do
      let value ← bs.intOr property least
      if value < least then
        throw (.invalid property s!"must be at least {least.toInt}")

def build (spec : Spec) (bs : Bindings) : Except BindError (Action Tally) :=
  let id := Text.foldCase spec.name
  if spec.plain then .ok (action id [] spec.behavior)
  else do
    let args ← spec.reads.mapM bs.ask
    spec.checkBound bs
    return action id args spec.behavior

def declare (s : Schema Tally) (p : Declared) : Schema Tally :=
  if p.isDefault then s.withDefault p.name p.kind else s.withProperty p.name p.kind

def schema (spec : Spec) : Schema Tally :=
  let bare : Schema Tally := { name := spec.name, build := spec.build }
  spec.properties.foldl declare (spec.aliases.foldl Schema.withAlias bare)

end Spec
end Probe
end BehaviorScript
