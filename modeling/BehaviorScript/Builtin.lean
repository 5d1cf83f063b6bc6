import BehaviorScript.Registry
import BehaviorScript.Script

/-!
# Built-in actions

The actions that every script can count on: going to a state, the three plain answers,
and writing a line to the log.
-/

namespace BehaviorScript
namespace Builtin

/--
Go to the state bound to `target`.  This is what a bare arrow calls.
-/
def goto (σ : Type) (options : Options) : Schema σ :=
  let bare : Schema σ :=
    { name := options.transitionAction
      build := fun bs =>
        (bs.transition "target").map fun destination => Activity.done (.transition destination) }
  (bare.withAlias "goto").withDefault "target" .state

def answer (σ : Type) (name : String) (result : TickResult) : Schema σ :=
  .ofAction name (Activity.done result)

def writeLog {σ : Type} (message : String) : Activity σ TickResult := do
  Activity.tell (.logged message (← Activity.look).position.stateId)
  return .done

def log (σ : Type) : Schema σ :=
  let bare : Schema σ :=
    { name := "log", build := fun bs => (bs.textOr "message" "").map writeLog }
  bare.withDefault "message" .text

def schemas (σ : Type) (options : Options) : List (Schema σ) :=
  [goto σ options, answer σ "yield" .yield, answer σ "done" .done, answer σ "loop" .loop, log σ]

end Builtin

/--
The registry of the built-in actions.  It exists unless the reserved action name is invalid or
the name of another built-in action.
-/
def Registry.builtins (σ : Type) (options : Options) : Except RegistryError (Registry σ) :=
  match Registry.empty.registerAll (Builtin.schemas σ options) with
  | (.ok (), r) => .ok r
  | (.error e, _) => .error e

end BehaviorScript
