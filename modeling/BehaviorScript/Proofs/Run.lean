import BehaviorScript.Machine

/-!
# Runs

A host drives an instance of a machine by ticking it, handing it messages, resetting
it and clearing its error.  A run is any sequence of these, and its trace has one step
for each of them, with the context that the host sees afterwards.
-/

namespace BehaviorScript

inductive Operation where
  | tick
  | send (message : Envelope)
  | reset
  | resetError
  deriving DecidableEq, Repr

namespace Machine

variable {σ : Type}

/--
Carry out one operation.  Handing over a message gives its answer and the message back.
-/
def perform (m : Machine σ) : Operation -> Activity σ (Option (TickResult × Envelope))
  | .tick => do
      m.tick
      return none
  | .send message => do
      return some (← m.send message)
  | .reset => do
      Activity.change Context.reset
      return none
  | .resetError => do
      Activity.change Context.resetError
      return none

def trace (m : Machine σ) :
    List Operation -> Context σ -> List (Step σ (Option (TickResult × Envelope)))
  | [], _ => []
  | op :: rest, c => m.perform op c :: m.trace rest (m.perform op c).context

theorem forall_mem_trace {m : Machine σ} {I : Context σ -> Prop}
    {S : Step σ (Option (TickResult × Envelope)) -> Prop}
    (hstep : forall op c, I c -> I (m.perform op c).context ∧ S (m.perform op c))
    (ops : List Operation) {c : Context σ} (hc : I c) :
    forall step, step ∈ m.trace ops c -> I step.context ∧ S step := by
  induction ops generalizing c with
  | nil =>
      intro step hmem
      cases hmem
  | cons op rest ih =>
      intro step hmem
      rcases List.mem_cons.mp hmem with rfl | hmem
      · exact hstep op c hc
      · exact ih (hstep op c hc).1 step hmem

end Machine
end BehaviorScript
