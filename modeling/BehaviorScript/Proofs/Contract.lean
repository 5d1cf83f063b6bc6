import BehaviorScript.Machine
import Mathlib.Algebra.Group.Nat.Defs

/-!
# Contracts of activities

What an activity promises: from a context with one property it comes to a value and a
context with another, and all it tells of on the way is harmless in a given sense.
The contract of a sequence is put together from those of its parts, so a machine's
step is followed in the order in which it is written.
-/

namespace BehaviorScript

namespace Activity

variable {σ α β : Type} {E : Event -> Prop}

/--
From a context with property `P` the activity comes to a value and a context related by `Q`, and
every event it tells of has property `E`.
-/
def Ensures (E : Event -> Prop) (P : Context σ -> Prop) (x : Activity σ α)
    (Q : α -> Context σ -> Prop) : Prop :=
  forall c, P c -> Q (x c).value (x c).context ∧ forall e, e ∈ (x c).events -> E e

namespace Ensures

variable {P P' : Context σ -> Prop} {Q Q' : β -> Context σ -> Prop}

theorem pure {b : β} (h : forall c, P c -> Q b c) :
    Ensures E P (Pure.pure b : Activity σ β) Q := by
  intro c hc
  exact ⟨h c hc, fun e he => by cases he⟩

theorem bind {x : Activity σ α} {R : α -> Context σ -> Prop} {f : α -> Activity σ β}
    (hx : Ensures E P x R) (hf : forall a, Ensures E (R a) (f a) Q) :
    Ensures E P (x >>= f) Q := by
  intro c hc
  rcases hx c hc with ⟨hmid, hfirst⟩
  rcases hf _ _ hmid with ⟨hend, hsecond⟩
  refine ⟨hend, fun e he => ?_⟩
  rcases List.mem_append.mp he with he | he
  · exact hfirst e he
  · exact hsecond e he

theorem look_bind {f : Context σ -> Activity σ β}
    (hf : forall c, P c -> Ensures E (fun c' => c' = c) (f c) Q) :
    Ensures E P (look >>= f) Q := by
  intro c hc
  exact hf c hc c rfl

theorem change_bind {R : Context σ -> Prop} {g : Context σ -> Context σ}
    {f : Unit -> Activity σ β} (hg : forall c, P c -> R (g c)) (hf : Ensures E R (f ()) Q) :
    Ensures E P (change g >>= f) Q := by
  intro c hc
  exact hf (g c) (hg c hc)

theorem tell_bind {event : Event} {f : Unit -> Activity σ β} (hE : E event)
    (hf : Ensures E P (f ()) Q) :
    Ensures E P (tell event >>= f) Q := by
  refine bind (R := fun _ => P) (fun c hc => ⟨hc, fun e he => ?_⟩) fun _ => hf
  rw [List.mem_singleton.mp he]
  exact hE

theorem raise {fault : Fault} {Q : Unit -> Context σ -> Prop}
    (hE : forall id, E (.raised fault id))
    (h : forall c, P c -> Q () { c with lastError := some fault }) :
    Ensures E P (Activity.raise fault) Q := by
  intro c hc
  refine ⟨h c hc, fun e he => ?_⟩
  rw [List.mem_singleton.mp he]
  exact hE _

theorem weaken {x : Activity σ β} (h : Ensures E P' x Q') (hP : forall c, P c -> P' c)
    (hQ : forall b c, Q' b c -> Q b c) :
    Ensures E P x Q := by
  intro c hc
  rcases h c (hP c hc) with ⟨hend, hevents⟩
  exact ⟨hQ _ _ hend, hevents⟩

end Ensures
end Activity

/-!
## Parts of the runtime

Proofs about runs take a section apart after each action, and a transition into its halves.
-/

def State.react {σ : Type} (s : State σ) (limit : Nat) (index : UInt64) :
    TickResult -> Activity σ TickResult
  | .done => do
      Activity.change (·.setActionIndex (index + 1))
      s.cascade limit
  | .yield => pure .yield
  | .loop => do
      Activity.change (·.setActionIndex 0)
      return .yield
  | .transition destination => pure (.transition destination)

namespace Machine

variable {σ : Type}

def leave (m : Machine σ) : Activity σ Unit := do
  match m.currentState? (← Activity.look) with
  | some current => current.callExit
  | none => pure ()

def arrive (m : Machine σ) (destination : UInt64) : Activity σ Unit := do
  Activity.change (·.moveTo ⟨destinationId destination, 0⟩)
  match m.state? (destinationId destination) with
  | some next =>
      Activity.tell (.entered m.name next.name)
      next.callEnter
  | none => Activity.raise .destinationMissing

theorem transition_eq (m : Machine σ) (destination : UInt64) :
    m.transition destination = (m.leave >>= fun _ => m.arrive destination) := by
  funext c
  unfold transition leave
  simp only [Activity.bind_apply, Activity.look_apply, List.nil_append]
  cases m.currentState? c with
  | none => rfl
  | some current => rfl

def obey (m : Machine σ) : TickResult -> Activity σ Unit
  | .transition destination => m.transition destination
  | _ => pure ()

theorem send_eq (m : Machine σ) (message : Envelope) :
    m.send message = (do
      match m.currentState? (← Activity.look) with
      | none => return (.done, message)
      | some current =>
          let answer ← current.send message
          m.obey answer.1
          return answer) := by
  funext c
  unfold send
  simp only [Activity.bind_apply, Activity.look_apply, List.nil_append]
  cases m.currentState? c with
  | none => rfl
  | some current =>
      simp only [Activity.bind_apply]
      rcases (current.send message c).value with ⟨result, returned⟩
      cases result with
      | done => rfl
      | yield => rfl
      | loop => rfl
      | transition destination => rfl

theorem destinationId_eq (destination : UInt64) (h : destination.toNat < 2 ^ 31) :
    destinationId destination = Int32.ofNat destination.toNat := by
  unfold destinationId maxStateId
  rw [Nat.min_eq_left (by omega)]

theorem state?_ofNat (m : Machine σ) {i : Nat} (h : i < 2 ^ 31) :
    m.state? (Int32.ofNat i) = m.states[i]? := by
  rw [state?, Int32.toInt_ofNat_of_lt h]
  simp

theorem mem_states_of_state? {m : Machine σ} {id : Int32} {s : State σ} (h : m.state? id = some s) :
    s ∈ m.states := by
  unfold state? at h
  split at h
  · exact List.mem_of_getElem? h
  · cases h

end Machine
end BehaviorScript
