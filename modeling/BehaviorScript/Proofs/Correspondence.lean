import BehaviorScript.Proofs.Basic
import BehaviorScript.Proofs.Contract
import BehaviorScript.Proofs.Run

/-!
# Machines side by side

Two machines of the same shape whose actions do the same to contexts that correspond
stay side by side: each operation gives the same answer and the same events on both, and
the contexts correspond again afterwards.  Their hosts may keep different data.  What it
means to correspond is left open here, and only has to survive the bookkeeping that the
runtime does by itself.
-/

namespace BehaviorScript

variable {σ τ α β : Type} {R : Context σ -> Context τ -> Prop}

/-!
## Activities side by side
-/

/--
From corresponding contexts both activities come to the same value and the same events, and to
contexts that correspond again.
-/
def Activity.Relates (R : Context σ -> Context τ -> Prop) (x : Activity σ α)
    (y : Activity τ α) : Prop :=
  forall c d, R c d ->
    (x c).value = (y d).value ∧ (x c).events = (y d).events ∧ R (x c).context (y d).context

/--
The relation survives what the runtime does to contexts outside of the actions.
-/
structure Context.IsStable (R : Context σ -> Context τ -> Prop) : Prop where
  position : forall {c d}, R c d -> c.position = d.position
  moveTo : forall {c d} p, R c d -> R (c.moveTo p) (d.moveTo p)
  raise : forall {c d} fault, R c d ->
    R { c with lastError := some fault } { d with lastError := some fault }
  resetError : forall {c d}, R c d -> R c.resetError d.resetError
  reset : forall {c d}, R c d -> R c.reset d.reset

namespace Activity.Relates

theorem pure {a : α} : Relates R (Pure.pure a) (Pure.pure a) := by
  intro c d h
  exact ⟨rfl, rfl, h⟩

theorem bind {x : Activity σ α} {y : Activity τ α} {f : α -> Activity σ β} {g : α -> Activity τ β}
    (hx : Relates R x y) (hf : forall a, Relates R (f a) (g a)) :
    Relates R (x >>= f) (y >>= g) := by
  intro c d h
  rcases hx c d h with ⟨hvalue, hevents, hmid⟩
  rcases hf (y d).value _ _ hmid with ⟨hvalue', hevents', hend⟩
  rw [bind_apply, bind_apply, hvalue, hevents, hevents']
  exact ⟨hvalue', rfl, hend⟩

theorem look_bind {f : Context σ -> Activity σ β} {g : Context τ -> Activity τ β}
    (h : forall c d, R c d -> Relates R (f c) (g d)) : Relates R (look >>= f) (look >>= g) := by
  intro c d hcd
  exact h c d hcd c d hcd

theorem change {f : Context σ -> Context σ} {g : Context τ -> Context τ}
    (h : forall {c d}, R c d -> R (f c) (g d)) :
    Relates R (Activity.change f) (Activity.change g) := by
  intro c d hcd
  exact ⟨rfl, rfl, h hcd⟩

theorem tell {e : Event} : Relates R (Activity.tell e) (Activity.tell e) := by
  intro c d h
  exact ⟨rfl, rfl, h⟩

theorem raise (hR : Context.IsStable R) {fault : Fault} :
    Relates R (Activity.raise fault) (Activity.raise fault) := by
  intro c d h
  refine ⟨rfl, ?_, hR.raise fault h⟩
  rw [raise_apply, raise_apply, hR.position h]

end Activity.Relates

open Activity (Relates)

/-!
## States side by side
-/

def Operation.message? : Operation -> Option Envelope
  | send message => some message
  | _ => none

/--
The states have the same shape and related actions.  Handlers have to agree only on the message
that is handed over, and while they hold it.
-/
structure State.Relates (R : Context σ -> Context τ -> Prop) (lent : Option Envelope)
    (s : State σ) (t : State τ) : Prop where
  name : s.name = t.name
  enter : List.Forall₂ (Activity.Relates R) s.enter t.enter
  exit : List.Forall₂ (Activity.Relates R) s.exit t.exit
  run : List.Forall₂ (Activity.Relates R) s.run t.run
  on : forall message, lent = some message ->
    Option.Rel (fun x y => Activity.Relates R (callWith x message) (callWith y message))
      (s.handler? message.key) (t.handler? message.key)

namespace State

variable {s : State σ} {t : State τ} {lent : Option Envelope}

theorem callAll_relates (hR : Context.IsStable R) (fault : Fault) {xs : List (Action σ)}
    {ys : List (Action τ)} (h : List.Forall₂ (Activity.Relates R) xs ys) :
    Activity.Relates R (callAll fault xs) (callAll fault ys) := by
  induction h with
  | nil => exact Relates.pure
  | cons hxy _ ih =>
      apply Relates.bind hxy
      intro result
      split
      · exact Relates.bind (Relates.raise hR) fun _ => ih
      · exact ih

theorem cascade_relates (hR : Context.IsStable R) (h : s.Relates R lent t) (limit : Nat) :
    Activity.Relates R (s.cascade limit) (t.cascade limit) := by
  induction limit with
  | zero => exact Relates.pure
  | succ limit ih =>
      have hindex : forall i, Activity.Relates R (Activity.change (·.setActionIndex i))
          (Activity.change (·.setActionIndex i)) := by
        intro i
        apply Relates.change
        intro c d hcd
        rw [Context.setActionIndex, Context.setActionIndex, hR.position hcd]
        exact hR.moveTo _ hcd
      apply Relates.look_bind
      intro c d hcd
      -- the positions agree, so both sections go on with the action at the same index
      rw [hR.position hcd]
      have haction := rel_getElem?_of_forall₂ h.run d.position.actionIndex.toNat
      generalize s.run[d.position.actionIndex.toNat]? = x at haction
      generalize t.run[d.position.actionIndex.toNat]? = y at haction
      cases haction with
      | none => exact Relates.pure
      | some hxy =>
          apply Relates.bind hxy
          intro result
          apply Relates.look_bind
          intro c' d' hcd'
          rw [hR.position hcd', h.name]
          apply Relates.bind Relates.tell
          intro _
          cases result with
          | done => exact Relates.bind (hindex _) fun _ => ih
          | yield => exact Relates.pure
          | loop => exact Relates.bind (hindex _) fun _ => Relates.pure
          | transition destination => exact Relates.pure

theorem send_relates (hR : Context.IsStable R) {message : Envelope}
    (h : s.Relates R (some message) t) :
    Activity.Relates R (s.send message) (t.send message) := by
  have hhandler := h.on message rfl
  unfold send
  generalize s.handler? message.key = x at hhandler
  generalize t.handler? message.key = y at hhandler
  cases hhandler with
  | none => exact Relates.pure
  | some hxy =>
      apply Relates.bind hxy
      rintro ⟨result, returned⟩
      cases result with
      | done => exact Relates.pure
      | transition destination => exact Relates.pure
      | yield => exact Relates.bind (Relates.raise hR) fun _ => Relates.pure
      | loop => exact Relates.bind (Relates.raise hR) fun _ => Relates.pure

end State

/-!
## Machines side by side
-/

structure Machine.Relates (R : Context σ -> Context τ -> Prop) (lent : Option Envelope)
    (m : Machine σ) (n : Machine τ) : Prop where
  name : m.name = n.name
  enter : Activity.Relates R m.enter n.enter
  states : List.Forall₂ (State.Relates R lent) m.states n.states

namespace Machine

variable {m : Machine σ} {n : Machine τ} {lent : Option Envelope}

theorem Relates.state? (h : m.Relates R lent n) (id : Int32) :
    Option.Rel (State.Relates R lent) (m.state? id) (n.state? id) := by
  unfold Machine.state?
  split
  · exact rel_getElem?_of_forall₂ h.states _
  · exact Option.Rel.none

theorem Relates.currentState? (h : m.Relates R lent n) (hR : Context.IsStable R) {c : Context σ}
    {d : Context τ} (hcd : R c d) :
    Option.Rel (State.Relates R lent) (m.currentState? c) (n.currentState? d) := by
  unfold Machine.currentState?
  rw [hR.position hcd]
  exact h.state? _

theorem leave_relates (hR : Context.IsStable R) (h : m.Relates R lent n) :
    Activity.Relates R m.leave n.leave := by
  apply Activity.Relates.look_bind
  intro c d hcd
  have hstate := h.currentState? hR hcd
  generalize m.currentState? c = s at hstate
  generalize n.currentState? d = t at hstate
  cases hstate with
  | none => exact Activity.Relates.pure
  | some hst => exact State.callAll_relates hR _ hst.exit

theorem arrive_relates (hR : Context.IsStable R) (h : m.Relates R lent n) (destination : UInt64) :
    Activity.Relates R (m.arrive destination) (n.arrive destination) := by
  apply Activity.Relates.bind (Activity.Relates.change (hR.moveTo _))
  intro _
  have hstate := h.state? (destinationId destination)
  generalize m.state? (destinationId destination) = s at hstate
  generalize n.state? (destinationId destination) = t at hstate
  cases hstate with
  | none => exact Activity.Relates.raise hR
  | some hst =>
      dsimp only
      rw [h.name, hst.name]
      apply Activity.Relates.bind Activity.Relates.tell
      intro _
      exact State.callAll_relates hR _ hst.enter

theorem transition_relates (hR : Context.IsStable R) (h : m.Relates R lent n)
    (destination : UInt64) :
    Activity.Relates R (m.transition destination) (n.transition destination) := by
  rw [transition_eq, transition_eq]
  exact Activity.Relates.bind (leave_relates hR h) fun _ => arrive_relates hR h destination

theorem obey_relates (hR : Context.IsStable R) (h : m.Relates R lent n) (result : TickResult) :
    Activity.Relates R (m.obey result) (n.obey result) := by
  cases result with
  | done => exact Activity.Relates.pure
  | yield => exact Activity.Relates.pure
  | loop => exact Activity.Relates.pure
  | transition destination => exact transition_relates hR h destination

theorem begin_relates (hR : Context.IsStable R) (h : m.Relates R lent n) :
    Activity.Relates R m.begin n.begin := by
  apply Activity.Relates.bind h.enter
  intro result
  have hfail : Activity.Relates R
      (do Activity.tell (.notStarted m.name result); Activity.raise .noFirstTransition)
      (do Activity.tell (.notStarted n.name result); Activity.raise .noFirstTransition) := by
    rw [h.name]
    exact Activity.Relates.bind Activity.Relates.tell fun _ => Activity.Relates.raise hR
  cases result with
  | done => exact hfail
  | yield => exact hfail
  | loop => exact hfail
  | transition destination => exact transition_relates hR h destination

theorem proceed_relates (hR : Context.IsStable R) (h : m.Relates R lent n) :
    Activity.Relates R m.proceed n.proceed := by
  apply Activity.Relates.look_bind
  intro c d hcd
  have hstate := h.currentState? hR hcd
  generalize m.currentState? c = s at hstate
  generalize n.currentState? d = t at hstate
  cases hstate with
  | none => exact Activity.Relates.raise hR
  | some hst => exact Activity.Relates.bind (State.cascade_relates hR hst _) (obey_relates hR h)

theorem tick_relates (hR : Context.IsStable R) (h : m.Relates R lent n) :
    Activity.Relates R m.tick n.tick := by
  apply Activity.Relates.bind (Activity.Relates.change hR.resetError)
  intro _
  apply Activity.Relates.look_bind
  intro c d hcd
  rw [hR.position hcd]
  split
  · exact begin_relates hR h
  · exact proceed_relates hR h

theorem send_relates (hR : Context.IsStable R) {message : Envelope}
    (h : m.Relates R (some message) n) :
    Activity.Relates R (m.send message) (n.send message) := by
  rw [send_eq, send_eq]
  apply Activity.Relates.look_bind
  intro c d hcd
  have hstate := h.currentState? hR hcd
  generalize m.currentState? c = s at hstate
  generalize n.currentState? d = t at hstate
  cases hstate with
  | none => exact Activity.Relates.pure
  | some hst =>
      apply Activity.Relates.bind (State.send_relates hR hst)
      intro answer
      exact Activity.Relates.bind (obey_relates hR h answer.1) fun _ => Activity.Relates.pure

theorem perform_relates (hR : Context.IsStable R) {op : Operation}
    (h : m.Relates R op.message? n) : Activity.Relates R (m.perform op) (n.perform op) := by
  cases op with
  | tick => exact Activity.Relates.bind (tick_relates hR h) fun _ => Activity.Relates.pure
  | send message => exact Activity.Relates.bind (send_relates hR h) fun _ => Activity.Relates.pure
  | reset =>
      exact Activity.Relates.bind (Activity.Relates.change hR.reset) fun _ =>
        Activity.Relates.pure
  | resetError =>
      exact Activity.Relates.bind (Activity.Relates.change hR.resetError) fun _ =>
        Activity.Relates.pure

end Machine
end BehaviorScript
