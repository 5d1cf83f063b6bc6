import BehaviorScript.Proofs.StateTable

/-!
# Which faults a machine raises

Every fault has its place in the runtime.  Quiet actions raise none of their own, so a
machine can be followed to see which places it passes: one whose first action always goes
somewhere never reports that it did not, and one whose first action never goes anywhere
reports nothing else and stays where it is.
-/

namespace BehaviorScript

variable {σ α β : Type} {F : Fault -> Prop}

def Event.Raises (F : Fault -> Prop) (e : Event) : Prop :=
  forall fault id, e = .raised fault id -> F fault

def Context.Shows (F : Fault -> Prop) (c : Context σ) : Prop :=
  forall fault, c.lastError = some fault -> F fault

/-!
## Activities
-/

namespace Activity

def FaultsWithin (F : Fault -> Prop) (x : Activity σ α) : Prop :=
  Ensures (Event.Raises F) (Context.Shows F) x fun _ => Context.Shows F

namespace FaultsWithin

theorem pure (a : α) : FaultsWithin F (Pure.pure a : Activity σ α) :=
  Ensures.pure fun _ hc => hc

theorem bind {x : Activity σ α} {f : α -> Activity σ β} (hx : FaultsWithin F x)
    (hf : forall a, FaultsWithin F (f a)) : FaultsWithin F (x >>= f) :=
  Ensures.bind hx hf

theorem look : FaultsWithin F (Activity.look : Activity σ (Context σ)) := by
  intro c hc
  constructor
  · exact hc
  · intro e he
    cases he

theorem change {f : Context σ -> Context σ}
    (hf : forall c, (f c).lastError = c.lastError ∨ (f c).lastError = none) :
    FaultsWithin F (Activity.change f) := by
  intro c hc
  constructor
  · intro fault hfault
    rcases hf c with hsame | hnone
    · exact hc fault (hsame ▸ hfault)
    · rw [Activity.change_apply, hnone] at hfault
      cases hfault
  · intro e he
    cases he

theorem tell {event : Event} (h : forall fault id, event ≠ .raised fault id) :
    FaultsWithin F (Activity.tell event : Activity σ Unit) := by
  intro c hc
  constructor
  · exact hc
  · intro e he fault id heq
    rw [List.mem_singleton.mp he] at heq
    exact absurd heq (h fault id)

theorem raise {fault : Fault} (h : F fault) :
    FaultsWithin F (Activity.raise fault : Activity σ Unit) := by
  apply Ensures.raise
  · intro id other id' heq
    cases heq
    exact h
  · intro c _ other heq
    cases heq
    exact h

end FaultsWithin
end Activity

open Activity (FaultsWithin)

theorem Action.IsQuiet.faultsWithin {x : Action σ} (h : x.IsQuiet) : FaultsWithin F x := by
  intro c hc
  constructor
  · intro fault hfault
    rw [h.error] at hfault
    exact hc fault hfault
  · intro e he fault id heq
    rw [heq] at he
    exact absurd he (h.raised c fault id)

/-!
## States
-/

namespace State

theorem callAll_faultsWithin {fault : Fault} (hfault : F fault) {actions : List (Action σ)}
    (h : forall x, x ∈ actions -> Action.IsQuiet x) :
    FaultsWithin F (callAll fault actions) := by
  induction actions with
  | nil => exact FaultsWithin.pure _
  | cons x rest ih =>
      have hrest := ih fun y hy => h y (List.mem_cons_of_mem _ hy)
      apply FaultsWithin.bind (h x List.mem_cons_self).faultsWithin
      intro result
      by_cases hdone : result ≠ .done
      · simp only [if_pos hdone]
        exact FaultsWithin.bind (FaultsWithin.raise hfault) fun _ => hrest
      · simp only [if_neg hdone]
        exact hrest

theorem cascade_faultsWithin {s : State σ} (h : forall x, x ∈ s.run -> Action.IsQuiet x)
    (limit : Nat) : FaultsWithin F (s.cascade limit) := by
  induction limit with
  | zero => exact FaultsWithin.pure _
  | succ limit ih =>
      apply FaultsWithin.bind FaultsWithin.look
      intro c
      cases hx : s.run[c.position.actionIndex.toNat]? with
      | none => exact FaultsWithin.pure _
      | some x =>
          apply FaultsWithin.bind (h x (List.mem_of_getElem? hx)).faultsWithin
          intro result
          apply FaultsWithin.bind FaultsWithin.look
          intro c'
          apply FaultsWithin.bind (FaultsWithin.tell fun _ _ hno => by cases hno)
          intro _
          cases result with
          | done => exact FaultsWithin.bind (FaultsWithin.change fun _ => Or.inl rfl) fun _ => ih
          | yield => exact FaultsWithin.pure _
          | loop =>
              exact FaultsWithin.bind (FaultsWithin.change fun _ => Or.inl rfl)
                fun _ => FaultsWithin.pure _
          | transition destination => exact FaultsWithin.pure _

theorem send_faultsWithin {s : State σ} (h : forall key x, (key, x) ∈ s.on -> Action.IsQuiet x)
    (hfault : F .handlerNotDone) (message : Envelope) : FaultsWithin F (s.send message) := by
  unfold send
  cases hx : s.handler? message.key with
  | none => exact FaultsWithin.pure _
  | some x =>
      have hcall : FaultsWithin F (callWith x message) := by
        intro c hc
        exact (h message.key x (mem_of_lookup_eq_some hx)).faultsWithin (c.lend message).1 hc
      apply FaultsWithin.bind hcall
      intro answer
      rcases answer with ⟨result, returned⟩
      cases result with
      | done => exact FaultsWithin.pure _
      | transition destination => exact FaultsWithin.pure _
      | yield =>
          exact FaultsWithin.bind (FaultsWithin.raise hfault)
            fun _ => FaultsWithin.pure _
      | loop =>
          exact FaultsWithin.bind (FaultsWithin.raise hfault)
            fun _ => FaultsWithin.pure _

end State

/-!
## Machines that go somewhere first
-/

def Action.Goes (x : Action σ) : Prop :=
  forall c, exists destination, (x c).value = .transition destination

def Action.Stays (x : Action σ) : Prop :=
  forall c destination, (x c).value ≠ .transition destination

namespace Machine

variable {m : Machine σ}

theorem transition_faultsWithin (h : m.IsConfined) (henter : F .enterActionNotDone)
    (hexit : F .exitActionNotDone) (hmissing : F .destinationMissing) (destination : UInt64) :
    FaultsWithin F (m.transition destination) := by
  rw [transition_eq]
  apply FaultsWithin.bind
  · apply FaultsWithin.bind FaultsWithin.look
    intro c
    cases hs : m.currentState? c with
    | none => exact FaultsWithin.pure _
    | some s =>
        have hconfined := (h.states s (mem_states_of_state? hs)).exit
        exact State.callAll_faultsWithin hexit fun x hx => (hconfined x hx).quiet
  · intro _
    refine FaultsWithin.bind (FaultsWithin.change fun _ => Or.inl rfl) fun _ => ?_
    cases hs : m.state? (destinationId destination) with
    | none => exact FaultsWithin.raise hmissing
    | some s =>
        have hconfined := (h.states s (mem_states_of_state? hs)).enter
        apply FaultsWithin.bind (FaultsWithin.tell fun _ _ hno => by cases hno)
        intro _
        exact State.callAll_faultsWithin henter fun x hx => (hconfined x hx).quiet

theorem obey_faultsWithin (h : m.IsConfined) (henter : F .enterActionNotDone)
    (hexit : F .exitActionNotDone) (hmissing : F .destinationMissing) (result : TickResult) :
    FaultsWithin F (m.obey result) := by
  cases result with
  | done => exact FaultsWithin.pure _
  | yield => exact FaultsWithin.pure _
  | loop => exact FaultsWithin.pure _
  | transition destination => exact transition_faultsWithin h henter hexit hmissing destination

theorem begin_eq (hgoes : m.enter.Goes) : m.begin = (do m.obey (← m.enter)) := by
  funext c
  rcases hgoes c with ⟨destination, hvalue⟩
  unfold begin
  simp only [Activity.bind_apply, hvalue]
  rfl

theorem proceed_eq (m : Machine σ) :
    m.proceed = (do
      match m.currentState? (← Activity.look) with
      | none => Activity.raise .currentStateMissing
      | some current => m.obey (← current.tick)) := by
  funext c
  unfold proceed
  simp only [Activity.bind_apply, Activity.look_apply, List.nil_append]
  cases m.currentState? c with
  | none => rfl
  | some current =>
      simp only [Activity.bind_apply]
      cases (current.tick c).value with
      | done => rfl
      | yield => rfl
      | loop => rfl
      | transition destination => rfl

theorem tick_faultsWithin (h : m.IsConfined) (hgoes : m.enter.Goes) :
    FaultsWithin (fun fault => fault ≠ .noFirstTransition) m.tick := by
  have hobey := fun result => obey_faultsWithin (F := fun fault => fault ≠ .noFirstTransition)
    h (by decide) (by decide) (by decide) result
  refine FaultsWithin.bind (FaultsWithin.change fun _ => Or.inr rfl) fun _ => ?_
  apply FaultsWithin.bind FaultsWithin.look
  intro c
  cases c.position.isStart with
  | true =>
      show FaultsWithin _ m.begin
      rw [begin_eq hgoes]
      exact FaultsWithin.bind h.enter.quiet.faultsWithin hobey
  | false =>
      show FaultsWithin _ m.proceed
      rw [proceed_eq]
      apply FaultsWithin.bind FaultsWithin.look
      intro c'
      cases hs : m.currentState? c' with
      | none => exact FaultsWithin.raise (by decide)
      | some s =>
          have hconfined := (h.states s (mem_states_of_state? hs)).run
          exact FaultsWithin.bind
            (State.cascade_faultsWithin (fun x hx => (hconfined x hx).quiet) _) hobey

theorem send_faultsWithin (h : m.IsConfined) (message : Envelope) :
    FaultsWithin (fun fault => fault ≠ .noFirstTransition) (m.send message) := by
  rw [send_eq]
  apply FaultsWithin.bind FaultsWithin.look
  intro c
  cases hs : m.currentState? c with
  | none => exact FaultsWithin.pure _
  | some s =>
      have hconfined := (h.states s (mem_states_of_state? hs)).on
      apply FaultsWithin.bind
        (State.send_faultsWithin (fun key x hx => (hconfined key x hx).quiet) (by decide) message)
      intro answer
      apply FaultsWithin.bind (obey_faultsWithin h (by decide) (by decide) (by decide) answer.1)
      intro _
      exact FaultsWithin.pure _

theorem perform_faultsWithin (h : m.IsConfined) (hgoes : m.enter.Goes) (op : Operation) :
    FaultsWithin (fun fault => fault ≠ .noFirstTransition) (m.perform op) := by
  cases op with
  | tick => exact FaultsWithin.bind (tick_faultsWithin h hgoes) fun _ => FaultsWithin.pure _
  | send message =>
      exact FaultsWithin.bind (send_faultsWithin h message) fun _ => FaultsWithin.pure _
  | reset | resetError =>
      exact FaultsWithin.bind (FaultsWithin.change fun _ => Or.inr rfl)
        fun _ => FaultsWithin.pure _

end Machine

theorem Fault.isFatal_eq_false_iff {fault : Fault} :
    fault.isFatal = false <-> fault.isLost = false ∧ fault ≠ .noFirstTransition := by
  cases fault <;> decide

structure Step.IsUnharmed (step : Step σ α) : Prop where
  error : step.context.Shows fun fault => fault.isFatal = false
  events : forall e, e ∈ step.events -> e.Raises fun fault => fault.isFatal = false

namespace Machine

variable {m : Machine σ}

/--
What holds of a context between two operations if the first action always goes somewhere.
-/
structure Serves (m : Machine σ) (c : Context σ) : Prop where
  hosts : m.Hosts c
  error : c.Shows fun fault => fault ≠ .noFirstTransition

theorem Serves.shows {c : Context σ} (h : m.Serves c) :
    c.Shows fun fault => fault.isFatal = false := by
  rcases h with ⟨⟨p, _, hat⟩, herror⟩
  intro fault hfault
  exact Fault.isFatal_eq_false_iff.mpr ⟨hat.found fault hfault, herror fault hfault⟩

theorem Serves.resetError {c : Context σ} (h : m.Serves c) : m.Serves c.resetError where
  hosts := by
    rcases h.hosts with ⟨p, hp, hat⟩
    exact ⟨p, hp, hat.position, fun _ hno => by cases hno⟩
  error := fun _ hno => by cases hno

theorem Serves.perform {c : Context σ} (h : m.IsConfined) (hgoes : m.enter.Goes)
    (hc : m.Serves c) (op : Operation) :
    (m.perform op c).IsUnharmed ∧ m.Serves (m.perform op c).context := by
  -- the two contracts exclude different faults, and together all fatal ones
  rcases perform_ensures h op c hc.hosts with ⟨hhosts, hharmless⟩
  rcases perform_faultsWithin h hgoes op c hc.error with ⟨hshows, hraises⟩
  have hserves : m.Serves (m.perform op c).context := ⟨hhosts, hshows⟩
  refine ⟨⟨hserves.shows, ?_⟩, hserves⟩
  intro e he fault id heq
  exact Fault.isFatal_eq_false_iff.mpr ⟨hharmless e he fault id heq, hraises e he fault id heq⟩

/-!
## Machines that go nowhere
-/

theorem tick_of_stays (hquiet : m.enter.IsQuiet) (hstays : m.enter.Stays) {c : Context σ}
    (hc : c.position = .start) :
    (m.tick c).context.position = .start ∧
      (m.tick c).context.lastError = some .noFirstTransition := by
  have hbegin : m.tick c = m.begin c.resetError := by
    have hstart : c.resetError.position.isStart = true := by
      rw [show c.resetError.position = .start from hc]
      rfl
    simp [tick, hstart]
  have hposition : (m.enter c.resetError).context.position = .start := by
    rw [hquiet.position]
    exact hc
  rw [hbegin]
  unfold begin
  cases hvalue : (m.enter c.resetError).value with
  | done | yield | loop =>
      simp only [Activity.bind_apply, hvalue]
      exact ⟨hposition, rfl⟩
  | transition destination => exact absurd hvalue (hstays _ destination)

theorem send_at_start (m : Machine σ) (message : Envelope) {c : Context σ}
    (hc : c.position = .start) : m.send message c = ⟨(.done, message), c, []⟩ := by
  have hnone : m.currentState? c = none := by
    rw [currentState?, hc]
    rfl
  rw [send_eq]
  simp only [Activity.bind_apply, Activity.look_apply, hnone]
  rfl

end Machine
end BehaviorScript
