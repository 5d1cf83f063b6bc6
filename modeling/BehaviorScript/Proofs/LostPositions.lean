import BehaviorScript.Proofs.LentMessages

/-!
# Lost positions

A host may write any number into a position, and an action may ask for any destination, so an
instance can come to stand where there is no state.  It is then lost: no action is called any
more, and nothing changes but the error, until the host resets the instance and it starts over.
A transition alone can not bring it back to the start, because the destinations beyond the
largest state number all stand for that number.
-/

namespace BehaviorScript

variable {σ : Type}

/-!
## Where a transition leads
-/

namespace Machine

theorem toInt_destinationId (destination : UInt64) :
    (destinationId destination).toInt = min destination.toNat (2 ^ 31 - 1) := by
  unfold destinationId maxStateId
  rw [Int32.toInt_ofNat_of_lt (by omega)]
  omega

theorem state?_destinationId {m : Machine σ} (hsize : m.states.length < 2 ^ 31)
    (destination : UInt64) :
    m.state? (destinationId destination) = m.states[destination.toNat]? := by
  have hid := toInt_destinationId destination
  unfold state?
  rw [hid, if_pos (by omega)]
  by_cases hlt : destination.toNat < 2 ^ 31
  · congr 1
    omega
  · rw [List.getElem?_eq_none (by omega), List.getElem?_eq_none (by omega)]

/--
The instance was started, and stands at a number that no state has.
-/
structure IsLost (m : Machine σ) (c : Context σ) : Prop where
  started : c.position.stateId ≠ -1
  missing : m.currentState? c = none

/--
The transition from a context: the exit actions are called first, then the position is moved to the
start of the destination, and the first enter action sees it there.  What is called is told by the
watched machine, which comes to the same.  A destination that no state has leaves the instance lost.
-/
structure Lands (m : Machine σ) (destination : UInt64) (c : Context σ) : Prop where
  number : (destinationId destination).toInt = min destination.toNat (2 ^ 31 - 1)
  nonneg : 0 ≤ (destinationId destination).toInt
  state : m.state? (destinationId destination) = m.states[destination.toNat]?
  watched : (m.watch.transition destination c.watched).unwatched = m.transition destination c
  calls : exists exits enters,
    (m.watch.transition destination c.watched).context.data.2 = exits ++ enters ∧
      (forall s, s ∈ exits -> s.role = .exit) ∧
      (forall s, s ∈ enters -> s.role = .enter) ∧
      (forall s, enters.head? = some s -> s.seen.position = ⟨destinationId destination, 0⟩) ∧
      (enters = [] ->
        (m.transition destination c).context.position = ⟨destinationId destination, 0⟩)
  lost : m.states.length ≤ destination.toNat -> m.IsLost (m.transition destination c).context

end Machine

/-!
## The calls of a transition
-/

structure Sighting.AreFrom (role : Role) (first : Context σ) (new : List (Sighting σ)) : Prop where
  role_eq : forall s, s ∈ new -> s.role = role
  seen_eq : forall s, new.head? = some s -> s.seen = first

theorem State.callAll_watch (role : Role) (fault : Fault) (actions : List (Action σ))
    (c : Context (Watched σ)) :
    exists new, (callAll fault (actions.map (Action.watch role)) c).context.data.2 =
        c.data.2 ++ new ∧
      Sighting.AreFrom role c.unwatched new ∧
      (new = [] -> (callAll fault (actions.map (Action.watch role)) c).context = c) := by
  induction actions generalizing c with
  | nil => exact ⟨[], by simp [callAll], ⟨by simp, by simp⟩, fun _ => rfl⟩
  | cons x rest ih =>
      let first : Sighting σ := ⟨role, c.unwatched⟩
      let called := Action.watch role x c
      -- the context that the rest of the section begins with, whether or not a fault was raised
      have hrest : exists d : Context (Watched σ), d.data.2 = c.data.2 ++ [first] ∧
          (callAll fault ((x :: rest).map (Action.watch role)) c).context =
            (callAll fault (rest.map (Action.watch role)) d).context := by
        by_cases hdone : called.value = .done
        · refine ⟨called.context, rfl, ?_⟩
          simp [callAll, called, hdone]
        · refine ⟨{ called.context with lastError := some fault }, rfl, ?_⟩
          simp [callAll, called, hdone]
      rcases hrest with ⟨d, hd, heq⟩
      rcases ih d with ⟨new, hnew, hfrom, _⟩
      refine ⟨first :: new, ?_, ⟨?_, ?_⟩, ?_⟩
      · rw [heq, hnew, hd, List.append_assoc]
        rfl
      · intro s hs
        rcases List.mem_cons.mp hs with rfl | hs
        · rfl
        · exact hfrom.role_eq s hs
      · intro s hs
        cases hs
        rfl
      · intro hno
        cases hno

namespace Machine

variable {m : Machine σ}

theorem state?_watch (m : Machine σ) (id : Int32) :
    m.watch.state? id = (m.state? id).map State.watch := by
  unfold state?
  split
  · exact List.getElem?_map
  · rfl

theorem leave_watch (m : Machine σ) (c : Context (Watched σ)) :
    exists new, (m.watch.leave c).context.data.2 = c.data.2 ++ new ∧
      forall s, s ∈ new -> s.role = .exit := by
  unfold leave
  simp only [Activity.bind_apply, Activity.look_apply, currentState?, state?_watch]
  cases m.state? c.position.stateId with
  | none => exact ⟨[], by simp, by simp⟩
  | some s =>
      rcases State.callAll_watch .exit .exitActionNotDone s.exit c with ⟨new, hnew, hfrom, _⟩
      exact ⟨new, hnew, hfrom.role_eq⟩

theorem arrive_watch (m : Machine σ) (destination : UInt64) (c : Context (Watched σ)) :
    exists new, (m.watch.arrive destination c).context.data.2 = c.data.2 ++ new ∧
      Sighting.AreFrom .enter (c.moveTo ⟨destinationId destination, 0⟩).unwatched new ∧
      (new = [] -> (m.watch.arrive destination c).context.position =
        ⟨destinationId destination, 0⟩) := by
  unfold arrive
  simp only [Activity.bind_apply, Activity.change_apply, state?_watch]
  cases m.state? (destinationId destination) with
  | none => exact ⟨[], by simp [Context.moveTo], ⟨by simp, by simp⟩, fun _ => rfl⟩
  | some s =>
      rcases State.callAll_watch .enter .enterActionNotDone s.enter
        (c.moveTo ⟨destinationId destination, 0⟩) with ⟨new, hnew, hfrom, hnone⟩
      refine ⟨new, hnew, hfrom, ?_⟩
      intro hno
      exact congrArg (fun d : Context (Watched σ) => d.position) (hnone hno)

theorem arrive_eq_raise (hsize : m.states.length < 2 ^ 31) {destination : UInt64}
    (hlost : m.states.length ≤ destination.toNat) (c : Context σ) :
    m.arrive destination c =
      Activity.raise .destinationMissing (c.moveTo ⟨destinationId destination, 0⟩) := by
  have hnone : m.state? (destinationId destination) = none := by
    rw [state?_destinationId hsize, List.getElem?_eq_none hlost]
  unfold arrive
  rw [hnone]
  rfl

theorem isLost_transition (hsize : m.states.length < 2 ^ 31) {destination : UInt64}
    (hlost : m.states.length ≤ destination.toNat) (c : Context σ) :
    m.IsLost (m.transition destination c).context := by
  rw [transition_eq, Activity.bind_apply, arrive_eq_raise hsize hlost]
  constructor
  · intro hstart
    have hid := toInt_destinationId destination
    have hstart : destinationId destination = -1 := hstart
    rw [hstart] at hid
    have hminus : (-1 : Int32).toInt = -1 := by decide
    omega
  · show m.state? (destinationId destination) = none
    rw [state?_destinationId hsize, List.getElem?_eq_none hlost]

theorem lands (hsize : m.states.length < 2 ^ 31) (destination : UInt64) (c : Context σ) :
    m.Lands destination c where
  number := toInt_destinationId destination
  nonneg := by
    rw [toInt_destinationId]
    omega
  state := state?_destinationId hsize destination
  watched := by
    have hrelates := transition_relates Context.isStable_isWatchedAs (m.watch_relates_self none)
      destination
    exact hrelates.unwatched_eq c
  calls := by
    have hrelates := transition_relates Context.isStable_isWatchedAs (m.watch_relates_self none)
      destination
    have hcontext := (hrelates c.watched c rfl).2.2
    rcases m.leave_watch c.watched with ⟨exits, hexits, hexit⟩
    rcases m.arrive_watch destination (m.watch.leave c.watched).context with
      ⟨enters, henters, hfrom, hnone⟩
    rw [transition_eq] at hcontext ⊢
    refine ⟨exits, enters, ?_, hexit, hfrom.role_eq, ?_, ?_⟩
    · rw [Activity.bind_apply, henters, hexits]
      rfl
    · intro s hs
      rw [hfrom.seen_eq s hs]
      rfl
    · intro hno
      rw [← hcontext]
      exact hnone hno
  lost hlost := isLost_transition hsize hlost c

/-!
## Nothing happens to a lost instance
-/

/--
The turn calls no action, leaves everything but the error as it was, lets a message pass, and
ends a tick with the error of a missing state.
-/
structure IsStuckTurn (m : Machine σ) (c : Context σ) (t : Turn σ) : Prop where
  uncalled : m.sightings t = []
  watched : (m.watch.undergo t.call t.before.watched).unwatched = t.step
  unchanged : t.step.context.resetError = c.resetError
  answer : forall message, t.call = .operate (.send message) ->
    t.step.value = some (.done, message)
  error : t.call = .operate .tick -> t.step.context.lastError = some .currentStateMissing

theorem IsLost.of_resetError_eq {c d : Context σ} (h : m.IsLost c)
    (heq : d.resetError = c.resetError) : m.IsLost d := by
  have hposition : d.position = c.position := by
    show d.resetError.position = c.resetError.position
    rw [heq]
  constructor
  · rw [hposition]
    exact h.started
  · unfold currentState?
    rw [hposition]
    exact h.missing

theorem IsLost.watch {c : Context σ} (h : m.IsLost c) : m.watch.IsLost c.watched := by
  constructor
  · exact h.started
  · show m.watch.state? c.position.stateId = none
    rw [state?_watch]
    have hmissing : m.state? c.position.stateId = none := h.missing
    rw [hmissing, Option.map_none]

theorem IsLost.tick_eq {c : Context σ} (h : m.IsLost c) :
    m.tick c = Activity.raise .currentStateMissing c.resetError := by
  have hstart : c.resetError.position.isStart = false := by
    simp [Context.resetError, Position.isStart, h.started]
  have hmissing : m.currentState? c.resetError = none := h.missing
  have htick : m.tick c = m.proceed c.resetError := by
    simp [tick, hstart]
  rw [htick]
  simp [proceed, hmissing]

theorem IsLost.send_eq {c : Context σ} (h : m.IsLost c) (message : Envelope) :
    m.send message c = ⟨(.done, message), c, []⟩ := by
  unfold send
  simp only [Activity.bind_apply, Activity.look_apply, h.missing]
  rfl

theorem IsLost.undergo_unchanged {c : Context σ} (h : m.IsLost c) {call : HostCall}
    (hcall : call ≠ .operate .reset) : (m.undergo call c).context.resetError = c.resetError := by
  cases call with
  | raise fault => rfl
  | operate op =>
      cases op with
      | tick =>
          show (m.tick c).context.resetError = c.resetError
          rw [h.tick_eq]
          rfl
      | send message =>
          show (m.send message c).context.resetError = c.resetError
          rw [h.send_eq]
      | reset => exact absurd rfl hcall
      | resetError => rfl

theorem IsLost.isStuckTurn {c : Context σ} (h : m.IsLost c) {call : HostCall}
    (hcall : call ≠ .operate .reset) : m.IsStuckTurn c ⟨c, call, m.undergo call c⟩ where
  uncalled := by
    have hdata : (m.watch.undergo call c.watched).context.resetError.data = (c.data, []) := by
      rw [h.watch.undergo_unchanged hcall]
      rfl
    exact congrArg Prod.snd hdata
  watched := by
    apply Activity.Relates.unwatched_eq
    cases call with
    | operate op => exact perform_relates Context.isStable_isWatchedAs (m.watch_relates_self _)
    | raise fault =>
        exact Activity.Relates.bind (Activity.Relates.raise Context.isStable_isWatchedAs)
          fun _ => Activity.Relates.pure
  unchanged := h.undergo_unchanged hcall
  answer := by
    intro message hsend
    subst hsend
    show some (m.send message c).value = _
    rw [h.send_eq]
  error := by
    intro htick
    subst htick
    show (m.tick c).context.lastError = _
    rw [h.tick_eq]
    rfl

theorem IsStuckTurn.of_resetError_eq {c d : Context σ} (heq : d.resetError = c.resetError)
    {t : Turn σ} (h : m.IsStuckTurn d t) : m.IsStuckTurn c t :=
  { h with unchanged := h.unchanged.trans heq }

theorem IsLost.isStuckTurn_of_mem_turns {c : Context σ} (h : m.IsLost c) {calls : List HostCall}
    (hcalls : forall call, call ∈ calls -> call ≠ .operate .reset) {t : Turn σ}
    (ht : t ∈ m.turns calls c) : m.IsStuckTurn c t := by
  induction calls generalizing c with
  | nil => cases ht
  | cons call rest ih =>
      have hcall := hcalls call List.mem_cons_self
      have hkept := h.undergo_unchanged hcall
      rcases List.mem_cons.mp ht with rfl | hrest
      · exact h.isStuckTurn hcall
      · have hlater := ih (h.of_resetError_eq hkept)
          (fun call hmem => hcalls call (List.mem_cons_of_mem _ hmem)) hrest
        exact hlater.of_resetError_eq hkept

end Machine

/--
A transition to any destination stands at the number of the destination, or at the largest number,
before any enter action is called, and so never before the start.  An instance whose number no
state has stays as it is whatever the host does short of a reset: no action is called, a message
passes, and a tick ends with the error of a missing state.  After a reset it is as good as new.
-/
theorem lost_until_reset (m : Machine σ) (hsize : m.states.length < 2 ^ 31) :
    (forall destination c, m.Lands destination c) ∧
      forall c, m.IsLost c ->
        (forall calls, (forall call, call ∈ calls -> call ≠ .operate .reset) ->
          forall t, t ∈ m.turns calls c -> m.IsStuckTurn c t) ∧
        (c.slot = .blank -> m.tick c.reset = m.tick (.fresh c.data)) := by
  constructor
  · intro destination c
    exact Machine.lands hsize destination c
  · intro c hlost
    constructor
    · intro calls hcalls t ht
      exact hlost.isStuckTurn_of_mem_turns hcalls ht
    · intro hslot
      rw [Context.reset, hslot]
      rfl

def Machine.relayLost : Context Nat :=
  { position := ⟨2147483647, 3⟩, lastError := some .destinationMissing, data := 5 }

theorem lost_until_reset_relay :
    Machine.relay.states.length < 2 ^ 31 ∧
      Machine.relay.Lands 18446744073709551615 (.fresh 0) ∧
      (Machine.destinationId 18446744073709551615).toInt = 2147483647 ∧
      Machine.relay.IsLost Machine.relayLost ∧
      (forall t, t ∈ Machine.relay.turns Machine.relayCalls Machine.relayLost ->
        Machine.relay.IsStuckTurn Machine.relayLost t) ∧
      Machine.relay.tick Machine.relayLost.reset = Machine.relay.tick (.fresh 5) := by
  have hsize : Machine.relay.states.length < 2 ^ 31 := by decide
  have hlost : Machine.relay.IsLost Machine.relayLost := ⟨by decide, rfl⟩
  rcases lost_until_reset Machine.relay hsize with ⟨hlands, hstuck⟩
  rcases hstuck Machine.relayLost hlost with ⟨hturns, hrenewed⟩
  refine ⟨hsize, hlands _ _, by decide, hlost, ?_, hrenewed rfl⟩
  apply hturns
  decide

end BehaviorScript
