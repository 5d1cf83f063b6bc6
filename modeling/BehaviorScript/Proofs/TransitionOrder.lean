import BehaviorScript.Proofs.CallSites
import BehaviorScript.Proofs.LostPositions

/-!
# Transitions exit first and then enter

A transition calls the exit actions of the state that the context is in, moves the position, and
calls the enter actions of the destination.  The actions may do anything: answer with
transitions, reset the context, or move the position themselves.  None of this changes which
actions are called, because the two lists are fixed when they are begun.  So neither a tick nor a
message carries out more than one transition, and nothing is run after it.
-/

namespace BehaviorScript

variable {σ : Type}

/-!
## Calls of a section
-/

/--
The notes are of all actions of a section of state `k`, each of them once and in their order, and
the first of them sees the given context.
-/
structure Note.AreCallsOf (role : Role) (k : Nat) (actions : List (Action σ)) (first : Context σ)
    (notes : List (Note σ)) : Prop where
  sites : notes.map Note.site = (List.range actions.length).map (Site.mk role k)
  genuine : forall n, n ∈ notes -> n.IsCallIn actions
  seen : forall n, notes.head? = some n -> n.seen = first

theorem Note.areCallsOf_nil (role : Role) (k : Nat) (first : Context σ) :
    AreCallsOf role k [] first [] where
  sites := rfl
  genuine := by simp
  seen := by simp

theorem Note.AreCallsOf.role_eq {role : Role} {k : Nat} {actions : List (Action σ)}
    {first : Context σ} {notes : List (Note σ)} (h : AreCallsOf role k actions first notes)
    {n : Note σ} (hn : n ∈ notes) : n.site.role = role := by
  have hsite : n.site ∈ notes.map Note.site := List.mem_map_of_mem hn
  rw [h.sites] at hsite
  rcases List.mem_map.mp hsite with ⟨i, _, hi⟩
  rw [← hi]

namespace State

theorem sites_callNotes (fault : Fault) (role : Role) (k i : Nat) (actions : List (Action σ))
    (c : Context σ) :
    (callNotes fault role k i actions c).map Note.site =
      (List.range' i actions.length).map (Site.mk role k) := by
  induction actions generalizing i c with
  | nil => rfl
  | cons x rest ih =>
      rw [callNotes, List.map_cons, ih, List.length_cons, List.range'_succ, List.map_cons]
      rfl

theorem exists_of_mem_callNotes {fault : Fault} {role : Role} {k i : Nat}
    {actions : List (Action σ)} {c : Context σ} {n : Note σ}
    (h : n ∈ callNotes fault role k i actions c) :
    exists j x, n.site.index = i + j ∧ actions[j]? = some x ∧ n = x.note n.site n.seen := by
  induction actions generalizing i c with
  | nil => cases h
  | cons x rest ih =>
      rcases List.mem_cons.mp h with rfl | hrest
      · exact ⟨0, x, rfl, rfl, rfl⟩
      · rcases ih hrest with ⟨j, y, hj, hy, hn⟩
        exact ⟨j + 1, y, by rw [hj, Nat.add_right_comm]; rfl, hy, hn⟩

theorem areCallsOf_callNotes (fault : Fault) (role : Role) (k : Nat) (actions : List (Action σ))
    (c : Context σ) :
    Note.AreCallsOf role k actions c (callNotes fault role k 0 actions c) where
  sites := by
    rw [sites_callNotes, List.range_eq_range']
  genuine := by
    intro n hn
    rcases exists_of_mem_callNotes hn with ⟨j, x, hj, hx, hnote⟩
    rw [Nat.zero_add] at hj
    exact ⟨x, hj ▸ hx, hnote⟩
  seen := by
    intro n hn
    cases actions with
    | nil => cases hn
    | cons x rest =>
        cases hn
        rfl

/-!
## Answers of a section
-/

end State

/-!
## Transitions
-/

namespace Machine

def exitsOf (m : Machine σ) (id : Int32) : List (Action σ) :=
  match m.state? id with
  | none => []
  | some s => s.exit

def entersOf (m : Machine σ) (id : Int32) : List (Action σ) :=
  match m.state? id with
  | none => []
  | some s => s.enter

/--
The transition from a context to a destination: the exit actions of the state that the context is in
are called first, then the position is moved to the start of the destination, and then the
enter actions of the destination are called, the first of them in that position.
-/
structure Passes (m : Machine σ) (destination : UInt64) (c : Context σ) : Prop where
  number : (destinationId destination).toInt = min destination.toNat (2 ^ 31 - 1)
  faithful : (m.noted.transition destination c.noted).unnoted = m.transition destination c
  calls : exists exits enters,
    (m.noted.transition destination c.noted).notes = exits ++ enters ∧
      Note.AreCallsOf .exit c.position.stateId.toInt.toNat (m.exitsOf c.position.stateId) c exits ∧
      Note.AreCallsOf .enter (destinationId destination).toInt.toNat
        (m.entersOf (destinationId destination))
        ((m.leave c).context.moveTo ⟨destinationId destination, 0⟩) enters ∧
      (enters = [] ->
        (m.transition destination c).context.position = ⟨destinationId destination, 0⟩)

theorem areCallsOf_exitNotes (m : Machine σ) (c : Context σ) :
    Note.AreCallsOf .exit c.position.stateId.toInt.toNat (m.exitsOf c.position.stateId) c
      (m.exitNotes c) := by
  unfold exitsOf exitNotes currentState?
  cases m.state? c.position.stateId with
  | none => exact Note.areCallsOf_nil _ _ _
  | some s => exact State.areCallsOf_callNotes _ _ _ _ _

theorem areCallsOf_enterNotes (m : Machine σ) (destination : UInt64) (c : Context σ) :
    Note.AreCallsOf .enter (destinationId destination).toInt.toNat
      (m.entersOf (destinationId destination)) (c.moveTo ⟨destinationId destination, 0⟩)
      (m.enterNotes destination c) := by
  unfold entersOf enterNotes
  cases m.state? (destinationId destination) with
  | none => exact Note.areCallsOf_nil _ _ _
  | some s => exact State.areCallsOf_callNotes _ _ _ _ _

theorem position_arrive {m : Machine σ} {destination : UInt64} {c : Context σ}
    (h : m.enterNotes destination c = []) :
    (m.arrive destination c).context.position = ⟨destinationId destination, 0⟩ := by
  unfold enterNotes at h
  unfold arrive
  simp only [Activity.bind_apply, Activity.change_apply]
  cases hs : m.state? (destinationId destination) with
  | none => rfl
  | some s =>
      simp only [hs] at h
      cases henter : s.enter with
      | nil => simp [State.callEnter, henter, State.callAll, Context.moveTo]
      | cons x rest =>
          rw [henter, State.callNotes] at h
          exact absurd h (List.cons_ne_nil _ _)

theorem passes (m : Machine σ) (destination : UInt64) (c : Context σ) :
    m.Passes destination c := by
  rcases (m.transition_notes destination).of_noted c with ⟨hfaithful, hnotes⟩
  refine ⟨toInt_destinationId destination, hfaithful, m.exitNotes c,
    m.enterNotes destination (m.leave c).context, hnotes, m.areCallsOf_exitNotes c,
    m.areCallsOf_enterNotes destination _, ?_⟩
  intro hnone
  rw [transition_eq]
  exact position_arrive hnone

/-!
## Ticks and messages
-/

variable {m : Machine σ}

end Machine

end BehaviorScript
