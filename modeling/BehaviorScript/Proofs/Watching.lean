import BehaviorScript.Proofs.Correspondence

/-!
# Watched machines

What an action sees is the context it is called with.  To speak of all the calls that a
machine makes, its actions are watched: each of them notes its section and the context
it sees, in a log that is kept beside the data of the host, and then acts as before.  A
watched machine stays side by side with the machine itself, so its log tells of the
machine.
-/

namespace BehaviorScript

variable {σ α : Type}

/-!
## Logs beside the data
-/

/--
The sections that actions belong to.  The machine's own action, which picks the first state, has
one of its own.
-/
inductive Role where
  | start
  | enter
  | exit
  | run
  | handler
  deriving DecidableEq, Repr

structure Sighting (σ : Type) where
  role : Role
  seen : Context σ
  deriving DecidableEq, Repr

abbrev Watched (σ : Type) : Type :=
  σ × List (Sighting σ)

namespace Context

def withData {τ : Type} (c : Context σ) (data : τ) : Context τ :=
  { position := c.position
    lastError := c.lastError
    slot := c.slot
    hasMessage := c.hasMessage
    data := data }

def watched (c : Context σ) : Context (Watched σ) :=
  c.withData (c.data, [])

def unwatched (c : Context (Watched σ)) : Context σ :=
  c.withData c.data.1

end Context

def Step.unwatched (s : Step (Watched σ) α) : Step σ α :=
  ⟨s.value, s.context.unwatched, s.events⟩

def Action.watch (role : Role) (x : Action σ) : Action (Watched σ) :=
  fun c =>
    let step := x c.unwatched
    ⟨step.value, step.context.withData (step.context.data, c.data.2 ++ [⟨role, c.unwatched⟩]),
      step.events⟩

def State.watch (s : State σ) : State (Watched σ) where
  name := s.name
  run := s.run.map (Action.watch .run)
  enter := s.enter.map (Action.watch .enter)
  exit := s.exit.map (Action.watch .exit)
  on := s.on.map fun (key, x) => (key, Action.watch .handler x)

def Machine.watch (m : Machine σ) : Machine (Watched σ) where
  name := m.name
  enter := Action.watch .start m.enter
  states := m.states.map State.watch

theorem State.handler?_watch (s : State σ) (key : String) :
    s.watch.handler? key = (s.handler? key).map (Action.watch .handler) := by
  show (s.on.map _).lookup key = (s.on.lookup key).map _
  induction s.on with
  | nil => rfl
  | cons entry rest ih =>
      rcases entry with ⟨k, x⟩
      rw [List.map_cons, List.lookup_cons, List.lookup_cons]
      cases key == k with
      | true => rfl
      | false => exact ih

/-!
## Side by side with the machine itself
-/

inductive Machine.HasAction (m : Machine σ) : Role -> Action σ -> Prop where
  | start : HasAction m .start m.enter
  | enter {s : State σ} {x : Action σ} : s ∈ m.states -> x ∈ s.enter -> HasAction m .enter x
  | exit {s : State σ} {x : Action σ} : s ∈ m.states -> x ∈ s.exit -> HasAction m .exit x
  | run {s : State σ} {x : Action σ} : s ∈ m.states -> x ∈ s.run -> HasAction m .run x
  | handler {s : State σ} {key : String} {x : Action σ} :
      s ∈ m.states -> (key, x) ∈ s.on -> HasAction m .handler x

/--
To relate a watched machine to the machine itself it is enough to relate each action to itself, a
handler while it holds the message that is handed over.
-/
theorem Machine.watch_relates {m : Machine σ} {R : Context (Watched σ) -> Context σ -> Prop}
    {lent : Option Envelope}
    (hcall : forall role x, m.HasAction role x -> role ≠ .handler ->
      Activity.Relates R (Action.watch role x) x)
    (hhandler : forall x message, m.HasAction .handler x -> lent = some message ->
      Activity.Relates R (State.callWith (Action.watch .handler x) message)
        (State.callWith x message)) :
    m.watch.Relates R lent m := by
  have hsection : forall (role : Role) (actions : List (Action σ)), role ≠ .handler ->
      (forall x, x ∈ actions -> m.HasAction role x) ->
      List.Forall₂ (Activity.Relates R) (actions.map (Action.watch role)) actions := by
    intro role actions hrole hactions
    apply List.forall₂_map_left_iff.mpr
    apply List.forall₂_same.mpr
    intro x hx
    exact hcall role x (hactions x hx) hrole
  refine ⟨rfl, hcall .start m.enter HasAction.start (by decide), ?_⟩
  apply List.forall₂_map_left_iff.mpr
  apply List.forall₂_same.mpr
  intro s hs
  exact {
    name := rfl
    enter := hsection .enter s.enter (by decide) fun x hx => HasAction.enter hs hx
    exit := hsection .exit s.exit (by decide) fun x hx => HasAction.exit hs hx
    run := hsection .run s.run (by decide) fun x hx => HasAction.run hs hx
    on := by
      intro message hlent
      rw [State.handler?_watch]
      cases hx : s.handler? message.key with
      | none => exact Option.Rel.none
      | some x =>
          have haction := HasAction.handler hs (mem_of_lookup_eq_some hx)
          exact Option.Rel.some (hhandler x message haction hlent) }

def Context.IsWatchedAs (c : Context (Watched σ)) (d : Context σ) : Prop :=
  c.unwatched = d

theorem Context.isStable_isWatchedAs : IsStable (IsWatchedAs (σ := σ)) where
  position := by
    rintro c d rfl
    rfl
  moveTo := by
    rintro c d p rfl
    rfl
  raise := by
    rintro c d fault rfl
    rfl
  resetError := by
    rintro c d rfl
    rfl
  reset := by
    rintro c d rfl
    rfl

theorem Machine.watch_relates_self (m : Machine σ) (lent : Option Envelope) :
    m.watch.Relates Context.IsWatchedAs lent m := by
  apply watch_relates
  · rintro role x _ _ c d rfl
    exact ⟨rfl, rfl, rfl⟩
  · rintro x message _ _ c d rfl
    exact ⟨rfl, rfl, rfl⟩

theorem Activity.Relates.unwatched_eq {x : Activity (Watched σ) α} {y : Activity σ α}
    (h : Relates Context.IsWatchedAs x y) (c : Context σ) : (x c.watched).unwatched = y c := by
  rcases h c.watched c rfl with ⟨hvalue, hevents, hcontext⟩
  rw [Step.unwatched, hvalue, hevents, hcontext]

end BehaviorScript
