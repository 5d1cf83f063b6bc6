import BehaviorScript.Proofs.Watching

/-!
# Messages are only lent

A message is swapped into the slot of a context for the length of one handler call, and
swapped out again before anything else happens.  Actions cannot reach the slot: they may
move the position, raise and clear errors, reset the context and change its data, and all
of this leaves the slot alone.  So the message always comes back as it was, only its
handler ever sees it, and between two calls of the host the slot is blank.
-/

namespace BehaviorScript

variable {σ : Type}

/-!
## What actions may do
-/

inductive PublicCall (σ : Type) where
  | moveTo (p : Position)
  | raise (fault : Fault)
  | resetError
  | reset
  | setData (data : σ)

namespace Context

def apply (c : Context σ) : PublicCall σ -> Context σ
  | .moveTo p => c.moveTo p
  | .raise fault => { c with lastError := some fault }
  | .resetError => c.resetError
  | .reset => c.reset
  | .setData data => { c with data := data }

def applyAll (c : Context σ) (calls : List (PublicCall σ)) : Context σ :=
  calls.foldl apply c

theorem slot_applyAll (c : Context σ) (calls : List (PublicCall σ)) :
    (c.applyAll calls).slot = c.slot := by
  induction calls generalizing c with
  | nil => rfl
  | cons call rest ih =>
      have hstep : (c.apply call).slot = c.slot := by
        cases call with
        | moveTo | raise | resetError | reset | setData => rfl
      exact (ih (c.apply call)).trans hstep

theorem hasMessage_applyAll {c : Context σ} (h : c.hasMessage = false)
    (calls : List (PublicCall σ)) : (c.applyAll calls).hasMessage = false := by
  induction calls generalizing c with
  | nil => exact h
  | cons call rest ih =>
      have hstep : (c.apply call).hasMessage = false := by
        cases call with
        | moveTo | raise | resetError | setData => exact h
        | reset => rfl
      exact ih hstep

theorem currentMessage?_eq_none_iff {c : Context σ} :
    c.currentMessage? = none <-> c.hasMessage = false := by
  simp [currentMessage?]

end Context

def Action.IsPublic (x : Action σ) : Prop :=
  forall c, exists calls, (x c).context = c.applyAll calls

def Machine.IsPublic (m : Machine σ) : Prop :=
  forall role x, m.HasAction role x -> x.IsPublic

/-!
## What actions see
-/

/--
Only a handler sees the message that is lent.  No other action sees one, whatever it does.
-/
inductive Sighting.IsProper (lent : Option Envelope) (s : Sighting σ) : Prop where
  | handler {message : Envelope} :
      s.role = .handler -> lent = some message -> s.seen.currentMessage? = some message ->
      IsProper lent s
  | other :
      s.role ≠ .handler -> (forall calls, (s.seen.applyAll calls).currentMessage? = none) ->
      IsProper lent s

/--
The contexts agree on all but the log.  No message is in them, and all that was seen so far was
proper.
-/
structure Context.Watches (lent : Option Envelope) (c : Context (Watched σ)) (d : Context σ) :
    Prop where
  same : c.unwatched = d
  slot : d.slot = .blank
  message : d.hasMessage = false
  proper : forall s, s ∈ c.data.2 -> s.IsProper lent

theorem Context.isStable_watches (lent : Option Envelope) :
    Context.IsStable (Context.Watches (σ := σ) lent) where
  position := by
    rintro c d ⟨rfl, hslot, hmessage, hproper⟩
    rfl
  moveTo := by
    rintro c d p ⟨rfl, hslot, hmessage, hproper⟩
    exact ⟨rfl, hslot, hmessage, hproper⟩
  raise := by
    rintro c d fault ⟨rfl, hslot, hmessage, hproper⟩
    exact ⟨rfl, hslot, hmessage, hproper⟩
  resetError := by
    rintro c d ⟨rfl, hslot, hmessage, hproper⟩
    exact ⟨rfl, hslot, hmessage, hproper⟩
  reset := by
    rintro c d ⟨rfl, hslot, hmessage, hproper⟩
    exact ⟨rfl, hslot, rfl, hproper⟩

theorem Action.watch_relates {lent : Option Envelope} {role : Role} (hrole : role ≠ .handler)
    {x : Action σ} (hx : x.IsPublic) :
    Activity.Relates (Context.Watches lent) (watch role x) x := by
  rintro c d ⟨rfl, hslot, hmessage, hproper⟩
  rcases hx c.unwatched with ⟨calls, hcalls⟩
  refine ⟨rfl, rfl, rfl, ?_, ?_, ?_⟩
  · rw [hcalls, Context.slot_applyAll, hslot]
  · rw [hcalls, Context.hasMessage_applyAll hmessage]
  · intro s hs
    rcases List.mem_append.mp hs with hold | hnew
    · exact hproper s hold
    · rw [List.mem_singleton.mp hnew]
      apply Sighting.IsProper.other hrole
      intro calls
      rw [Context.currentMessage?_eq_none_iff, Context.hasMessage_applyAll hmessage]

theorem State.callWith_relates (x : Action σ) (message : Envelope) :
    Activity.Relates (Context.Watches (some message)) (callWith (Action.watch .handler x) message)
      (callWith x message) := by
  rintro c d ⟨rfl, hslot, hmessage, hproper⟩
  -- whatever the handler did, the slot gets back what was taken out of it before
  refine ⟨rfl, rfl, rfl, hslot, rfl, ?_⟩
  intro s hs
  rcases List.mem_append.mp hs with hold | hnew
  · exact hproper s hold
  · rw [List.mem_singleton.mp hnew]
    exact Sighting.IsProper.handler rfl rfl rfl

theorem Machine.IsPublic.watch_relates {m : Machine σ} (h : m.IsPublic)
    (lent : Option Envelope) : m.watch.Relates (Context.Watches lent) lent m := by
  apply Machine.watch_relates
  · intro role x hx hrole
    exact Action.watch_relates hrole (h role x hx)
  · rintro x message _ rfl
    exact State.callWith_relates x message

/-!
## What comes back
-/

theorem State.callWith_returns {x : Action σ} (hx : x.IsPublic) (message : Envelope)
    (c : Context σ) : (callWith x message c).value.2 = message := by
  rcases hx (c.lend message).1 with ⟨calls, hcalls⟩
  show (x (c.lend message).1).context.slot = message
  rw [hcalls, Context.slot_applyAll]
  rfl

theorem State.send_returns {s : State σ} (h : forall key x, (key, x) ∈ s.on -> Action.IsPublic x)
    (message : Envelope) (c : Context σ) : (s.send message c).value.2 = message := by
  unfold send
  cases hx : s.handler? message.key with
  | none => rfl
  | some x =>
      have hpublic := h message.key x (mem_of_lookup_eq_some hx)
      have hreturned := callWith_returns hpublic message c
      simp only [Activity.bind_apply]
      rcases hanswer : (callWith x message c).value with ⟨result, returned⟩
      rw [hanswer] at hreturned
      cases result with
      | done => exact hreturned
      | transition destination => exact hreturned
      | yield => exact hreturned
      | loop => exact hreturned

theorem Machine.send_returns {m : Machine σ} (h : m.IsPublic) (message : Envelope)
    (c : Context σ) : (m.send message c).value.2 = message := by
  rw [send_eq]
  simp only [Activity.bind_apply, Activity.look_apply]
  cases hs : m.currentState? c with
  | none => rfl
  | some s =>
      apply State.send_returns
      intro key x hx
      exact h .handler x (HasAction.handler (mem_states_of_state? hs) hx)

/-!
## Runs of a host
-/

inductive HostCall where
  | operate (op : Operation)
  | raise (fault : Fault)
  deriving DecidableEq, Repr

def HostCall.message? : HostCall -> Option Envelope
  | .operate op => op.message?
  | .raise _ => none

def Machine.undergo (m : Machine σ) : HostCall -> Activity σ (Option (TickResult × Envelope))
  | .operate op => m.perform op
  | .raise fault => do
      Activity.raise fault
      return none

structure Turn (σ : Type) where
  before : Context σ
  call : HostCall
  step : Step σ (Option (TickResult × Envelope))

def Machine.turns (m : Machine σ) : List HostCall -> Context σ -> List (Turn σ)
  | [], _ => []
  | call :: rest, c => ⟨c, call, m.undergo call c⟩ :: m.turns rest (m.undergo call c).context

def Machine.sightings (m : Machine σ) (t : Turn σ) : List (Sighting σ) :=
  (m.watch.undergo t.call t.before.watched).context.data.2

theorem Machine.undergo_relates {m : Machine σ} (h : m.IsPublic) (call : HostCall) :
    Activity.Relates (Context.Watches call.message?) (m.watch.undergo call) (m.undergo call) := by
  have hstable := Context.isStable_watches (σ := σ) call.message?
  cases call with
  | operate op => exact perform_relates hstable (h.watch_relates op.message?)
  | raise fault =>
      exact Activity.Relates.bind (Activity.Relates.raise hstable) fun _ => Activity.Relates.pure

structure Context.IsIdle (c : Context σ) : Prop where
  message : c.currentMessage? = none
  slot : c.slot = .blank

theorem Context.IsIdle.reset_eq {c : Context σ} (h : c.IsIdle) : c.reset = .fresh c.data := by
  rw [reset, h.slot]
  rfl

/--
The turn leaves no trace of a message: none is there before and after it, the one that is handed
over comes back, and it is seen by its handler only.  What is seen is told by the watched machine,
which goes through the same turn.
-/
structure Machine.IsCleanTurn (m : Machine σ) (t : Turn σ) : Prop where
  before : t.before.IsIdle
  after : t.step.context.IsIdle
  returned : forall message, t.call = .operate (.send message) ->
    exists result, t.step.value = some (result, message)
  watched : (m.watch.undergo t.call t.before.watched).unwatched = t.step
  proper : forall s, s ∈ m.sightings t -> s.IsProper t.call.message?
  renewed : t.before.reset = .fresh t.before.data ∧
    t.step.context.reset = .fresh t.step.context.data

theorem Machine.isCleanTurn {m : Machine σ} (h : m.IsPublic) {c : Context σ} (hc : c.IsIdle)
    (call : HostCall) : m.IsCleanTurn ⟨c, call, m.undergo call c⟩ := by
  have hstart : c.watched.Watches call.message? c :=
    ⟨rfl, hc.slot, Context.currentMessage?_eq_none_iff.mp hc.message, fun s hs => by cases hs⟩
  rcases undergo_relates h call c.watched c hstart with ⟨hvalue, hevents, hend⟩
  have hafter : (m.undergo call c).context.IsIdle :=
    ⟨Context.currentMessage?_eq_none_iff.mpr hend.message, hend.slot⟩
  refine ⟨hc, hafter, ?_, ?_, hend.proper, hc.reset_eq, hafter.reset_eq⟩
  · rintro message rfl
    exact ⟨_, congrArg some (Prod.ext rfl (send_returns h message c))⟩
  · rw [Step.unwatched, hvalue, hevents, hend.same]

theorem Machine.isCleanTurn_of_mem_turns {m : Machine σ} (h : m.IsPublic) {calls : List HostCall}
    {c : Context σ} (hc : c.IsIdle) {t : Turn σ} (ht : t ∈ m.turns calls c) :
    m.IsCleanTurn t := by
  induction calls generalizing c with
  | nil => cases ht
  | cons call rest ih =>
      have hfirst := isCleanTurn h hc call
      rcases List.mem_cons.mp ht with rfl | hrest
      · exact hfirst
      · exact ih hfirst.after hrest

/--
For a machine whose actions do nothing that could not be done from outside, every turn of every run
of a host is clean.
-/
theorem messages_are_lent (m : Machine σ) (hpublic : m.IsPublic) (data : σ)
    (calls : List HostCall) :
    forall t, t ∈ m.turns calls (.fresh data) -> m.IsCleanTurn t := by
  intro t ht
  exact Machine.isCleanTurn_of_mem_turns hpublic ⟨rfl, rfl⟩ ht

def Action.doing (result : TickResult) (call : Context σ -> PublicCall σ) : Action σ :=
  fun c => ⟨result, c.apply (call c), []⟩

theorem Action.isPublic_doing (result : TickResult) (call : Context σ -> PublicCall σ) :
    (doing result call).IsPublic := by
  intro c
  exact ⟨[call c], rfl⟩

def Machine.relay : Machine Nat where
  name := "relay"
  enter := Action.doing (.transition 0) fun _ => .resetError
  states := [
    { name := "a"
      exit := [Action.doing .done fun c => .setData (c.data + 1)]
      on := [("go", Action.doing (.transition 1) fun c => .setData (c.data + 1))] },
    { name := "b"
      enter := [Action.doing .done fun c => .setData (c.data + 1)]
      on := [("drop", Action.doing .yield fun _ => .reset)] }]

theorem Machine.isPublic_relay : relay.IsPublic := by
  intro role x hx
  cases hx with
  | start => exact Action.isPublic_doing _ _
  | enter hs hx | exit hs hx | run hs hx | handler hs hx =>
      simp only [relay, List.mem_cons, List.not_mem_nil, or_false] at hs
      rcases hs with rfl | rfl <;> simp at hx <;> simp [hx, Action.isPublic_doing]

def Machine.relayCalls : List HostCall := [
  .operate .tick,
  .operate (.send ⟨"go", some 7, some (.int 3)⟩),
  .raise .handlerNotDone,
  .operate (.send ⟨"drop", none, none⟩)]

theorem messages_are_lent_relay :
    Machine.relay.IsPublic ∧
      (Machine.relay.turns Machine.relayCalls (.fresh 0)).map
          (fun t => (Machine.relay.sightings t).map fun s => (s.role, s.seen.currentMessage?)) =
        [[(.start, none)],
          [(.handler, some ⟨"go", some 7, some (.int 3)⟩), (.exit, none), (.enter, none)],
          [],
          [(.handler, some ⟨"drop", none, none⟩)]] ∧
      forall t, t ∈ Machine.relay.turns Machine.relayCalls (.fresh 0) ->
        Machine.relay.IsCleanTurn t := by
  refine ⟨Machine.isPublic_relay, ?_, ?_⟩
  · decide +kernel
  · exact messages_are_lent Machine.relay Machine.isPublic_relay 0 _

end BehaviorScript
