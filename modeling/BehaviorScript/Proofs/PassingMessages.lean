import BehaviorScript.Proofs.Destinations
import BehaviorScript.Proofs.LentMessages

/-!
# Messages that pass

A message passes when it is answered with `done`: there was no state or no handler for it, or its
handler did not go anywhere.  The built-in actions neither change a context nor look at more of it
than the position, so a message that passes can leave nothing behind but an error, and the next
tick clears that first.  Whichever of these messages are taken out of a run, what remains of it
looks the same.
-/

namespace BehaviorScript

variable {σ : Type}

/-!
## Runs without some of their messages
-/

namespace Turn

def passes (t : Turn σ) : Bool :=
  match t.call, t.step.value with
  | .operate (.send _), some (.done, _) => true
  | _, _ => false

def without (chosen : Nat -> Bool) : List (Turn σ) -> List (Turn σ)
  | [] => []
  | t :: rest =>
      let remaining := without (fun i => chosen (i + 1)) rest
      if chosen 0 && t.passes then remaining else t :: remaining

/--
The turns are the same to a host.  It may find different errors after them, but not after a tick.
-/
structure Resembles (t u : Turn σ) : Prop where
  call : t.call = u.call
  position : t.step.context.position = u.step.context.position
  answer : t.step.value = u.step.value
  events : t.step.events = u.step.events
  error : t.call = .operate .tick -> t.step.context.lastError = u.step.context.lastError

theorem exists_of_passes {t : Turn σ} (h : t.passes = true) :
    exists message returned, t.call = .operate (.send message) ∧
      t.step.value = some (.done, returned) := by
  unfold passes at h
  split at h
  · next message returned hcall hvalue => exact ⟨message, returned, hcall, hvalue⟩
  · cases h

end Turn

/-!
## What is told outside of handlers

A message is first answered by its handler.  Only then is the transition carried out that the
answer may ask for, and this calls exit and enter actions.
-/

namespace Machine

def consult (m : Machine σ) (message : Envelope) : Activity σ (TickResult × Envelope) := do
  match m.currentState? (← Activity.look) with
  | none => return (.done, message)
  | some current => current.send message

theorem send_eq_consult (m : Machine σ) (message : Envelope) :
    m.send message = (do
      let answer ← m.consult message
      m.obey answer.1
      return answer) := by
  funext c
  rw [send_eq]
  unfold consult
  simp only [Activity.bind_apply, Activity.look_apply, List.nil_append]
  cases m.currentState? c with
  | none => rfl
  | some current => rfl

/--
What the actions of the run, enter and exit sections and the machine itself tell of in a turn: all
that is told, less what is told until a handler has answered.
-/
def toldOutsideHandlers (m : Machine σ) (t : Turn σ) : List Event :=
  match t.call with
  | .operate (.send message) => t.step.events.drop (m.consult message t.before).events.length
  | _ => t.step.events

theorem toldOutsideHandlers_send (m : Machine σ) (message : Envelope) (c : Context σ) :
    m.toldOutsideHandlers ⟨c, .operate (.send message), m.perform (.send message) c⟩ =
      (m.obey (m.consult message c).value.1 (m.consult message c).context).events := by
  show ((m.send message c).events ++ []).drop _ = _
  rw [send_eq_consult]
  simp only [Activity.bind_apply, Activity.pure_apply, List.append_nil, List.drop_left]

end Machine

/-!
## Actions that keep to themselves
-/

structure Action.IsInert (x : Action σ) : Prop where
  context : forall c, (x c).context = c
  value : forall c d, c.position = d.position -> (x c).value = (x d).value
  events : forall c d, c.position = d.position -> (x c).events = (x d).events

def Machine.IsInert (m : Machine σ) : Prop :=
  forall role x, m.HasAction role x -> x.IsInert

theorem Action.isInert_done (result : TickResult) :
    IsInert (Activity.done result : Action σ) where
  context _ := rfl
  value _ _ _ := rfl
  events _ _ _ := rfl

theorem Action.isInert_writeLog (message : String) :
    IsInert (Builtin.writeLog message : Action σ) where
  context _ := rfl
  value _ _ _ := rfl
  events c d h := by
    show [Event.logged message c.position.stateId] = [Event.logged message d.position.stateId]
    rw [h]

theorem Builtin.isInert_of_build {options : Options} {schema : Schema σ} {bs : Bindings}
    {x : Action σ} (hschema : schema ∈ schemas σ options) (hx : schema.build bs = .ok x) :
    x.IsInert := by
  simp only [schemas, List.mem_cons, List.not_mem_nil, or_false] at hschema
  rcases hschema with rfl | rfl | rfl | rfl | rfl
  · rcases except_map_eq_ok hx with ⟨destination, _, rfl⟩
    exact Action.isInert_done _
  · cases hx
    exact Action.isInert_done _
  · cases hx
    exact Action.isInert_done _
  · cases hx
    exact Action.isInert_done _
  · rcases except_map_eq_ok hx with ⟨message, _, rfl⟩
    exact Action.isInert_writeLog message

theorem Compiled.forall_hasAction {options : Options} {registry : Registry σ} {source : String}
    {script : Script} {table : NameTable} {m : Machine σ} {P : Action σ -> Prop}
    (h : Compiled options registry source script table m)
    (hP : forall (a : ActionLine) x, a.CompilesTo options registry table x -> P x) :
    forall role x, m.HasAction role x -> P x := by
  have hsection : forall {lines : List ActionLine} {actions : List (Action σ)},
      List.Forall₂ (ActionLine.CompilesTo options registry table) lines actions ->
      forall x, x ∈ actions -> P x := by
    intro lines actions hlines x hx
    rcases exists_of_forall₂_mem hlines hx with ⟨a, _, ha⟩
    exact hP a x ha
  have hstate : forall {s : State σ}, s ∈ m.states ->
      exists block, s.Realizes (ActionLine.CompilesTo options registry table) block := by
    intro s hs
    rcases exists_of_forall₂_mem h.realizes.states hs with ⟨block, _, hblock⟩
    exact ⟨block, hblock⟩
  intro role x hx
  cases hx with
  | start => exact hP _ _ h.realizes.enter
  | enter hs hx =>
      rcases hstate hs with ⟨block, hblock⟩
      exact hsection hblock.enter x hx
  | exit hs hx =>
      rcases hstate hs with ⟨block, hblock⟩
      exact hsection hblock.exit x hx
  | run hs hx =>
      rcases hstate hs with ⟨block, hblock⟩
      exact hsection hblock.run x hx
  | handler hs hx =>
      rcases hstate hs with ⟨block, hblock⟩
      rcases exists_of_forall₂_mem hblock.on hx with ⟨a, _, _, ha⟩
      exact hP a x ha

theorem Compiled.isInert {options reserved : Options} {registry : Registry σ} {source : String}
    {script : Script} {table : NameTable} {m : Machine σ}
    (h : Compiled options registry source script table m)
    (hbuiltins : Registry.builtins σ reserved = .ok registry) : m.IsInert := by
  apply h.forall_hasAction (P := Action.IsInert)
  intro a x hline
  rcases hline with ⟨resolved, _, _, hbuild⟩
  rcases ActionLine.build_eq_ok hbuild with ⟨schema, bs, hfind, _, hx⟩
  have hschema : schema ∈ registry.schemas := Registry.mem_schemas_of_find? hfind
  rw [Registry.schemas_of_builtins hbuiltins] at hschema
  exact Builtin.isInert_of_build hschema hx

/-!
## Contexts that differ by an error
-/

structure Context.Agrees (c d : Context σ) : Prop where
  same : c.resetError = d.resetError
  message : d.hasMessage = false

namespace Context

theorem Agrees.position {c d : Context σ} (h : c.Agrees d) : c.position = d.position := by
  show c.resetError.position = d.resetError.position
  rw [h.same]

theorem Agrees.message_left {c d : Context σ} (h : c.Agrees d) : c.hasMessage = false := by
  show c.resetError.hasMessage = false
  rw [h.same]
  exact h.message

theorem Agrees.trans {c d e : Context σ} (hcd : c.Agrees d) (hde : d.Agrees e) : c.Agrees e :=
  ⟨hcd.same.trans hde.same, hde.message⟩

theorem isStable_agrees : IsStable (Agrees (σ := σ)) where
  position h := h.position
  moveTo {c d} p h := by
    refine ⟨?_, h.message⟩
    show c.resetError.moveTo p = d.resetError.moveTo p
    rw [h.same]
  raise _ h := ⟨h.same, h.message⟩
  resetError h := ⟨h.same, h.message⟩
  reset {c d} h := by
    refine ⟨?_, rfl⟩
    show c.resetError.reset = d.resetError.reset
    rw [h.same]

end Context

theorem Action.IsInert.relates {x : Action σ} (hx : x.IsInert) :
    Activity.Relates Context.Agrees x x := by
  intro c d h
  refine ⟨hx.value c d h.position, hx.events c d h.position, ?_⟩
  rw [hx.context, hx.context]
  exact h

theorem State.callWith_eq {x : Action σ} (hx : x.IsInert) (message : Envelope) {c : Context σ}
    (hc : c.hasMessage = false) :
    callWith x message c = ⟨((x c).value, message), c, (x c).events⟩ := by
  have hvalue := hx.value (c.lend message).1 c rfl
  have hevents := hx.events (c.lend message).1 c rfl
  have hreturned : ((c.lend message).1.giveBack c.slot).1 = c := by
    rw [Context.lend, Context.giveBack, ← hc]
  unfold callWith
  simp only [hx.context, hvalue, hevents]
  show Step.mk _ ((c.lend message).1.giveBack c.slot).1 _ = _
  rw [hreturned]
  rfl

theorem State.callWith_relates_self {x : Action σ} (hx : x.IsInert) (message : Envelope) :
    Activity.Relates Context.Agrees (callWith x message) (callWith x message) := by
  intro c d h
  rw [callWith_eq hx message h.message_left, callWith_eq hx message h.message]
  refine ⟨?_, hx.events c d h.position, h⟩
  rw [hx.value c d h.position]

theorem Machine.IsInert.relates {m : Machine σ} (h : m.IsInert) (lent : Option Envelope) :
    m.Relates Context.Agrees lent m := by
  refine ⟨rfl, (h _ _ HasAction.start).relates, ?_⟩
  apply List.forall₂_same.mpr
  intro s hs
  exact {
    name := rfl
    enter := List.forall₂_same.mpr fun x hx => (h _ _ (HasAction.enter hs hx)).relates
    exit := List.forall₂_same.mpr fun x hx => (h _ _ (HasAction.exit hs hx)).relates
    run := List.forall₂_same.mpr fun x hx => (h _ _ (HasAction.run hs hx)).relates
    on := by
      intro message _
      cases hx : s.handler? message.key with
      | none => exact Option.Rel.none
      | some x =>
          have haction := HasAction.handler hs (mem_of_lookup_eq_some hx)
          exact Option.Rel.some (State.callWith_relates_self (h _ _ haction) message) }

/-!
## One turn
-/

theorem State.send_agrees {s : State σ} (h : forall key x, (key, x) ∈ s.on -> Action.IsInert x)
    (message : Envelope) {c : Context σ} (hc : c.hasMessage = false) :
    (s.send message c).context.Agrees c := by
  unfold send
  cases hx : s.handler? message.key with
  | none => exact ⟨rfl, hc⟩
  | some x =>
      have hinert := h message.key x (mem_of_lookup_eq_some hx)
      simp only [Activity.bind_apply, callWith_eq hinert message hc]
      cases (x c).value with
      | done => exact ⟨rfl, hc⟩
      | transition destination => exact ⟨rfl, hc⟩
      | yield => exact ⟨rfl, hc⟩
      | loop => exact ⟨rfl, hc⟩

namespace Machine

variable {m : Machine σ}

theorem consult_agrees (h : m.IsInert) (message : Envelope) {c : Context σ}
    (hc : c.hasMessage = false) : (m.consult message c).context.Agrees c := by
  unfold consult
  simp only [Activity.bind_apply, Activity.look_apply]
  cases hs : m.currentState? c with
  | none => exact ⟨rfl, hc⟩
  | some s =>
      apply State.send_agrees _ message hc
      intro key x hx
      exact h .handler x (HasAction.handler (mem_states_of_state? hs) hx)

theorem consult_relates (h : m.IsInert) (message : Envelope) :
    Activity.Relates Context.Agrees (m.consult message) (m.consult message) := by
  apply Activity.Relates.look_bind
  intro c d hcd
  have hstate := (h.relates (some message)).currentState? Context.isStable_agrees hcd
  generalize m.currentState? c = s at hstate
  generalize m.currentState? d = t at hstate
  cases hstate with
  | none => exact Activity.Relates.pure
  | some hst => exact State.send_relates Context.isStable_agrees hst

/--
A message that passes leaves the context as it was, up to the error, and nothing is told of it
outside of its handler.
-/
theorem undergo_of_passes (h : m.IsInert) {c : Context σ} (hc : c.hasMessage = false)
    {call : HostCall} (hpasses : Turn.passes ⟨c, call, m.undergo call c⟩ = true) :
    (m.undergo call c).context.Agrees c ∧
      m.toldOutsideHandlers ⟨c, call, m.undergo call c⟩ = [] := by
  rcases Turn.exists_of_passes hpasses with ⟨message, returned, hcall, hvalue⟩
  have hcall : call = .operate (.send message) := hcall
  subst hcall
  have hanswer : (m.consult message c).value.1 = .done := by
    have hsend : (m.send message c).value = (.done, returned) := Option.some.inj hvalue
    rw [send_eq_consult] at hsend
    exact congrArg Prod.fst hsend
  have hagrees := consult_agrees h message hc
  constructor
  · show (m.send message c).context.Agrees c
    rw [send_eq_consult]
    simp only [Activity.bind_apply, hanswer]
    exact hagrees
  · show m.toldOutsideHandlers ⟨c, _, m.perform (.send message) c⟩ = []
    rw [toldOutsideHandlers_send, hanswer]
    rfl

theorem undergo_relates_self (h : m.IsInert) (call : HostCall) :
    Activity.Relates Context.Agrees (m.undergo call) (m.undergo call) := by
  cases call with
  | operate op => exact perform_relates Context.isStable_agrees (h.relates op.message?)
  | raise fault =>
      exact Activity.Relates.bind (Activity.Relates.raise Context.isStable_agrees) fun _ =>
        Activity.Relates.pure

theorem tick_eq_of_agrees {c d : Context σ} (hcd : c.Agrees d) : m.tick c = m.tick d := by
  unfold tick
  simp only [Activity.bind_apply, Activity.change_apply, hcd.same]

theorem toldOutsideHandlers_eq (h : m.IsInert) {c d : Context σ} (hcd : c.Agrees d)
    (call : HostCall) :
    m.toldOutsideHandlers ⟨c, call, m.undergo call c⟩ =
      m.toldOutsideHandlers ⟨d, call, m.undergo call d⟩ := by
  have hevents := (undergo_relates_self h call c d hcd).2.1
  cases call with
  | raise fault => exact hevents
  | operate op =>
      cases op with
      | tick => exact hevents
      | reset => exact hevents
      | resetError => exact hevents
      | send message =>
          rcases consult_relates h message c d hcd with ⟨hvalue, _, hcontext⟩
          simp only [undergo, toldOutsideHandlers_send, hvalue]
          exact (obey_relates Context.isStable_agrees (h.relates none) _ _ _ hcontext).2.1

theorem resembles_of_agrees (h : m.IsInert) {c d : Context σ} (hcd : c.Agrees d)
    (call : HostCall) :
    Turn.Resembles ⟨c, call, m.undergo call c⟩ ⟨d, call, m.undergo call d⟩ := by
  rcases undergo_relates_self h call c d hcd with ⟨hvalue, hevents, hcontext⟩
  refine ⟨rfl, hcontext.position, hvalue, hevents, ?_⟩
  intro htick
  have htick : call = .operate .tick := htick
  subst htick
  show (m.tick c).context.lastError = (m.tick d).context.lastError
  rw [tick_eq_of_agrees hcd]

/-!
## Whole runs
-/

/--
The induction is on the calls of the longer run.  At a message that is taken out, the longer run
moves on alone, to a context that still agrees with that of the shorter one.
-/
theorem turns_without (h : m.IsInert) {c d : Context σ} (hcd : c.Agrees d) (chosen : Nat -> Bool)
    (calls : List HostCall) :
    List.Forall₂ Turn.Resembles (Turn.without chosen (m.turns calls c))
        (m.turns ((Turn.without chosen (m.turns calls c)).map Turn.call) d) ∧
      (m.turns calls c).flatMap m.toldOutsideHandlers =
        (m.turns ((Turn.without chosen (m.turns calls c)).map Turn.call) d).flatMap
          m.toldOutsideHandlers := by
  induction calls generalizing c d chosen with
  | nil => exact ⟨List.Forall₂.nil, rfl⟩
  | cons call rest ih =>
      simp only [turns, Turn.without]
      cases hout : chosen 0 && Turn.passes ⟨c, call, m.undergo call c⟩ with
      | true =>
          have hpasses := (Bool.and_eq_true_iff.mp hout).2
          rcases undergo_of_passes h hcd.message_left hpasses with ⟨hafter, htold⟩
          rcases ih (hafter.trans hcd) (fun i => chosen (i + 1)) with ⟨hlooks, hevents⟩
          simp only [if_true]
          refine ⟨hlooks, ?_⟩
          rw [List.flatMap_cons, htold, List.nil_append]
          exact hevents
      | false =>
          have hnext := (undergo_relates_self h call c d hcd).2.2
          rcases ih hnext (fun i => chosen (i + 1)) with ⟨hlooks, hevents⟩
          simp only [Bool.false_eq_true, if_false, List.map_cons, turns, List.flatMap_cons]
          refine ⟨List.Forall₂.cons (resembles_of_agrees h hcd call) hlooks, ?_⟩
          rw [toldOutsideHandlers_eq h hcd call, hevents]

end Machine

/--
Messages that pass are invisible to the run of a machine that was compiled with the built-in
actions.  Whichever of them a host leaves out, the other calls come to the same positions, answers
and events, and every tick to the same error; and what is told outside of handlers, log messages
included, is the same from the first call to the last.
-/
theorem passing_messages_leave_no_trace (options reserved : Options) (registry : Registry σ)
    (hbuiltins : Registry.builtins σ reserved = .ok registry) (source : String) (b : Build σ)
    (hcompile : (compile options registry source).result = .ok b) (data : σ)
    (calls : List HostCall) (chosen : Nat -> Bool) :
    let turns := b.machine.turns calls (.fresh data)
    let remaining := Turn.without chosen turns
    let replayed := b.machine.turns (remaining.map Turn.call) (.fresh data)
    List.Forall₂ Turn.Resembles remaining replayed ∧
      turns.flatMap b.machine.toldOutsideHandlers =
        replayed.flatMap b.machine.toldOutsideHandlers := by
  rcases compiled_of_compile_eq_ok hcompile with ⟨script, table, hcompiled⟩
  have hinert := hcompiled.isInert hbuiltins
  exact Machine.turns_without hinert ⟨rfl, rfl⟩ chosen calls

def passingSource : String :=
  "@machine m->a\n@state a\n@run\nlog x\nyield\n@on\nk:log y\nj:loop\ng:->b\n@state b\n@enter\nlog z"

def passingCalls : List HostCall := [
  .operate (.send { key := "g" }),
  .operate .tick,
  .operate (.send { key := "k" }),
  .operate .tick,
  .operate (.send { key := "j" }),
  .operate (.send { key := "g" }),
  .operate .tick]

theorem passing_messages_leave_no_trace_log_and_loop :
    exists (r : Registry Unit) (b : Build Unit),
      Registry.builtins Unit {} = .ok r ∧
        (compile {} r passingSource).result = .ok b ∧
        let turns := b.machine.turns passingCalls (.fresh ())
        let remaining := Turn.without (fun _ => true) turns
        let replayed := b.machine.turns (remaining.map Turn.call) (.fresh ())
        remaining.map Turn.call =
            [.operate .tick, .operate .tick, .operate (.send { key := "g" }), .operate .tick] ∧
          List.Forall₂ Turn.Resembles remaining replayed ∧
          turns.flatMap b.machine.toldOutsideHandlers =
            replayed.flatMap b.machine.toldOutsideHandlers := by
  have heval : ((Registry.builtins Unit {}).toOption.map fun r =>
      (compile {} r passingSource).result.toOption.map fun b =>
        (Turn.without (fun _ => true) (b.machine.turns passingCalls (.fresh ()))).map
          Turn.call) =
      some (some
        [.operate .tick, .operate .tick, .operate (.send { key := "g" }), .operate .tick]) := by
    decide +kernel
  rcases exists_of_toOption_map_eq_some heval with ⟨r, hr, hcompile⟩
  rcases exists_of_toOption_map_eq_some hcompile with ⟨b, hb, hremaining⟩
  refine ⟨r, b, hr, hb, hremaining, ?_⟩
  exact passing_messages_leave_no_trace {} {} r hr passingSource b hb () passingCalls _

end BehaviorScript
