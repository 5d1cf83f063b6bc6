import BehaviorScript.Proofs.Contract
import BehaviorScript.Proofs.Destinations
import BehaviorScript.Proofs.Run

/-!
# Compiled machines stay inside their state table

A machine whose actions go only to its own states, and leave the bookkeeping to it,
never stands outside its table: every operation of a host keeps a position that is
inside.  Machines compiled from scripts are of this kind as soon as the schemas that
build their actions are.
-/

namespace BehaviorScript

variable {σ : Type}

/-!
## Positions inside the table
-/

def Fault.isLost : Fault -> Bool
  | currentStateMissing => true
  | destinationMissing => true
  | _ => false

def Event.IsHarmless (e : Event) : Prop :=
  forall fault id, e = .raised fault id -> fault.isLost = false

structure Context.IsAt (p : Position) (c : Context σ) : Prop where
  position : c.position = p
  found : forall fault, c.lastError = some fault -> fault.isLost = false

/--
The position is the one before the start, or it is that of a state of the table and of an action
of its run section or the end of that section.
-/
def Machine.Inside (m : Machine σ) (p : Position) : Prop :=
  (p.stateId = -1 ∧ p.actionIndex = 0) ∨
    exists s, 0 ≤ p.stateId.toInt ∧ p.stateId.toInt < m.states.length ∧
      m.states[p.stateId.toInt.toNat]? = some s ∧ p.actionIndex.toNat ≤ s.run.length

structure State.IsConfined (n : Nat) (s : State σ) : Prop where
  enter : forall x, x ∈ s.enter -> Action.IsConfined n x
  exit : forall x, x ∈ s.exit -> Action.IsConfined n x
  run : forall x, x ∈ s.run -> Action.IsConfined n x
  on : forall key x, (key, x) ∈ s.on -> Action.IsConfined n x

structure Machine.IsConfined (m : Machine σ) : Prop where
  size : m.states.length ≤ 2 ^ 31
  enter : m.enter.IsConfined m.states.length
  states : forall s, s ∈ m.states -> s.IsConfined m.states.length

/-!
## What one operation keeps

The contracts follow the runtime from single actions up to whole operations.
-/

open Activity (Ensures)

theorem Context.IsAt.raise {p : Position} {c : Context σ} (h : c.IsAt p) {fault : Fault}
    (hfault : fault.isLost = false) :
    Context.IsAt p { c with lastError := some fault } where
  position := h.position
  found := by
    intro other hother
    cases hother
    exact hfault

theorem Context.IsAt.setActionIndex {id : Int32} {i : UInt64} {c : Context σ}
    (h : c.IsAt ⟨id, i⟩) (j : UInt64) :
    (c.setActionIndex j).IsAt ⟨id, j⟩ where
  position := by simp [Context.setActionIndex, h.position]
  found := h.found

theorem Event.isHarmless_raised {fault : Fault} (h : fault.isLost = false) (id : Int32) :
    Event.IsHarmless (.raised fault id) := by
  intro other id' heq
  cases heq
  exact h

theorem Action.IsConfined.ensures {n : Nat} {x : Action σ} (h : x.IsConfined n) (p : Position) :
    Ensures Event.IsHarmless (Context.IsAt p) x
      (fun result c => c.IsAt p ∧ result.IsWithin n) := by
  intro c hc
  refine ⟨⟨⟨?_, ?_⟩, ?_⟩, ?_⟩
  · rw [h.quiet.position, hc.position]
  · rw [h.quiet.error]
    exact hc.found
  · exact h.inside c
  · intro e he fault id heq
    rw [heq] at he
    exact absurd he (h.quiet.raised c fault id)

theorem State.callAll_ensures {n : Nat} {fault : Fault} (hfault : fault.isLost = false)
    {actions : List (Action σ)} (h : forall x, x ∈ actions -> Action.IsConfined n x)
    (p : Position) :
    Ensures Event.IsHarmless (Context.IsAt p) (callAll fault actions)
      (fun _ => Context.IsAt p) := by
  induction actions with
  | nil => exact Ensures.pure fun _ hc => hc
  | cons x rest ih =>
      have hrest := ih fun y hy => h y (List.mem_cons_of_mem _ hy)
      refine Ensures.bind ((h x List.mem_cons_self).ensures p) fun result => ?_
      by_cases hdone : result ≠ .done
      · simp only [if_pos hdone]
        refine Ensures.bind (R := fun _ => Context.IsAt p) ?_ fun _ => hrest
        exact Ensures.raise (Event.isHarmless_raised hfault) fun c hc => hc.1.raise hfault
      · simp only [if_neg hdone]
        exact hrest.weaken (fun c hc => hc.1) fun _ _ hc => hc

def Context.IsRunning (id : Int32) (n : Nat) (c : Context σ) : Prop :=
  exists i : UInt64, i.toNat ≤ n ∧ c.IsAt ⟨id, i⟩

theorem State.cascade_ensures {n : Nat} {s : State σ} (h : s.IsConfined n) (id : Int32)
    (limit : Nat) :
    Ensures Event.IsHarmless (Context.IsRunning id s.run.length) (s.cascade limit)
      (fun result c => c.IsRunning id s.run.length ∧ result.IsWithin n) := by
  induction limit with
  | zero => exact Ensures.pure fun c hc => ⟨hc, fun _ hno => by cases hno⟩
  | succ limit ih =>
      refine Ensures.look_bind fun c hc => ?_
      rcases hc with ⟨i, hi, hat⟩
      rw [hat.position]
      cases hx : s.run[i.toNat]? with
      | none =>
          refine Ensures.pure fun c' hc' => ⟨⟨i, hi, ?_⟩, fun _ hno => by cases hno⟩
          rw [hc']
          exact hat
      | some x =>
          have hlt : i.toNat < s.run.length := (List.getElem?_eq_some_iff.mp hx).1
          have hconfined : Action.IsConfined n x := h.run x (List.mem_of_getElem? hx)
          -- The action leaves the position alone, so the index is still `i` afterwards.
          refine Ensures.bind ((hconfined.ensures ⟨id, i⟩).weaken (fun c' hc' => hc' ▸ hat)
            fun _ _ hend => hend) fun result => ?_
          refine Ensures.look_bind fun c' hc' => ?_
          rcases hc' with ⟨hat', hinside⟩
          rw [hat'.position]
          refine Ensures.tell_bind (fun fault id hno => by cases hno) ?_
          cases result with
          | done =>
              refine Ensures.change_bind (fun d hd => ?_) ih
              refine ⟨i + 1, ?_, (hd ▸ hat').setActionIndex (i + 1)⟩
              rw [UInt64.toNat_add]
              exact Nat.le_trans (Nat.mod_le _ _) hlt
          | yield =>
              exact Ensures.pure fun d hd => ⟨⟨i, hi, hd ▸ hat'⟩, fun _ hno => by cases hno⟩
          | loop =>
              refine Ensures.change_bind (R := Context.IsRunning id s.run.length) (fun d hd => ?_)
                (Ensures.pure fun d hd => ⟨hd, fun _ hno => by cases hno⟩)
              exact ⟨0, Nat.zero_le _, (hd ▸ hat').setActionIndex 0⟩
          | transition destination =>
              exact Ensures.pure fun d hd => ⟨⟨i, hi, hd ▸ hat'⟩, hinside⟩

theorem State.callWith_ensures {n : Nat} {x : Action σ} (h : x.IsConfined n)
    (message : Envelope) (p : Position) :
    Ensures Event.IsHarmless (Context.IsAt p) (callWith x message)
      (fun answer c => c.IsAt p ∧ answer.1.IsWithin n) := by
  intro c hc
  have hlent : Context.IsAt p (c.lend message).1 := ⟨hc.position, hc.found⟩
  rcases h.ensures p _ hlent with ⟨⟨hat, hinside⟩, hevents⟩
  exact ⟨⟨⟨hat.position, hat.found⟩, hinside⟩, hevents⟩

theorem State.send_ensures {n : Nat} {s : State σ} (h : s.IsConfined n) (message : Envelope)
    (p : Position) :
    Ensures Event.IsHarmless (Context.IsAt p) (s.send message)
      (fun answer c => c.IsAt p ∧ answer.1.IsWithin n) := by
  unfold send
  cases hx : s.handler? message.key with
  | none => exact Ensures.pure fun c hc => ⟨hc, fun _ hno => by cases hno⟩
  | some x =>
      have hconfined : Action.IsConfined n x := h.on message.key x (mem_of_lookup_eq_some hx)
      refine Ensures.bind (callWith_ensures hconfined message p) fun answer => ?_
      rcases answer with ⟨result, returned⟩
      have hraise : Ensures Event.IsHarmless
          (fun c : Context σ => c.IsAt p ∧ result.IsWithin n)
          (do Activity.raise .handlerNotDone; return (TickResult.done, returned))
          (fun answer c => c.IsAt p ∧ answer.1.IsWithin n) := by
        refine Ensures.bind (R := fun _ => Context.IsAt p) ?_ fun _ =>
          Ensures.pure fun c hc => ⟨hc, fun _ hno => by cases hno⟩
        exact Ensures.raise (Event.isHarmless_raised rfl) fun c hc => hc.1.raise rfl
      cases result with
      | done => exact Ensures.pure fun c hc => hc
      | transition destination => exact Ensures.pure fun c hc => hc
      | yield => exact hraise
      | loop => exact hraise

namespace Machine

variable {m : Machine σ}

theorem leave_ensures (h : m.IsConfined) (p : Position) :
    Ensures Event.IsHarmless (Context.IsAt p) m.leave (fun _ => Context.IsAt p) := by
  refine Ensures.look_bind fun c hc => ?_
  cases hs : m.currentState? c with
  | none => exact Ensures.pure fun c' hc' => hc' ▸ hc
  | some s =>
      have hexit := (h.states s (mem_states_of_state? hs)).exit
      exact (State.callAll_ensures rfl hexit p).weaken (fun c' hc' => hc' ▸ hc) fun _ _ hend => hend

/--
What holds of a context between two operations: it stands inside the table and is not lost.
-/
def Hosts (m : Machine σ) (c : Context σ) : Prop :=
  exists p, m.Inside p ∧ c.IsAt p

theorem arrive_ensures (h : m.IsConfined) {destination : UInt64}
    (hlt : destination.toNat < m.states.length) (p : Position) :
    Ensures Event.IsHarmless (Context.IsAt p) (m.arrive destination) (fun _ => m.Hosts) := by
  have hsize : destination.toNat < 2 ^ 31 := Nat.lt_of_lt_of_le hlt h.size
  have hid : (destinationId destination).toInt = destination.toNat := by
    rw [destinationId_eq destination hsize, Int32.toInt_ofNat_of_lt hsize]
  have hstate : m.state? (destinationId destination) = some m.states[destination.toNat] := by
    rw [destinationId_eq destination hsize, m.state?_ofNat hsize, List.getElem?_eq_getElem hlt]
  have hinside : m.Inside ⟨destinationId destination, 0⟩ := by
    refine Or.inr ⟨m.states[destination.toNat], ?_, ?_, ?_, Nat.zero_le _⟩
    · rw [hid]
      exact Int.natCast_nonneg _
    · rw [hid]
      exact Int.ofNat_lt.mpr hlt
    · rw [hid, Int.toNat_natCast, List.getElem?_eq_getElem hlt]
  refine Ensures.change_bind (R := Context.IsAt ⟨destinationId destination, 0⟩)
    (fun c hc => ⟨rfl, hc.found⟩) ?_
  rw [hstate]
  refine Ensures.tell_bind (fun fault id hno => by cases hno) ?_
  have henter := (h.states _ (List.getElem_mem hlt)).enter
  exact (State.callAll_ensures rfl henter _).weaken (fun _ hc => hc)
    fun _ _ hend => ⟨_, hinside, hend⟩

theorem transition_ensures (h : m.IsConfined) {destination : UInt64}
    (hlt : destination.toNat < m.states.length) (p : Position) :
    Ensures Event.IsHarmless (Context.IsAt p) (m.transition destination) (fun _ => m.Hosts) := by
  rw [transition_eq]
  exact Ensures.bind (leave_ensures h p) fun _ => arrive_ensures h hlt p

theorem begin_ensures (h : m.IsConfined) {p : Position} (hp : m.Inside p) :
    Ensures Event.IsHarmless (Context.IsAt p) m.begin (fun _ => m.Hosts) := by
  refine Ensures.bind (h.enter.ensures p) fun result => ?_
  have hstay : Ensures Event.IsHarmless
      (fun c : Context σ => c.IsAt p ∧ result.IsWithin m.states.length)
      (do Activity.tell (.notStarted m.name result); Activity.raise .noFirstTransition)
      (fun _ => m.Hosts) := by
    refine Ensures.tell_bind (fun fault id hno => by cases hno) ?_
    exact Ensures.raise (Event.isHarmless_raised rfl) fun c hc => ⟨p, hp, hc.1.raise rfl⟩
  cases result with
  | done => exact hstay
  | yield => exact hstay
  | loop => exact hstay
  | transition destination =>
      intro c hc
      exact transition_ensures h (hc.2 destination rfl) p c hc.1

theorem currentState?_of_inside {p : Position} (hp : m.Inside p) (hstart : p.isStart = false)
    {c : Context σ} (hc : c.position = p) :
    exists s, m.currentState? c = some s ∧ p.actionIndex.toNat ≤ s.run.length := by
  rcases hp with ⟨hid, _⟩ | ⟨s, hnonneg, _, hs, hindex⟩
  · simp [Position.isStart, hid] at hstart
  · refine ⟨s, ?_, hindex⟩
    rw [currentState?, hc, state?, if_pos hnonneg, hs]

theorem inside_of_state? {id : Int32} {s : State σ} (hs : m.state? id = some s) {i : UInt64}
    (hi : i.toNat ≤ s.run.length) : m.Inside ⟨id, i⟩ := by
  unfold state? at hs
  split at hs
  · next hnonneg =>
      have hlt := (List.getElem?_eq_some_iff.mp hs).1
      exact Or.inr ⟨s, hnonneg, (Int.toNat_lt hnonneg).mp hlt, hs, hi⟩
  · cases hs

theorem proceed_ensures (h : m.IsConfined) {p : Position} (hp : m.Inside p)
    (hstart : p.isStart = false) :
    Ensures Event.IsHarmless (Context.IsAt p) m.proceed (fun _ => m.Hosts) := by
  refine Ensures.look_bind fun c hc => ?_
  rcases currentState?_of_inside hp hstart hc.position with ⟨s, hs, hindex⟩
  rw [hs]
  have hconfined := h.states s (mem_states_of_state? hs)
  have hstate : m.state? p.stateId = some s := hc.position ▸ hs
  refine Ensures.bind ((State.cascade_ensures hconfined p.stateId _).weaken
    (fun c' hc' => ⟨p.actionIndex, hindex, hc' ▸ hc⟩) fun _ _ hend => hend) fun result => ?_
  have hstay : Ensures Event.IsHarmless
      (fun c' : Context σ => c'.IsRunning p.stateId s.run.length ∧
        result.IsWithin m.states.length)
      (pure ()) (fun _ => m.Hosts) := by
    refine Ensures.pure fun c' hc' => ?_
    rcases hc'.1 with ⟨i, hi, hat⟩
    exact ⟨_, inside_of_state? hstate hi, hat⟩
  cases result with
  | done => exact hstay
  | yield => exact hstay
  | loop => exact hstay
  | transition destination =>
      rintro c' ⟨⟨i, _, hat⟩, hinside⟩
      exact transition_ensures h (hinside destination rfl) _ c' hat

theorem tick_ensures (h : m.IsConfined) :
    Ensures Event.IsHarmless m.Hosts m.tick (fun _ => m.Hosts) := by
  rintro c ⟨p, hp, hc⟩
  have hclear : Context.IsAt p c.resetError := ⟨hc.position, fun _ hno => by cases hno⟩
  have hposition : c.resetError.position = p := hc.position
  cases hstart : p.isStart with
  | true =>
      have htick : m.tick c = m.begin c.resetError := by
        simp [tick, hposition, hstart]
      rw [htick]
      exact begin_ensures h hp c.resetError hclear
  | false =>
      have htick : m.tick c = m.proceed c.resetError := by
        simp [tick, hposition, hstart]
      rw [htick]
      exact proceed_ensures h hp hstart c.resetError hclear

theorem send_ensures (h : m.IsConfined) (message : Envelope) :
    Ensures Event.IsHarmless m.Hosts (m.send message) (fun _ => m.Hosts) := by
  refine Ensures.look_bind fun c hc => ?_
  rcases hc with ⟨p, hp, hc⟩
  cases hs : m.currentState? c with
  | none => exact Ensures.pure fun c' hc' => ⟨p, hp, hc' ▸ hc⟩
  | some s =>
      have hconfined := h.states s (mem_states_of_state? hs)
      refine Ensures.bind ((State.send_ensures hconfined message p).weaken
        (fun c' hc' => hc' ▸ hc) fun _ _ hend => hend) fun answer => ?_
      rcases answer with ⟨result, returned⟩
      have hstay : Ensures Event.IsHarmless
          (fun c' : Context σ => c'.IsAt p ∧ result.IsWithin m.states.length)
          (pure (result, returned)) (fun _ => m.Hosts) :=
        Ensures.pure fun c' hc' => ⟨p, hp, hc'.1⟩
      cases result with
      | done => exact hstay
      | yield => exact hstay
      | loop => exact hstay
      | transition destination =>
          refine Ensures.bind (R := fun _ => m.Hosts) ?_ fun _ => Ensures.pure fun _ hend => hend
          intro c' hc'
          exact transition_ensures h (hc'.2 destination rfl) p c' hc'.1

theorem perform_ensures (h : m.IsConfined) (op : Operation) :
    Ensures Event.IsHarmless m.Hosts (m.perform op) (fun _ => m.Hosts) := by
  cases op with
  | tick => exact Ensures.bind (tick_ensures h) fun _ => Ensures.pure fun _ hc => hc
  | send message =>
      exact Ensures.bind (send_ensures h message) fun _ => Ensures.pure fun _ hc => hc
  | reset =>
      refine Ensures.change_bind (R := m.Hosts) (fun c _ => ?_) (Ensures.pure fun _ hc => hc)
      exact ⟨.start, Or.inl ⟨rfl, rfl⟩, rfl, fun _ hno => by cases hno⟩
  | resetError =>
      refine Ensures.change_bind (R := m.Hosts) (fun c hc => ?_) (Ensures.pure fun _ hc => hc)
      rcases hc with ⟨p, hp, hat⟩
      exact ⟨p, hp, hat.position, fun _ hno => by cases hno⟩

end Machine

/-!
## Compiled machines
-/

theorem Compiled.isConfined {options : Options} {registry : Registry σ} {source : String}
    {script : Script} {table : NameTable} {m : Machine σ}
    (h : Compiled options registry source script table m) (htame : registry.IsTame)
    (hsize : m.states.length ≤ 2 ^ 31) :
    m.IsConfined := by
  have hconfined : forall (a : ActionLine) x, a.CompilesTo options registry table x ->
      Action.IsConfined m.states.length x := by
    intro a x hx
    rw [h.table_eq] at hx
    rw [h.length_states] at hsize ⊢
    exact hx.isConfined htame hsize
  have hsection : forall {lines : List ActionLine} {actions : List (Action σ)},
      List.Forall₂ (ActionLine.CompilesTo options registry table) lines actions ->
      forall x, x ∈ actions -> Action.IsConfined m.states.length x := by
    intro lines actions hlines x hx
    rcases exists_of_forall₂_mem hlines hx with ⟨a, _, ha⟩
    exact hconfined a x ha
  refine ⟨hsize, hconfined _ _ h.realizes.enter, ?_⟩
  intro s hs
  rcases exists_of_forall₂_mem h.realizes.states hs with ⟨block, _, hblock⟩
  refine ⟨hsection hblock.enter, hsection hblock.exit, hsection hblock.run, ?_⟩
  intro key x hx
  rcases exists_of_forall₂_mem hblock.on hx with ⟨a, _, _, ha⟩
  exact hconfined a x ha

/--
Whatever a host does with an instance of a compiled machine whose actions leave the bookkeeping
to it, the instance stands before the start or inside the table of states after every
operation, and neither of the faults of a missing state is ever raised.  The built-in actions are
of this kind.
-/
theorem compiled_run_inside_table (options : Options) :
    (forall r, Registry.builtins σ options = .ok r -> r.IsTame) ∧
      forall (registry : Registry σ), registry.IsTame -> forall (source : String) (b : Build σ),
        (compile options registry source).result = .ok b ->
        b.machine.states.length ≤ 2 ^ 31 ->
        forall (data : σ) (ops : List Operation) step,
          step ∈ b.machine.trace ops (.fresh data) ->
          b.machine.Inside step.context.position ∧
            forall fault, fault = .currentStateMissing ∨ fault = .destinationMissing ->
              step.context.lastError ≠ some fault ∧
                forall id, Event.raised fault id ∉ step.events := by
  refine ⟨fun r hr => Registry.isTame_builtins hr, ?_⟩
  intro registry htame source b hb hsize data ops step hstep
  rcases compiled_of_compile_eq_ok hb with ⟨script, table, hcompiled⟩
  have hconfined := hcompiled.isConfined htame hsize
  have hfresh : b.machine.Hosts (.fresh data) :=
    ⟨.start, Or.inl ⟨rfl, rfl⟩, rfl, fun _ hno => by cases hno⟩
  rcases Machine.forall_mem_trace (S := fun step => forall e, e ∈ step.events -> e.IsHarmless)
    (fun op c hc => Machine.perform_ensures hconfined op c hc) ops hfresh step hstep with
    ⟨⟨p, hp, hat⟩, hevents⟩
  refine ⟨hat.position ▸ hp, ?_⟩
  intro fault hfault
  have hlost : fault.isLost = true := by
    rcases hfault with rfl | rfl <;> rfl
  constructor
  · intro herror
    have := hat.found fault herror
    rw [hlost] at this
    cases this
  · intro id hmem
    have := hevents _ hmem fault id rfl
    rw [hlost] at this
    cases this

theorem compiled_run_inside_table_two_states :
    exists (r : Registry Unit) (b : Build Unit),
      Registry.builtins Unit {} = .ok r ∧
        (compile {} r "@machine m->b\n@state a\n@state b\n@run\n->a").result = .ok b ∧
        b.machine.states.length = 2 ∧
        forall step, step ∈ b.machine.trace [.tick, .tick, .send .blank, .reset] (.fresh ()) ->
          b.machine.Inside step.context.position ∧
            forall fault, fault = .currentStateMissing ∨ fault = .destinationMissing ->
              step.context.lastError ≠ some fault ∧
                forall id, Event.raised fault id ∉ step.events := by
  have heval : ((Registry.builtins Unit {}).toOption.map fun r =>
      (compile {} r "@machine m->b\n@state a\n@state b\n@run\n->a").result.toOption.map
        fun b => b.machine.states.length) = some (some 2) := by
    decide +kernel
  rcases exists_of_toOption_map_eq_some heval with ⟨r, hr, hcompile⟩
  rcases exists_of_toOption_map_eq_some hcompile with ⟨b, hb, hsize⟩
  have htable := compiled_run_inside_table (σ := Unit) {}
  refine ⟨r, b, hr, hb, hsize, fun step hstep => ?_⟩
  exact htable.2 r (htable.1 r hr) _ b hb (by rw [hsize]; decide) () _ step hstep

end BehaviorScript
