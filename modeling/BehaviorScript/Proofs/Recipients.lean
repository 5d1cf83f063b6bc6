import BehaviorScript.Proofs.BusQueue
import BehaviorScript.Proofs.LentMessages

/-!
# Recipients do not disturb each other

Any number of instances can share one machine and one bus.  Messages for all of them go
through the same slots, and whoever drives them may tick one instance, put a message for
another on the bus and deliver the oldest to a third, in any order.

What is done with each instance is decided by the requests alone, as if the bus were
a list of waiting messages.  So each instance ends as if it had been the only one, and its
messages reach it in the order in which they were put on the bus.
-/

namespace BehaviorScript

variable {σ : Type}

/-!
## Hubs
-/

structure Errand where
  recipient : Option Nat
  op : Operation
  deriving DecidableEq, Repr

inductive HubRequest where
  | enqueue (key : String) (recipient : Nat) (value : Option Value)
  | tick (recipient : Nat)
  | deliver
  deriving DecidableEq, Repr

/--
Instances of one machine with the bus that they share, and all that was done with them so far.
-/
structure Hub (σ : Type) where
  contexts : List (Context σ)
  bus : MessageBus
  log : List Errand := []

namespace Hub

def carryOut (m : Machine σ) (hub : Hub σ) (errand : Errand) : Hub σ :=
  { hub with
    contexts :=
      match errand.recipient with
      | some i => hub.contexts.modify i fun c => (m.perform errand.op c).context
      | none => hub.contexts
    log := hub.log ++ [errand] }

/--
Answer one request.  A message that is delivered goes to the instance named by its recipient, and
its envelope is recycled afterwards.
-/
def serve (m : Machine σ) (hub : Hub σ) : HubRequest -> Except BusFull (Hub σ)
  | .enqueue key recipient value =>
      (hub.bus.enqueue key recipient value).map fun bus => { hub with bus := bus }
  | .tick recipient => .ok (hub.carryOut m ⟨some recipient, .tick⟩)
  | .deliver =>
      match hub.bus.dequeue? with
      | none => .ok hub
      | some (handout, bus) =>
          let served := hub.carryOut m ⟨handout.envelope.recipient, .send handout.envelope⟩
          .ok { served with bus := bus.recycle handout }

def run (m : Machine σ) : List HubRequest -> Hub σ -> Except BusFull (Hub σ)
  | [], hub => .ok hub
  | request :: rest, hub =>
      match hub.serve m request with
      | .error failure => .error failure
      | .ok hub => run m rest hub

end Hub

/-!
## One instance on its own
-/

def Machine.replay (m : Machine σ) : List Operation -> Context σ -> Context σ
  | [], c => c
  | op :: rest, c => m.replay rest (m.perform op c).context

theorem Machine.replay_append (m : Machine σ) (before after : List Operation) (c : Context σ) :
    m.replay (before ++ after) c = m.replay after (m.replay before c) := by
  induction before generalizing c with
  | nil => rfl
  | cons op rest ih => exact ih (m.perform op c).context

theorem Machine.map_replay_nil (m : Machine σ) (c : Option (Context σ)) :
    c.map (m.replay []) = c :=
  Option.map_id'

def ownPart (i : Nat) (errands : List Errand) : List Operation :=
  (errands.filter fun errand => errand.recipient == some i).map Errand.op

def deliveredTo (i : Nat) (errands : List Errand) : List Envelope :=
  (ownPart i errands).filterMap Operation.message?

def messagesFor (i : Nat) (messages : List Envelope) : List Envelope :=
  messages.filter fun message => message.recipient == some i

def HubRequest.message? : HubRequest -> Option Envelope
  | .enqueue key recipient value => some ⟨key, some recipient, value⟩
  | _ => none

def enqueuedFor (i : Nat) (requests : List HubRequest) : List Envelope :=
  messagesFor i (requests.filterMap HubRequest.message?)

theorem ownPart_append (i : Nat) (before after : List Errand) :
    ownPart i (before ++ after) = ownPart i before ++ ownPart i after := by
  rw [ownPart, List.filter_append, List.map_append]
  rfl

theorem deliveredTo_append (i : Nat) (before after : List Errand) :
    deliveredTo i (before ++ after) = deliveredTo i before ++ deliveredTo i after := by
  rw [deliveredTo, ownPart_append, List.filterMap_append]
  rfl

theorem messagesFor_append (i : Nat) (before after : List Envelope) :
    messagesFor i (before ++ after) = messagesFor i before ++ messagesFor i after :=
  List.filter_append before after

/-!
## What the requests decide
-/

/--
What a request leads to when the given messages are waiting, and which of them are waiting then.
-/
def HubRequest.effect (waiting : List Envelope) : HubRequest -> List Errand × List Envelope
  | .enqueue key recipient value => ([], waiting ++ [⟨key, some recipient, value⟩])
  | .tick recipient => ([⟨some recipient, .tick⟩], waiting)
  | .deliver =>
      match waiting with
      | [] => ([], [])
      | envelope :: rest => ([⟨envelope.recipient, .send envelope⟩], rest)

def schedule : List HubRequest -> List Envelope -> List Errand × List Envelope
  | [], waiting => ([], waiting)
  | request :: rest, waiting =>
      let (errands, waiting) := request.effect waiting
      let (later, waiting) := schedule rest waiting
      (errands ++ later, waiting)

theorem schedule_cons (request : HubRequest) (rest : List HubRequest) (waiting : List Envelope) :
    schedule (request :: rest) waiting =
      ((request.effect waiting).1 ++ (schedule rest (request.effect waiting).2).1,
        (schedule rest (request.effect waiting).2).2) :=
  rfl

theorem enqueuedFor_cons (i : Nat) (request : HubRequest) (rest : List HubRequest) :
    enqueuedFor i (request :: rest) =
      messagesFor i request.message?.toList ++ enqueuedFor i rest := by
  rw [enqueuedFor, enqueuedFor, ← messagesFor_append]
  cases request with
  | enqueue key recipient value => rfl
  | tick recipient => rfl
  | deliver => rfl

theorem deliveredTo_send (i : Nat) (envelope : Envelope) :
    deliveredTo i [⟨envelope.recipient, .send envelope⟩] = messagesFor i [envelope] := by
  cases hown : envelope.recipient == some i with
  | true => simp [deliveredTo, ownPart, messagesFor, hown, Operation.message?]
  | false => simp [deliveredTo, ownPart, messagesFor, hown]

theorem deliveredTo_tick (i recipient : Nat) :
    deliveredTo i [⟨some recipient, .tick⟩] = [] := by
  cases hown : some recipient == some i with
  | true => simp [deliveredTo, ownPart, hown, Operation.message?]
  | false => simp [deliveredTo, ownPart, hown]

theorem messagesFor_effect (i : Nat) (request : HubRequest) (waiting : List Envelope) :
    messagesFor i (waiting ++ request.message?.toList) =
      deliveredTo i (request.effect waiting).1 ++ messagesFor i (request.effect waiting).2 := by
  cases request with
  | enqueue key recipient value => rfl
  | tick recipient =>
      show messagesFor i (waiting ++ []) = deliveredTo i [⟨some recipient, .tick⟩] ++ _
      rw [deliveredTo_tick, List.append_nil]
      rfl
  | deliver =>
      show messagesFor i (waiting ++ []) = _
      rw [List.append_nil]
      cases waiting with
      | nil => rfl
      | cons envelope rest =>
          show messagesFor i ([envelope] ++ rest) = _
          rw [messagesFor_append, ← deliveredTo_send]
          rfl

/--
The messages for an instance are delivered in the order in which they came, and those not yet
delivered are still waiting.
-/
theorem messagesFor_schedule (i : Nat) (requests : List HubRequest) (waiting : List Envelope) :
    messagesFor i waiting ++ enqueuedFor i requests =
      deliveredTo i (schedule requests waiting).1 ++
        messagesFor i (schedule requests waiting).2 := by
  induction requests generalizing waiting with
  | nil => exact List.append_nil _
  | cons request rest ih =>
      rw [enqueuedFor_cons, ← List.append_assoc, ← messagesFor_append, messagesFor_effect,
        List.append_assoc, ih, schedule_cons, deliveredTo_append, List.append_assoc]

/-!
## What the hub does
-/

namespace Hub

variable {m : Machine σ}

theorem getElem?_carryOut (hub : Hub σ) (errand : Errand) (i : Nat) :
    (hub.carryOut m errand).contexts[i]? =
      hub.contexts[i]?.map (m.replay (ownPart i [errand])) := by
  rcases errand with ⟨recipient, op⟩
  cases recipient with
  | none => exact (m.map_replay_nil _).symm
  | some j =>
      show (hub.contexts.modify j fun c => (m.perform op c).context)[i]? = _
      by_cases hij : j = i
      · have hown : ownPart i [⟨some j, op⟩] = [op] := by
          simp [ownPart, hij]
        rw [hown, hij, List.getElem?_modify_eq]
        rfl
      · have hown : ownPart i [⟨some j, op⟩] = [] := by
          simp [ownPart, hij]
        rw [hown, List.getElem?_modify_ne _ _ hij, m.map_replay_nil]

theorem serve_eq_ok {hub next : Hub σ} {request : HubRequest} {capacity : Nat}
    {waiting : List Envelope} (hbus : hub.bus.StandsFor ⟨capacity, waiting⟩)
    (h : hub.serve m request = .ok next) :
    next.log = hub.log ++ (request.effect waiting).1 ∧
      next.bus.StandsFor ⟨capacity, (request.effect waiting).2⟩ ∧
      forall i, next.contexts[i]? =
        hub.contexts[i]?.map (m.replay (ownPart i (request.effect waiting).1)) := by
  cases request with
  | enqueue key recipient value =>
      rcases except_map_eq_ok h with ⟨bus, henqueue, rfl⟩
      refine ⟨(List.append_nil _).symm, hbus.of_enqueue_eq_ok henqueue, fun i => ?_⟩
      exact (m.map_replay_nil _).symm
  | tick recipient =>
      cases h
      exact ⟨rfl, hbus, hub.getElem?_carryOut _⟩
  | deliver =>
      rw [serve] at h
      cases waiting with
      | nil =>
          rw [MessageBus.dequeue?_of_empty hbus.size_eq] at h
          cases h
          exact ⟨(List.append_nil _).symm, hbus, fun i => (m.map_replay_nil _).symm⟩
      | cons envelope rest =>
          rcases hbus.dequeue? rfl with ⟨handout, bus, hdequeue, rfl, hnext⟩
          rw [hdequeue] at h
          cases h
          exact ⟨rfl, hnext, hub.getElem?_carryOut _⟩

theorem run_eq_ok {hub final : Hub σ} {requests : List HubRequest} {capacity : Nat}
    {waiting : List Envelope} (hbus : hub.bus.StandsFor ⟨capacity, waiting⟩)
    (h : run m requests hub = .ok final) :
    final.log = hub.log ++ (schedule requests waiting).1 ∧
      final.bus.StandsFor ⟨capacity, (schedule requests waiting).2⟩ ∧
      forall i, final.contexts[i]? =
        hub.contexts[i]?.map (m.replay (ownPart i (schedule requests waiting).1)) := by
  induction requests generalizing hub waiting with
  | nil =>
      cases h
      exact ⟨(List.append_nil _).symm, hbus, fun i => (m.map_replay_nil _).symm⟩
  | cons request rest ih =>
      rw [run] at h
      cases hserve : hub.serve m request with
      | error failure =>
          rw [hserve] at h
          cases h
      | ok next =>
          rw [hserve] at h
          -- the bus and the list of waiting messages go on side by side
          rcases serve_eq_ok hbus hserve with ⟨hlog, hnext, hcontexts⟩
          rcases ih hnext h with ⟨hlogs, hfinal, hlater⟩
          rw [schedule_cons]
          refine ⟨?_, hfinal, fun i => ?_⟩
          · rw [hlogs, hlog, List.append_assoc]
          · rw [hlater, hcontexts, Option.map_map, ownPart_append]
            congr 1
            funext c
            exact (m.replay_append _ _ c).symm

end Hub

/--
Recipients that share a machine and a bus do not affect each other.  Whatever is requested, as long
as no message is refused, what is done with the instances is decided by the requests alone.  Each
instance ends as if nothing but its own operations had been carried out, in the same order.  The
messages delivered to it are the first of those that were put on the bus for it, in this order and
as they were put there, and they are all of them when the bus is empty.
-/
theorem recipients_do_not_disturb (m : Machine σ) (contexts : List (Context σ)) (capacity : Nat)
    (requests : List HubRequest) (final : Hub σ)
    (hrun : Hub.run m requests { contexts := contexts, bus := .empty capacity } = .ok final) :
    final.log = (schedule requests []).1 ∧
      forall i, final.contexts[i]? = contexts[i]?.map (m.replay (ownPart i final.log)) ∧
        deliveredTo i final.log <+: enqueuedFor i requests ∧
        (final.bus.isEmpty = true -> deliveredTo i final.log = enqueuedFor i requests) := by
  rcases Hub.run_eq_ok (MessageBus.standsFor_empty capacity) hrun with ⟨hlog, hbus, hcontexts⟩
  rw [List.nil_append] at hlog
  refine ⟨hlog, fun i => ?_⟩
  -- what was put on the bus for the instance is what was delivered and what still waits
  have hmessages := messagesFor_schedule i requests []
  rw [← hlog] at hmessages
  refine ⟨?_, ⟨_, hmessages.symm⟩, ?_⟩
  · rw [hcontexts, hlog]
  · intro hempty
    rw [hbus.isEmpty_eq, List.isEmpty_iff] at hempty
    rw [show (schedule requests []).2 = [] from hempty] at hmessages
    exact (hmessages.trans (List.append_nil _)).symm

def relayRequests : List HubRequest := [
  .tick 0,
  .enqueue "go" 1 (some (.int 1)),
  .tick 1,
  .enqueue "go" 0 none,
  .deliver,
  .enqueue "drop" 0 none,
  .deliver,
  .enqueue "stop" 1 none,
  .deliver]

theorem recipients_do_not_disturb_relay :
    let hub : Hub Nat := { contexts := [.fresh 0, .fresh 5], bus := .empty 2 }
    let first : Envelope := ⟨"go", some 1, some (.int 1)⟩
    let second : Envelope := ⟨"stop", some 1, none⟩
    (exists final, Hub.run Machine.relay relayRequests hub = .ok final ∧
      final.bus.isEmpty = false ∧
      final.contexts[1]? = some (Machine.relay.replay [.tick, .send first] (.fresh 5)) ∧
      [first] <+: [first, second]) ∧
    exists final, Hub.run Machine.relay (relayRequests ++ [.deliver]) hub = .ok final ∧
      final.bus.isEmpty = true ∧
      final.contexts[1]? =
        some (Machine.relay.replay [.tick, .send first, .send second] (.fresh 5)) ∧
      deliveredTo 1 final.log = [first, second] := by
  intro hub first second
  constructor
  · have heval : ((Hub.run Machine.relay relayRequests hub).toOption.map
        fun final => final.bus.isEmpty) = some false := by
      decide +kernel
    rcases exists_of_toOption_map_eq_some heval with ⟨final, hrun, hempty⟩
    rcases recipients_do_not_disturb Machine.relay [.fresh 0, .fresh 5] 2 relayRequests final hrun
      with ⟨hlog, hall⟩
    rcases hall 1 with ⟨hcontext, hdelivered, _⟩
    rw [hlog] at hcontext hdelivered
    exact ⟨final, hrun, hempty, hcontext, hdelivered⟩
  · have heval : ((Hub.run Machine.relay (relayRequests ++ [.deliver]) hub).toOption.map
        fun final => final.bus.isEmpty) = some true := by
      decide +kernel
    rcases exists_of_toOption_map_eq_some heval with ⟨final, hrun, hempty⟩
    rcases recipients_do_not_disturb Machine.relay [.fresh 0, .fresh 5] 2 _ final hrun with
      ⟨hlog, hall⟩
    rcases hall 1 with ⟨hcontext, _, hdelivered⟩
    rw [hlog] at hcontext
    exact ⟨final, hrun, hempty, hcontext, hdelivered hempty⟩

end BehaviorScript
