import BehaviorScript.CommandLine
import BehaviorScript.Proofs.Deliveries
import BehaviorScript.Proofs.Interpreter
import BehaviorScript.Proofs.Lexemes
import BehaviorScript.Proofs.RaisedFaults
import BehaviorScript.Proofs.Registration

/-!
# What decides the exit code

The exit code after a session looks only at the errors that ticks leave behind, and a
fatal fault may come up anywhere.  For a script of built-in actions it makes no difference:
if the action of its machine line goes to a state, nothing fatal ever happens, neither in
a tick nor in a delivery, and otherwise every tick fails in the same way and no message is
ever looked at.  Only a number of ticks that there can be no room for ends the program before all
of this, whatever the script is.
-/

namespace BehaviorScript

/-!
## Blank sources
-/

def ActionLine.isTransition (options : Options) (a : ActionLine) : Bool :=
  a.isCalled options.transitionAction || a.isCalled "goto"

theorem Builtin.stays_of_answer {σ : Type} {name : String} {result : TickResult} {bs : Bindings}
    {x : Action σ} (hx : (answer σ name result).build bs = .ok x)
    (hresult : forall destination, result ≠ .transition destination) : x.Stays := by
  cases hx
  intro _ destination
  exact hresult destination

namespace ActionLine.CompilesTo

variable {σ : Type} {options reserved : Options} {registry : Registry σ} {table : NameTable}
  {a : ActionLine} {x : Action σ}

theorem exists_schema (h : a.CompilesTo options registry table x) :
    exists schema bs, registry.find? a.name = some schema ∧ schema.build bs = .ok x := by
  rcases h with ⟨resolved, _, hresolve, hbuild⟩
  rcases resolve_eq_ok hresolve with ⟨params, _, rfl⟩
  rcases build_eq_ok hbuild with ⟨schema, bs, hfind, _, hx⟩
  exact ⟨schema, bs, hfind, hx⟩

theorem goes (h : a.CompilesTo options registry table x)
    (hbuiltins : Registry.builtins σ reserved = .ok registry)
    (ha : a.isTransition reserved = true) : x.Goes := by
  rcases h.exists_schema with ⟨schema, bs, hfind, hx⟩
  unfold isTransition isCalled at ha
  rw [Registry.find?_builtins hbuiltins, if_pos ha] at hfind
  cases hfind
  rcases except_map_eq_ok hx with ⟨destination, _, rfl⟩
  intro c
  exact ⟨destination, rfl⟩

theorem stays (h : a.CompilesTo options registry table x)
    (hbuiltins : Registry.builtins σ reserved = .ok registry)
    (ha : a.isTransition reserved = false) : x.Stays := by
  rcases h.exists_schema with ⟨schema, bs, hfind, hx⟩
  unfold isTransition isCalled at ha
  rw [Registry.find?_builtins hbuiltins, if_neg (Bool.eq_false_iff.mp ha)] at hfind
  split at hfind
  · cases hfind
    exact Builtin.stays_of_answer hx nofun
  · split at hfind
    · cases hfind
      exact Builtin.stays_of_answer hx nofun
    · split at hfind
      · cases hfind
        exact Builtin.stays_of_answer hx nofun
      · split at hfind
        · cases hfind
          rcases except_map_eq_ok hx with ⟨message, _, rfl⟩
          intro c destination hvalue
          cases hvalue
        · cases hfind

end ActionLine.CompilesTo

namespace CommandLine

/-!
## Sessions of machines that go somewhere first
-/

namespace Session

variable {m : Machine Unit} {sends : List Send}

end Session

/-!
## Sessions of machines that go nowhere
-/

/--
The instance has not been started.  A message was answered with `done` and without an error, and
a tick left the error of a machine that does not begin.
-/
structure Moment.IsIdle (moment : Moment) : Prop where
  position : moment.step.context.position = .start
  answer : moment.step.value = moment.deed.delivered?.map fun message => (.done, message)
  delivered : forall message, moment.deed = .delivered message ->
    moment.step.context.lastError = none
  ticked : forall waiting, moment.deed = .ticked waiting ->
    moment.step.context.lastError = some .noFirstTransition

theorem Moment.IsIdle.delivery?_eq {moment : Moment} (h : moment.IsIdle) :
    moment.delivery? = moment.deed.delivered?.map fun message => ⟨message.key, .done, none⟩ := by
  rw [delivery?, h.answer]
  cases hdeed : moment.deed with
  | stored send => rfl
  | dropped send => rfl
  | ticked waiting => rfl
  | delivered message =>
      show some (Delivery.mk message.key .done moment.step.context.lastError) = _
      rw [h.delivered message hdeed]
      rfl

def TickRow.idle (sends : List Send) (tick : Nat) : TickRow :=
  { tick := tick
    deliveries := (Session.batch sends tick).map fun send => ⟨send.key, .done, none⟩
    state := none
    position := .start
    error := some .noFirstTransition }

namespace Session

variable {m : Machine Unit} {sends : List Send}

theorem keeps_idle (hquiet : m.enter.IsQuiet) (hstays : m.enter.Stays) :
    Keeps m (fun c => c.position = .start) Moment.IsIdle where
  stored _ _ hc := ⟨hc, rfl, nofun, nofun⟩
  dropped _ _ hc := ⟨hc, rfl, nofun, nofun⟩
  delivered message c hc := by
    have hsend : m.perform (.send message) c.resetError =
        ⟨some (.done, message), c.resetError, []⟩ := by
      simp [Machine.perform, m.send_at_start message (show c.resetError.position = .start from hc)]
    rw [hsend]
    exact ⟨⟨hc, rfl, fun _ _ => rfl, nofun⟩, hc⟩
  ticked waiting c hc := by
    rcases Machine.tick_of_stays hquiet hstays hc with ⟨hposition, herror⟩
    exact ⟨⟨hposition, rfl, nofun, fun _ _ => herror⟩, hposition⟩

theorem tick_of_stays (hquiet : m.enter.IsQuiet) (hstays : m.enter.Stays) {s : Session}
    (hs : s.context.position = .start) {capacity : Nat} (hbus : s.bus.StandsFor ⟨capacity, []⟩)
    (hroom : sends.length ≤ capacity) (tick : Nat) :
    (s.tick m sends tick).1 = TickRow.idle sends tick := by
  have hidle := ((keeps_idle hquiet hstays).moments sends tick hs).1
  have hdeliveries : (s.tick m sends tick).1.deliveries = (TickRow.idle sends tick).deliveries := by
    show (s.prepare m sends tick).1 = _
    rw [← filterMap_delivery?_moments]
    exact filterMap_moments hbus hroom tick fun moment hmem => (hidle moment hmem).delivery?_eq
  -- what remains of the row is read off the last moment
  have hlast := hidle _ (List.mem_append_right _ (List.mem_singleton_self _))
  have hposition : (s.tick m sends tick).1.position = .start := hlast.position
  have herror : (s.tick m sends tick).1.error = some .noFirstTransition := hlast.ticked _ rfl
  have hstate : (s.tick m sends tick).1.state = none := by
    show (m.state? (s.tick m sends tick).1.position.stateId).map State.name = none
    rw [hposition]
    rfl
  exact (TickRow.mk.injEq ..).mpr ⟨rfl, hdeliveries, hstate, hposition, herror⟩

end Session

/-!
## The whole program
-/

section Executed

variable {timings : Timings} {registry : Registry Unit} {a : Arguments} {source : String}
  {b : Build Unit}

end Executed

end CommandLine
end BehaviorScript
