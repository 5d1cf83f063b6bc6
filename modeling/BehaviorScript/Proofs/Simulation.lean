import BehaviorScript.Proofs.Contract
import BehaviorScript.Proofs.Extent
import BehaviorScript.Proofs.Meaning

/-!
# Compiled machines run as their scripts are written

A machine compiled with the built-in actions and the interpreter of its script stay in
step.  The contexts of the machine and the walks of the interpreter are related by their
place: the number of a state on one side is the place of the state with that name on the
other, and the index of an action is the number of lines that are behind.  Each activity
of the machine keeps the relation together with one part of the interpreter, and both
write the same to the log.
-/

namespace BehaviorScript

variable {σ α β : Type}

/-!
## Contexts that mirror a walk
-/

/--
The machine has the shape of the script, its actions carry out the lines of the script, and the
names, numbers and keys of the script are fit for it.
-/
structure Machine.Executes (options : Options) (s : Script) (m : Machine σ) : Prop where
  realizes : m.Realizes (ActionLine.Means options s) s
  distinct : StateBlock.AreDistinct s.states
  size : s.states.length ≤ 2 ^ 31
  short : forall b, b ∈ s.states -> (Block.actionsOf b.run).length < 2 ^ 64
  keyed : forall b, b ∈ s.states -> forall a, a ∈ Block.actionsOf b.on ->
    exists key, a.message = some key

/--
The context and the walk are both in state `b`, which has the number `i`, before the same line of
its run section, and with the same error.
-/
structure Script.StandsIn (s : Script) (i : Nat) (b : StateBlock) (index : UInt64)
    (c : Context σ) (w : Walk) : Prop where
  block : s.states[i]? = some b
  bound : index.toNat ≤ (Block.actionsOf b.run).length
  position : c.position = ⟨Int32.ofNat i, index⟩
  current : w.current = some b.name
  index : w.index = index.toNat
  error : c.lastError = w.error

/--
The context and the walk are both at the start or both in the same state.
-/
inductive Script.Mirrors (s : Script) (c : Context σ) (w : Walk) : Prop where
  | start :
      c.position = .start -> w.current = none -> w.index = 0 -> c.lastError = w.error ->
      Mirrors s c w
  | standing {i : Nat} {b : StateBlock} {index : UInt64} :
      s.StandsIn i b index c w ->
      Mirrors s c w

/--
The activity does to a context what `f` does to the walk that it mirrors.
-/
def Script.Follows (s : Script) (x : Activity σ α) (f : Walk -> Walk) : Prop :=
  forall c w, s.Mirrors c w -> s.Mirrors (x c).context (f w) ∧ (f w).log = w.log ++ (x c).log

namespace Script

variable {options : Options} {s : Script} {m : Machine σ}

theorem Mirrors.error {c : Context σ} {w : Walk} (h : s.Mirrors c w) : c.lastError = w.error := by
  cases h with
  | start _ _ _ herror => exact herror
  | standing h => exact h.error

theorem Mirrors.same_place {c c' : Context σ} {w w' : Walk} (h : s.Mirrors c w)
    (hposition : c'.position = c.position) (hcurrent : w'.current = w.current)
    (hindex : w'.index = w.index) (herror : c'.lastError = w'.error) :
    s.Mirrors c' w' := by
  cases h with
  | start hp hc hi _ =>
      exact Mirrors.start (hposition.trans hp) (hcurrent.trans hc) (hindex.trans hi) herror
  | standing h =>
      exact Mirrors.standing ⟨h.block, h.bound, hposition.trans h.position,
        hcurrent.trans h.current, hindex.trans h.index, herror⟩

theorem Mirrors.fail {c : Context σ} {w : Walk} (h : s.Mirrors c w) (fault : Fault) :
    s.Mirrors { c with lastError := some fault } (w.fail fault) :=
  h.same_place rfl rfl rfl rfl

theorem Mirrors.write {c : Context σ} {w : Walk} (h : s.Mirrors c w) (messages : List String) :
    s.Mirrors c (w.write messages) :=
  h.same_place rfl rfl rfl h.error

theorem Follows.bind {x : Activity σ α} {y : α -> Activity σ β} {f g : Walk -> Walk}
    (hx : s.Follows x f) (hy : forall a, s.Follows (y a) g) :
    s.Follows (x >>= y) (fun w => g (f w)) := by
  intro c w h
  rcases hx c w h with ⟨hmid, hlog⟩
  rcases hy (x c).value _ _ hmid with ⟨hend, hlog'⟩
  refine ⟨hend, ?_⟩
  rw [hlog', hlog, List.append_assoc]
  simp [Step.log]

theorem Follows.pure (a : α) : s.Follows (Pure.pure a : Activity σ α) id := by
  intro c w h
  exact ⟨h, by simp [Step.log]⟩

theorem Follows.raise (fault : Fault) :
    s.Follows (Activity.raise fault : Activity σ Unit) (fun w => w.fail fault) := by
  intro c w h
  exact ⟨h.fail fault, by simp [Step.log, Event.message?, Walk.fail]⟩

theorem Follows.tell_bind {e : Event} {y : Unit -> Activity σ β} {f : Walk -> Walk}
    (he : e.message? = none) (hy : s.Follows (y ()) f) :
    s.Follows (Activity.tell e >>= y) f := by
  intro c w h
  rcases hy c w h with ⟨hend, hlog⟩
  refine ⟨hend, ?_⟩
  rw [hlog]
  simp [Step.log, he]

@[simp] theorem log_carryOut (command : Command) (c : Context σ) :
    (s.carryOut command c).log = command.messages := by
  cases command <;> rfl

theorem Follows.carryOut_bind {command : Command} {y : TickResult -> Activity σ β}
    {f g : Walk -> Walk} (hg : forall w, g w = f (w.write command.messages))
    (hy : s.Follows (y (s.answer command)) f) :
    s.Follows (s.carryOut command >>= y) g := by
  intro c w h
  rcases hy c _ (h.write command.messages) with ⟨hend, hlog⟩
  rw [hg]
  refine ⟨hend, ?_⟩
  have hmessages := log_carryOut (s := s) command c
  rw [hlog, Walk.write, ← hmessages, List.append_assoc]
  simp [Step.log, carryOut]

/-!
## Enter and exit sections
-/

theorem answer_eq_done_iff (command : Command) :
    s.answer command = .done <-> command.isDone = true := by
  cases command <;> simp [answer, Command.isDone]

theorem callAll_follows (fault : Fault) {lines : List ActionLine} {actions : List (Action σ)}
    (h : List.Forall₂ (ActionLine.Means options s) lines actions) :
    s.Follows (State.callAll fault actions) (fun w => w.callAll options fault lines) := by
  induction h with
  | nil => exact Follows.pure ()
  | @cons a x lines actions hax _ ih =>
      rw [State.callAll, hax.action]
      refine Follows.carryOut_bind (f := fun w =>
        (if (a.command options).isDone then w else w.fail fault).callAll options fault lines)
        (fun w => rfl) ?_
      by_cases hdone : (a.command options).isDone = true
      · have hanswer := (answer_eq_done_iff (s := s) _).mpr hdone
        simp only [hdone, hanswer, ne_eq, not_true_eq_false, if_true, if_false]
        exact ih
      · have hanswer : s.answer (a.command options) ≠ .done := by
          rwa [ne_eq, answer_eq_done_iff]
        simp only [hdone, if_pos hanswer]
        exact Follows.bind (Follows.raise fault) fun _ => ih

/-!
## The current state
-/

theorem block?_eq_getElem? (s : Script) (name : String) :
    s.block? name = s.states[s.number name]? :=
  List.find?_eq_getElem?_findIdx

theorem number_of_getElem? (hdistinct : StateBlock.AreDistinct s.states)
    {i : Nat} {b : StateBlock} (hb : s.states[i]? = some b) :
    s.number b.name = i := by
  have hself : Text.sameName b.name b.name = true := Text.sameName_iff.mpr rfl
  exact (number_of_find?
    ((NameTable.find?_ofStates_eq_some_iff hdistinct).mpr ⟨b, hb, hself⟩)).1

theorem isStart_ofNat {i : Nat} (hi : i < 2 ^ 31) (index : UInt64) :
    Position.isStart ⟨Int32.ofNat i, index⟩ = false := by
  rw [Position.isStart, beq_eq_false_iff_ne]
  intro heq
  have hint := congrArg Int32.toInt heq
  rw [Int32.toInt_ofNat_of_lt hi] at hint
  have hneg : (-1 : Int32).toInt = -1 := by decide
  omega

theorem StandsIn.state {i : Nat} {b : StateBlock} {index : UInt64} {c : Context σ} {w : Walk}
    (hs : s.StandsIn i b index c w) (h : m.Executes options s) :
    c.position.isStart = false ∧ s.current? w = some b ∧
      exists state, m.currentState? c = some state ∧
        state.Realizes (ActionLine.Means options s) b := by
  have hi : i < 2 ^ 31 :=
    Nat.lt_of_lt_of_le (List.getElem?_eq_some_iff.mp hs.block).1 h.size
  rcases exists_of_forall₂_getElem? h.realizes.states hs.block with ⟨state, hstate, hrealizes⟩
  refine ⟨?_, ?_, state, ?_, hrealizes⟩
  · rw [hs.position]
    exact isStart_ofNat hi index
  · rw [current?, hs.current, Option.bind_some, block?_eq_getElem?,
      number_of_getElem? h.distinct hs.block, hs.block]
  · rw [Machine.currentState?, hs.position, m.state?_ofNat hi, hstate]

theorem start_state {c : Context σ} {w : Walk} (hposition : c.position = .start)
    (hcurrent : w.current = none) :
    s.current? w = none ∧ m.currentState? c = none := by
  constructor
  · rw [current?, hcurrent, Option.bind_none]
  · rw [Machine.currentState?, hposition]
    rfl

/-!
## Transitions
-/

theorem leave_follows (h : m.Executes options s) :
    s.Follows m.leave (s.leave options) := by
  intro c w hm
  unfold Machine.leave Script.leave
  cases hm with
  | start hposition hcurrent hindex herror =>
      rcases start_state (s := s) (m := m) hposition hcurrent with ⟨hb, hstate⟩
      simp only [Activity.bind_apply, Activity.look_apply, hstate, hb]
      exact Follows.pure () c w (Mirrors.start hposition hcurrent hindex herror)
  | standing hs =>
      rcases hs.state h with ⟨_, hb, state, hstate, hrealizes⟩
      simp only [Activity.bind_apply, Activity.look_apply, hstate, hb, List.nil_append]
      exact callAll_follows .exitActionNotDone hrealizes.exit c w (Mirrors.standing hs)

theorem arrive_follows (h : m.Executes options s) {target : String}
    (hlt : s.number target < s.states.length) :
    s.Follows (m.arrive (s.number target).toUInt64) (s.arrive options target) := by
  have hsize : s.number target < 2 ^ 31 := Nat.lt_of_lt_of_le hlt h.size
  have hnat : (s.number target).toUInt64.toNat = s.number target :=
    UInt64.toNat_ofNat_of_lt' (by simp only [UInt64.size]; omega)
  have hid : Machine.destinationId (s.number target).toUInt64 = Int32.ofNat (s.number target) := by
    rw [Machine.destinationId_eq _ (by omega), hnat]
  have hb : s.states[s.number target]? = some s.states[s.number target] :=
    List.getElem?_eq_getElem hlt
  have hblock : s.block? target = some s.states[s.number target] := by
    rw [block?_eq_getElem?, hb]
  rcases exists_of_forall₂_getElem? h.realizes.states hb with ⟨state, hstate, hrealizes⟩
  have hnext : m.state? (Int32.ofNat (s.number target)) = some state := by
    rw [m.state?_ofNat hsize, hstate]
  intro c w hm
  unfold Machine.arrive Script.arrive
  rw [hid, hblock, hnext]
  have hmoved : s.Mirrors (c.moveTo ⟨Int32.ofNat (s.number target), 0⟩)
      { w with current := some s.states[s.number target].name, index := 0 } :=
    Mirrors.standing ⟨hb, Nat.zero_le _, rfl, rfl, rfl, hm.error⟩
  have henter := callAll_follows .enterActionNotDone hrealizes.enter
  exact Follows.tell_bind (y := fun _ => state.callEnter) rfl henter _ _ hmoved

theorem transition_follows (h : m.Executes options s) {target : String}
    (hlt : s.number target < s.states.length) :
    s.Follows (m.transition (s.number target).toUInt64) (s.goTo options target) := by
  rw [Machine.transition_eq]
  exact Follows.bind (f := s.leave options) (g := s.arrive options target) (leave_follows h)
    fun _ => arrive_follows h hlt

/-!
## The run section
-/

inductive Agrees (s : Script) : TickResult -> Option String -> Prop where
  | stays {result : TickResult} :
      (forall destination, result ≠ .transition destination) ->
      Agrees s result none
  | goes {target : String} :
      s.number target < s.states.length ->
      Agrees s (.transition (s.number target).toUInt64) (some target)

theorem StandsIn.moveIndex {i : Nat} {b : StateBlock} {index : UInt64} {c : Context σ} {w : Walk}
    (h : s.StandsIn i b index c w) (j : UInt64) (hj : j.toNat ≤ (Block.actionsOf b.run).length) :
    s.StandsIn i b j (c.setActionIndex j) { w with index := j.toNat } where
  block := h.block
  bound := hj
  position := by rw [Context.setActionIndex, h.position]
  current := h.current
  index := rfl
  error := h.error

theorem StandsIn.write {i : Nat} {b : StateBlock} {index : UInt64} {c : Context σ} {w : Walk}
    (h : s.StandsIn i b index c w) (messages : List String) :
    s.StandsIn i b index c (w.write messages) :=
  ⟨h.block, h.bound, h.position, h.current, h.index, h.error⟩

structure RunsAs (s : Script) (step : Step σ TickResult) (before : List String)
    (after : Walk × Option String) : Prop where
  mirrors : s.Mirrors step.context after.1
  log : after.1.log = before ++ step.log
  answer : s.Agrees step.value after.2

theorem RunsAs.cascade {state : State σ} {limit : Nat} {c : Context σ} {command : Command}
    (hrun : state.run[c.position.actionIndex.toNat]? = some (s.carryOut command))
    {before : List String} {after : Walk × Option String}
    (h : s.RunsAs (state.react limit c.position.actionIndex (s.answer command) c)
      (before ++ command.messages) after) :
    s.RunsAs (state.cascade (limit + 1) c) before after := by
  have hvalue : (state.cascade (limit + 1) c).value =
      (state.react limit c.position.actionIndex (s.answer command) c).value := by
    simp only [State.cascade, Activity.bind_apply, Activity.look_apply, hrun]
    cases command <;> rfl
  have hcontext : (state.cascade (limit + 1) c).context =
      (state.react limit c.position.actionIndex (s.answer command) c).context := by
    simp only [State.cascade, Activity.bind_apply, Activity.look_apply, hrun]
    cases command <;> rfl
  have hlog : (state.cascade (limit + 1) c).log = command.messages ++
      (state.react limit c.position.actionIndex (s.answer command) c).log := by
    simp only [State.cascade, Activity.bind_apply, Activity.look_apply, hrun]
    cases command <;> rfl
  refine ⟨hcontext ▸ h.mirrors, ?_, hvalue ▸ h.answer⟩
  rw [h.log, hlog, List.append_assoc]

theorem RunsAs.cascade_end {state : State σ} {limit : Nat} {c : Context σ} {w : Walk}
    (hm : s.Mirrors c w) (hrun : state.run[c.position.actionIndex.toNat]? = none) :
    s.RunsAs (state.cascade (limit + 1) c) w.log (w, none) := by
  have hcascade : state.cascade (limit + 1) c = ⟨.yield, c, []⟩ := by
    simp only [State.cascade, Activity.bind_apply, Activity.look_apply, hrun]
    rfl
  rw [hcascade]
  exact ⟨hm, (List.append_nil _).symm, Agrees.stays fun _ hno => by cases hno⟩

theorem react_runsAs {state : State σ} {limit i : Nat} {b : StateBlock} {index : UInt64}
    {c : Context σ} {w : Walk} {a : ActionLine} {x : Action σ} {rest : List ActionLine}
    (hs : s.StandsIn i b index c w) (hmeans : a.Means options s x)
    (hdone : forall messages, s.RunsAs (state.react limit index .done c) (w.log ++ messages)
      ({ w.write messages with index := w.index + 1 }.runLines options rest)) :
    s.RunsAs (state.react limit index (s.answer (a.command options)) c)
      (w.log ++ (a.command options).messages) (w.runLines options (a :: rest)) := by
  have hknown := hmeans.known
  rw [Walk.runLines]
  cases hcommand : a.command options with
  | goto target =>
      exact ⟨Mirrors.standing hs, by simp [Step.log, State.react, answer, Command.messages],
        Agrees.goes (hknown target hcommand)⟩
  | yield =>
      exact ⟨Mirrors.standing hs, by simp [Step.log, State.react, answer, Command.messages],
        Agrees.stays fun _ hno => by cases hno⟩
  | loop =>
      have hmoved := hs.moveIndex 0 (Nat.zero_le _)
      exact ⟨Mirrors.standing hmoved, by simp [Step.log, State.react, answer, Command.messages],
        Agrees.stays fun _ hno => by cases hno⟩
  | done => exact hdone []
  | log message => exact hdone [message]

theorem cascade_runsAs {b : StateBlock} {state : State σ}
    (hrealizes : state.Realizes (ActionLine.Means options s) b)
    (hshort : (Block.actionsOf b.run).length < 2 ^ 64) {lines : List ActionLine} {limit i : Nat}
    (hlimit : lines.length < limit) {index : UInt64} {c : Context σ} {w : Walk}
    (hs : s.StandsIn i b index c w) (hlines : (Block.actionsOf b.run).drop index.toNat = lines) :
    s.RunsAs (state.cascade limit c) w.log (w.runLines options lines) := by
  induction lines generalizing limit index c w with
  | nil =>
      cases limit with
      | zero => cases hlimit
      | succ limit =>
          apply RunsAs.cascade_end (Mirrors.standing hs)
          rw [hs.position, List.getElem?_eq_none_iff, ← hrealizes.run.length_eq]
          exact List.drop_eq_nil_iff.mp hlines
  | cons a rest ih =>
      cases limit with
      | zero => cases hlimit
      | succ limit =>
          have hline : (Block.actionsOf b.run)[index.toNat]? = some a := by
            rw [← List.head?_drop, hlines, List.head?_cons]
          have hlt : index.toNat < (Block.actionsOf b.run).length :=
            (List.getElem?_eq_some_iff.mp hline).1
          rcases exists_of_forall₂_getElem? hrealizes.run hline with ⟨x, hx, hmeans⟩
          have hrun : state.run[c.position.actionIndex.toNat]? =
              some (s.carryOut (a.command options)) := by
            rw [hs.position, hx, hmeans.action]
          apply RunsAs.cascade hrun
          rw [hs.position]
          apply react_runsAs hs hmeans
          -- The rest of the section starts one line further on, and the index does not overflow.
          intro messages
          have hnext : (index + 1).toNat = index.toNat + 1 := by
            rw [UInt64.toNat_add, UInt64.toNat_one]
            exact Nat.mod_eq_of_lt (by omega)
          have hmoved := (hs.write messages).moveIndex (index + 1) (by omega)
          rw [hnext, ← hs.index] at hmoved
          apply ih (Nat.lt_of_succ_lt_succ hlimit) hmoved
          rw [hnext, ← List.tail_drop, hlines, List.tail_cons]

/-!
## Ticks
-/

theorem write_nil (w : Walk) : w.write [] = w := by
  simp [Walk.write]

theorem begin_follows (h : m.Executes options s) :
    s.Follows m.begin (s.begin options) := by
  have hknown := h.realizes.enter.known
  have hfails : forall result, s.Follows
      (do Activity.tell (.notStarted m.name result); Activity.raise .noFirstTransition :
        Activity σ Unit)
      (fun w => w.fail .noFirstTransition) := by
    intro result
    exact Follows.tell_bind rfl (Follows.raise .noFirstTransition)
  unfold Machine.begin Script.begin
  rw [h.realizes.enter.action]
  cases hcommand : s.action.command options with
  | goto target =>
      refine Follows.carryOut_bind (fun w => ?_) (transition_follows h (hknown target hcommand))
      exact congrArg (s.goTo options target) (write_nil w).symm
  | yield => exact Follows.carryOut_bind (fun w => rfl) (hfails .yield)
  | loop => exact Follows.carryOut_bind (fun w => rfl) (hfails .loop)
  | done => exact Follows.carryOut_bind (fun w => rfl) (hfails .done)
  | log message => exact Follows.carryOut_bind (fun w => rfl) (hfails .done)

theorem Agrees.obey_follows (h : m.Executes options s) {result : TickResult}
    {target : Option String} (hagrees : s.Agrees result target) :
    s.Follows (m.obey result) (fun w => s.follow options (w, target)) := by
  cases hagrees with
  | stays hstays =>
      cases result with
      | transition destination => exact absurd rfl (hstays destination)
      | done => exact Follows.pure ()
      | yield => exact Follows.pure ()
      | loop => exact Follows.pure ()
  | goes hlt => exact transition_follows h hlt

theorem proceed_follows (h : m.Executes options s) {i : Nat} {b : StateBlock} {index : UInt64}
    {c : Context σ} {w : Walk} (hs : s.StandsIn i b index c w) :
    s.Mirrors (m.proceed c).context (s.proceed options b w) ∧
      (s.proceed options b w).log = w.log ++ (m.proceed c).log := by
  rcases hs.state h with ⟨_, _, state, hstate, hrealizes⟩
  have hshort := h.short b (List.mem_of_getElem? hs.block)
  have hlimit : ((Block.actionsOf b.run).drop index.toNat).length < State.cascadeLimit := by
    rw [List.length_drop, State.cascadeLimit]
    omega
  have hproceed : m.proceed c = (state.tick >>= m.obey) c := by
    simp only [Machine.proceed, Activity.bind_apply, Activity.look_apply, hstate, List.nil_append]
    cases (state.tick c).value <;> rfl
  have hruns := cascade_runsAs hrealizes hshort hlimit hs rfl
  rcases hruns.answer.obey_follows h _ _ hruns.mirrors with ⟨hend, hlog⟩
  rw [hproceed, Script.proceed, hs.index]
  refine ⟨hend, ?_⟩
  rw [hlog, hruns.log, List.append_assoc]
  simp [Step.log, State.tick]

theorem tick_follows (h : m.Executes options s) :
    s.Follows m.tick (s.tick options) := by
  intro c w hm
  cases hm with
  | start hposition hcurrent hindex _ =>
      have hm : s.Mirrors c.resetError { w with error := none } :=
        Mirrors.start hposition hcurrent hindex rfl
      have htick : m.tick c = m.begin c.resetError := by
        have hstart : c.resetError.position.isStart = true := by
          rw [Context.resetError, hposition]
          rfl
        simp [Machine.tick, hstart]
      rw [htick, Script.tick, if_pos hcurrent]
      exact begin_follows h _ _ hm
  | standing hs =>
      have hs' : s.StandsIn _ _ _ c.resetError { w with error := none } :=
        ⟨hs.block, hs.bound, hs.position, hs.current, hs.index, rfl⟩
      rcases hs'.state h with ⟨hstart, hb, _⟩
      have htick : m.tick c = m.proceed c.resetError := by
        simp [Machine.tick, hstart]
      have hcurrent : w.current ≠ none := by
        rw [hs.current]
        exact Option.some_ne_none _
      rw [htick, Script.tick, if_neg hcurrent, hb]
      exact proceed_follows h hs'

/-!
## Messages
-/

theorem find?_handler {lines : List ActionLine} {handlers : List (String × Action σ)}
    (h : List.Forall₂ (fun a x => x.1 = a.message.getD "" ∧ ActionLine.Means options s a x.2)
      lines handlers)
    (hkeyed : forall a, a ∈ lines -> exists key, a.message = some key) (key : String) :
    (lines.find? (fun a => a.message == some key) = none ∧ handlers.lookup key = none) ∨
      exists a x, lines.find? (fun a => a.message == some key) = some a ∧
        handlers.lookup key = some x ∧ a.Means options s x := by
  induction h with
  | nil => exact Or.inl ⟨rfl, rfl⟩
  | @cons a x lines handlers hax _ ih =>
      rcases x with ⟨k, x⟩
      rcases hkeyed a List.mem_cons_self with ⟨k', hk'⟩
      have hk : k = k' := by simpa [hk'] using hax.1
      subst hk
      by_cases heq : key = k
      · simp only [List.find?_cons, List.lookup_cons, hk', heq, beq_self_eq_true]
        exact Or.inr ⟨a, x, rfl, rfl, hax.2⟩
      · have hne : (some k == some key) = false := by simpa using fun h => heq h.symm
        have hne' : (key == k) = false := by simpa using heq
        simp only [List.find?_cons, List.lookup_cons, hk', hne, hne']
        exact ih fun b hb => hkeyed b (List.mem_cons_of_mem _ hb)

theorem agrees_reply {target : Option String}
    (hknown : forall name, target = some name -> s.number name < s.states.length) :
    s.Agrees (s.reply target) target := by
  cases target with
  | none => exact Agrees.stays fun _ hno => by cases hno
  | some name => exact Agrees.goes (hknown name rfl)

theorem send_carryOut {state : State σ} {message : Envelope} {a : ActionLine}
    {x : Action σ} (hx : state.handler? message.key = some x) (hmeans : a.Means options s x)
    {c : Context σ} {w : Walk} (hm : s.Mirrors c w) :
    s.Mirrors (state.send message c).context (w.answerLine options a).1 ∧
      (w.answerLine options a).1.log = w.log ++ (state.send message c).log ∧
      (state.send message c).value = (s.reply (w.answerLine options a).2, message) := by
  have hreturned : s.Mirrors { c with hasMessage := false } w := hm.same_place rfl rfl rfl hm.error
  rw [State.send, hx, hmeans.action, Walk.answerLine]
  cases hcommand : a.command options with
  | goto target => exact ⟨hreturned, (List.append_nil _).symm, rfl⟩
  | yield => exact ⟨(hreturned.write []).fail .handlerNotDone, rfl, rfl⟩
  | loop => exact ⟨(hreturned.write []).fail .handlerNotDone, rfl, rfl⟩
  | done => exact ⟨hreturned.write [], rfl, rfl⟩
  | log text => exact ⟨hreturned.write [text], rfl, rfl⟩

theorem answerLine_known {a : ActionLine} {x : Action σ} (hmeans : a.Means options s x) (w : Walk)
    (name : String) (h : (w.answerLine options a).2 = some name) :
    s.number name < s.states.length := by
  apply hmeans.known
  unfold Walk.answerLine at h
  cases hcommand : a.command options with
  | goto target =>
      simp only [hcommand, Option.some.injEq] at h
      rw [h]
  | yield => simp [hcommand] at h
  | loop => simp [hcommand] at h
  | done => simp [hcommand] at h
  | log message => simp [hcommand] at h

theorem send_eq_obey {state : State σ} {message : Envelope} {c : Context σ}
    (hstate : m.currentState? c = some state) :
    m.send message c =
      (state.send message >>= fun answer => do m.obey answer.1; return answer) c := by
  simp only [Machine.send_eq, Activity.bind_apply, Activity.look_apply, hstate, List.nil_append]

theorem send_follows (h : m.Executes options s) (message : Envelope) {c : Context σ} {w : Walk}
    (hm : s.Mirrors c w) :
    s.Mirrors (m.send message c).context (s.send options message.key w).1 ∧
      (s.send options message.key w).1.log = w.log ++ (m.send message c).log ∧
      (m.send message c).value = ((s.send options message.key w).2, message) := by
  cases hm with
  | start hposition hcurrent hindex herror =>
      rcases start_state (s := s) (m := m) hposition hcurrent with ⟨hb, hstate⟩
      have hsend : m.send message c = ⟨(.done, message), c, []⟩ := by
        simp only [Machine.send, Activity.bind_apply, Activity.look_apply, hstate]
        rfl
      rw [hsend, Script.send, handler?, hb]
      exact ⟨Mirrors.start hposition hcurrent hindex herror, (List.append_nil _).symm, rfl⟩
  | standing hs =>
      rcases hs.state h with ⟨_, hb, state, hstate, hrealizes⟩
      have hkeyed := h.keyed _ (List.mem_of_getElem? hs.block)
      rw [send_eq_obey hstate, Script.send, handler?, hb, Option.bind_some]
      rcases find?_handler hrealizes.on hkeyed message.key with
        ⟨hline, hx⟩ | ⟨a, x, hline, hx, hmeans⟩
      · have hsend : state.send message c = ⟨(.done, message), c, []⟩ := by
          rw [State.send, State.handler?, hx]
          rfl
        simp only [hline, Activity.bind_apply, hsend]
        exact ⟨Mirrors.standing hs, (List.append_nil _).symm, rfl⟩
      · rcases send_carryOut hx hmeans (Mirrors.standing hs) with ⟨hmid, hlog, hvalue⟩
        have hagrees := agrees_reply (s := s) (answerLine_known hmeans w)
        rcases hagrees.obey_follows h _ _ hmid with ⟨hend, hlog'⟩
        simp only [hline, Activity.bind_apply, hvalue]
        refine ⟨hend, ?_, rfl⟩
        rw [hlog', hlog, List.append_assoc]
        simp [Step.log]

/-!
## Whole runs
-/

theorem perform_follows (h : m.Executes options s) (op : Operation) {c : Context σ} {w : Walk}
    (hm : s.Mirrors c w) :
    s.Mirrors (m.perform op c).context (s.perform options op w).1 ∧
      (s.perform options op w).1.log = (m.perform op c).log ∧
      (m.perform op c).value.map Prod.fst = (s.perform options op w).2 := by
  have hm' : s.Mirrors c { w with log := [] } := hm.same_place rfl rfl rfl hm.error
  cases op with
  | tick =>
      rcases tick_follows h c _ hm' with ⟨hend, hlog⟩
      refine ⟨hend, ?_, rfl⟩
      rw [perform, hlog]
      simp [Machine.perform, Step.log]
  | send message =>
      rcases send_follows h message hm' with ⟨hend, hlog, hvalue⟩
      refine ⟨hend, ?_, ?_⟩
      · rw [perform, hlog]
        simp [Machine.perform, Step.log]
      · simp only [Machine.perform, Activity.bind_apply, Activity.pure_apply, hvalue,
          Option.map_some, perform]
  | reset => exact ⟨Mirrors.start rfl rfl rfl rfl, rfl, rfl⟩
  | resetError => exact ⟨hm'.same_place rfl rfl rfl rfl, rfl, rfl⟩

theorem Mirrors.name_eq {c : Context σ} {w : Walk} (hm : s.Mirrors c w)
    (h : m.Executes options s) :
    (m.currentState? c).map State.name = w.current := by
  cases hm with
  | start hposition hcurrent _ _ =>
      rw [(start_state (s := s) (m := m) hposition hcurrent).2, hcurrent, Option.map_none]
  | standing hs =>
      rcases hs.state h with ⟨_, _, state, hstate, hrealizes⟩
      rw [hstate, hs.current, Option.map_some, hrealizes.name]

theorem Mirrors.index_eq {c : Context σ} {w : Walk} (hm : s.Mirrors c w) :
    c.position.actionIndex.toNat = w.index := by
  cases hm with
  | start hposition _ hindex _ =>
      rw [hposition, hindex]
      rfl
  | standing hs => rw [hs.position, hs.index]

theorem observe_eq (h : m.Executes options s) (ops : List Operation) {c : Context σ} {w : Walk}
    (hm : s.Mirrors c w) :
    m.observe ops c = s.observe options ops w := by
  induction ops generalizing c w with
  | nil => rfl
  | cons op rest ih =>
      rcases perform_follows h op hm with ⟨hend, hlog, hanswer⟩
      have hfirst : m.observation (m.perform op c) =
          { state := (s.perform options op w).1.current
            actionIndex := (s.perform options op w).1.index
            lastError := (s.perform options op w).1.error
            answer := (s.perform options op w).2
            log := (s.perform options op w).1.log } := by
        rw [Machine.observation, hend.name_eq h, hend.index_eq, hend.error, hlog, hanswer]
      have hrest := ih hend
      unfold Machine.observe at hrest ⊢
      rw [Machine.trace, List.map_cons, Script.observe, hfirst, hrest]

end Script

/-!
## Compiled machines
-/

theorem Compiled.executes {options : Options} {registry : Registry σ} {source : String}
    {script : Script} {table : NameTable} {m : Machine σ}
    (h : Compiled options registry source script table m)
    (hbuiltins : Registry.builtins σ options = .ok registry)
    (hsize : m.states.length ≤ 2 ^ 31) (hlength : source.length < 2 ^ 64) :
    m.Executes options script where
  realizes := h.realizes.imp fun _ _ hax => hax.means hbuiltins h.table_eq
  distinct := h.distinct
  size := h.length_states ▸ hsize
  short := by
    intro b hb
    have hrun := (Script.section_of_ofTokens h.parsed hb .run).1
    have htokens := length_tokens_scan_le source
    exact Nat.lt_of_le_of_lt (Nat.le_trans hrun htokens) hlength
  keyed := by
    intro b hb
    exact (Script.section_of_ofTokens h.parsed hb .on).2 rfl

theorem State.Realizes.exists_of_mem {R : ActionLine -> Action σ -> Prop} {b : StateBlock}
    {state : State σ} (h : state.Realizes R b) {a : ActionLine} (ha : a ∈ b.actions) :
    exists x, R a x := by
  rcases List.mem_flatMap.mp ha with ⟨block, hblock, ha⟩
  rcases List.mem_filterMap.mp hblock with ⟨found, hfound, heq⟩
  have hactions : Block.actionsOf found = block.actions := by
    rw [show found = some block from heq]
    rfl
  rw [← hactions] at ha
  rcases List.mem_iff_getElem?.mp ha with ⟨i, hi⟩
  simp only [List.mem_cons, List.not_mem_nil, or_false] at hfound
  rcases hfound with rfl | rfl | rfl | rfl
  · rcases exists_of_forall₂_getElem? h.enter hi with ⟨x, _, hx⟩
    exact ⟨x, hx⟩
  · rcases exists_of_forall₂_getElem? h.exit hi with ⟨x, _, hx⟩
    exact ⟨x, hx⟩
  · rcases exists_of_forall₂_getElem? h.run hi with ⟨x, _, hx⟩
    exact ⟨x, hx⟩
  · rcases exists_of_forall₂_getElem? h.on hi with ⟨x, _, _, hx⟩
    exact ⟨x.2, hx⟩

theorem Machine.Realizes.exists_of_mem {R : ActionLine -> Action σ -> Prop} {script : Script}
    {m : Machine σ} (h : m.Realizes R script) {a : ActionLine}
    (ha : a = script.action ∨ a ∈ script.actions) :
    exists x, R a x := by
  rcases ha with rfl | ha
  · exact ⟨_, h.enter⟩
  · rcases List.mem_flatMap.mp ha with ⟨b, hb, ha⟩
    rcases List.mem_iff_getElem?.mp hb with ⟨i, hi⟩
    rcases exists_of_forall₂_getElem? h.states hi with ⟨state, _, hstate⟩
    exact hstate.exists_of_mem ha

/--
A machine compiled with the built-in actions shows a host exactly what its script shows when it is
run as it is written: the same state by name, the same place in the run section, the same error,
the same answers and the same log, after every operation.  Every line of the script calls a
built-in action.  A source in memory has fewer than `2 ^ 64` characters.
-/
theorem compile_preserves_observations (options : Options) (registry : Registry σ)
    (source : String) (b : Build σ) (hbuiltins : Registry.builtins σ options = .ok registry)
    (hcompile : (compile options registry source).result = .ok b)
    (hsize : b.machine.states.length ≤ 2 ^ 31) (hlength : source.length < 2 ^ 64) :
    exists script, Script.ofTokens options (scan source).tokens = .ok script ∧
      (forall a, a = script.action ∨ a ∈ script.actions ->
        (a.command? options).isSome = true) ∧
      forall (data : σ) (ops : List Operation),
        b.machine.observe ops (.fresh data) = script.observe options ops {} := by
  rcases compiled_of_compile_eq_ok hcompile with ⟨script, table, hcompiled⟩
  have hexecutes := hcompiled.executes hbuiltins hsize hlength
  refine ⟨script, hcompiled.parsed, ?_, ?_⟩
  · intro a ha
    rcases hexecutes.realizes.exists_of_mem ha with ⟨x, hx⟩
    rw [hx.command, Option.isSome_some]
  · intro data ops
    exact Script.observe_eq hexecutes ops (Script.Mirrors.start rfl rfl rfl rfl)

theorem compile_preserves_observations_two_states :
    exists (r : Registry Unit) (b : Build Unit),
      Registry.builtins Unit {} = .ok r ∧
        (compile {} r "@machine m->a\n@state a\n@run\nlog hi\n@on\nk:->b\n@state b").result =
          .ok b ∧
        b.machine.states.length = 2 ∧
        b.machine.observe [.tick, .tick, .send { key := "k" }] (.fresh ()) =
          [⟨some "a", 0, none, none, []⟩, ⟨some "a", 1, none, none, ["hi"]⟩,
            ⟨some "b", 0, none, some (.transition 1), []⟩] := by
  have heval : ((Registry.builtins Unit {}).toOption.map fun r =>
      (compile {} r
        "@machine m->a\n@state a\n@run\nlog hi\n@on\nk:->b\n@state b").result.toOption.map
          fun b => b.machine.states.length) = some (some 2) := by
    decide +kernel
  have hscript : (Script.ofTokens {}
      (scan "@machine m->a\n@state a\n@run\nlog hi\n@on\nk:->b\n@state b").tokens).toOption.map
        (fun script => script.observe {} [.tick, .tick, .send { key := "k" }] {}) =
      some [⟨some "a", 0, none, none, []⟩, ⟨some "a", 1, none, none, ["hi"]⟩,
        ⟨some "b", 0, none, some (.transition 1), []⟩] := by
    decide +kernel
  rcases exists_of_toOption_map_eq_some heval with ⟨r, hr, hcompile⟩
  rcases exists_of_toOption_map_eq_some hcompile with ⟨b, hb, hsize⟩
  rcases compile_preserves_observations {} r _ b hr hb (by rw [hsize]; decide) (by decide) with
    ⟨script, hparsed, _, hobserve⟩
  refine ⟨r, b, hr, hb, hsize, ?_⟩
  rw [hparsed] at hscript
  rw [hobserve () _]
  exact Option.some.inj hscript

end BehaviorScript
