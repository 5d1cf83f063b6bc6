import BehaviorScript.Proofs.Watching

/-!
# Which actions are called

An action has a place in its machine: a state, a section of it, and an index in that section.
In a noted machine every action leaves a note of each call, with its place, the context it was
called with, its answer, and the context it left behind.  The notes of each part of the runtime are
given here in closed form, so that the order and the number of calls can be read off.
-/

namespace BehaviorScript

variable {σ α β : Type}

/-!
## Notes beside the data
-/

/--
The place of an action.  The states count from zero, and so do the actions of a section.
-/
structure Site where
  role : Role
  state : Nat
  index : Nat
  deriving DecidableEq, Repr

/--
A call of an action: its place, what it saw, what it answered, and what it left behind.
-/
structure Note (σ : Type) where
  site : Site
  seen : Context σ
  answer : TickResult
  left : Context σ
  deriving DecidableEq, Repr

def Action.note (x : Action σ) (site : Site) (c : Context σ) : Note σ :=
  ⟨site, c, (x c).value, (x c).context⟩

def Note.IsCallIn (actions : List (Action σ)) (n : Note σ) : Prop :=
  exists x, actions[n.site.index]? = some x ∧ n = x.note n.site n.seen

abbrev Noted (σ : Type) : Type :=
  σ × List (Note σ)

def Context.noted (c : Context σ) : Context (Noted σ) :=
  c.withData (c.data, [])

def Context.unnoted (c : Context (Noted σ)) : Context σ :=
  c.withData c.data.1

namespace Step

def unnoted (s : Step (Noted σ) α) : Step σ α :=
  ⟨s.value, s.context.unnoted, s.events⟩

def notes (s : Step (Noted σ) α) : List (Note σ) :=
  s.context.data.2

end Step

def Action.noted (site : Site) (x : Action σ) : Action (Noted σ) :=
  fun c =>
    let step := x c.unnoted
    ⟨step.value, step.context.withData (step.context.data, c.data.2 ++ [x.note site c.unnoted]),
      step.events⟩

namespace State

def noteFrom (role : Role) (k i : Nat) (actions : List (Action σ)) : List (Action (Noted σ)) :=
  (actions.zipIdx i).map fun (x, j) => Action.noted ⟨role, k, j⟩ x

def noted (k : Nat) (s : State σ) : State (Noted σ) where
  name := s.name
  run := noteFrom .run k 0 s.run
  enter := noteFrom .enter k 0 s.enter
  exit := noteFrom .exit k 0 s.exit
  on := s.on.zipIdx.map fun ((key, x), j) => (key, Action.noted ⟨.handler, k, j⟩ x)

end State

def Machine.noted (m : Machine σ) : Machine (Noted σ) where
  name := m.name
  enter := Action.noted ⟨.start, 0, 0⟩ m.enter
  states := m.states.zipIdx.map fun (s, k) => s.noted k

/-!
## Noted activities
-/

/--
The first activity does what the second does, and adds the given notes.
-/
def Activity.Notes (x : Activity (Noted σ) α) (y : Activity σ α)
    (notes : Context σ -> List (Note σ)) : Prop :=
  forall c, (x c).unnoted = y c.unnoted ∧ (x c).notes = c.data.2 ++ notes c.unnoted

namespace Activity.Notes

theorem of_noted {x : Activity (Noted σ) α} {y : Activity σ α}
    {notes : Context σ -> List (Note σ)} (h : Notes x y notes) (c : Context σ) :
    (x c.noted).unnoted = y c ∧ (x c.noted).notes = notes c :=
  h c.noted

theorem pure (a : α) : Notes (Pure.pure a) (Pure.pure a : Activity σ α) fun _ => [] := by
  intro c
  exact ⟨rfl, (List.append_nil _).symm⟩

theorem bind {x : Activity (Noted σ) α} {y : Activity σ α} {f : α -> Activity (Noted σ) β}
    {g : α -> Activity σ β} {notes : Context σ -> List (Note σ)}
    (more : α -> Context σ -> List (Note σ)) (hx : Notes x y notes)
    (hf : forall a, Notes (f a) (g a) (more a)) :
    Notes (x >>= f) (y >>= g) fun c => notes c ++ more (y c).value (y c).context := by
  intro c
  rcases hx c with ⟨hstep, hnotes⟩
  have hvalue : (x c).value = (y c.unnoted).value := congrArg Step.value hstep
  have hcontext : (x c).context.unnoted = (y c.unnoted).context := congrArg Step.context hstep
  have hevents : (x c).events = (y c.unnoted).events := congrArg Step.events hstep
  rcases hf (x c).value (x c).context with ⟨hstep', hnotes'⟩
  constructor
  · rw [bind_apply, bind_apply, ← hvalue, ← hcontext, ← hevents, ← hstep']
    rfl
  · show (f (x c).value (x c).context).notes =
      c.data.2 ++ (notes c.unnoted ++ more (y c.unnoted).value (y c.unnoted).context)
    rw [hnotes', ← hvalue, ← hcontext, ← List.append_assoc, ← hnotes]
    rfl

theorem look_bind {f : Context (Noted σ) -> Activity (Noted σ) β}
    {g : Context σ -> Activity σ β} (notes : Context σ -> Context σ -> List (Note σ))
    (h : forall c, Notes (f c) (g c.unnoted) (notes c.unnoted)) :
    Notes (look >>= f) (look >>= g) fun c => notes c c := by
  intro c
  exact h c c

theorem change {f : Context (Noted σ) -> Context (Noted σ)} {g : Context σ -> Context σ}
    (hsame : forall c, (f c).unnoted = g c.unnoted) (hnotes : forall c, (f c).data.2 = c.data.2) :
    Notes (Activity.change f) (Activity.change g) fun _ => [] := by
  intro c
  constructor
  · rw [change_apply, change_apply, Step.unnoted, hsame]
  · rw [List.append_nil]
    exact hnotes c

theorem tell_bind (e : Event) {x : Activity (Noted σ) β} {y : Activity σ β}
    {notes : Context σ -> List (Note σ)} (h : Notes x y notes) :
    Notes (Activity.tell e >>= fun _ => x) (Activity.tell e >>= fun _ => y) notes := by
  have htell : Notes (Activity.tell e) (Activity.tell e : Activity σ Unit) fun _ => [] :=
    fun c => ⟨rfl, (List.append_nil _).symm⟩
  exact bind (fun _ => notes) htell fun _ => h

theorem raise (fault : Fault) :
    Notes (Activity.raise fault) (Activity.raise fault : Activity σ Unit) fun _ => [] := by
  intro c
  exact ⟨rfl, (List.append_nil _).symm⟩

end Activity.Notes

open Activity (Notes)

theorem Action.noted_notes (site : Site) (x : Action σ) :
    Notes (x.noted site) x fun c => [x.note site c] := by
  intro c
  exact ⟨rfl, rfl⟩

/-!
## Sections
-/

def Context.advance (c : Context σ) : Context σ :=
  c.setActionIndex (c.position.actionIndex + 1)

namespace State

/--
What an action of an enter or exit section leaves to the next one, with the fault if it was not
done.
-/
def settle (fault : Fault) (step : Step σ TickResult) : Context σ :=
  if step.value ≠ .done then { step.context with lastError := some fault } else step.context

def callNotes (fault : Fault) (role : Role) (k : Nat) :
    Nat -> List (Action σ) -> Context σ -> List (Note σ)
  | _, [], _ => []
  | i, x :: rest, c =>
      x.note ⟨role, k, i⟩ c :: callNotes fault role k (i + 1) rest (settle fault (x c))

theorem callAll_notes (fault : Fault) (role : Role) (k i : Nat) (actions : List (Action σ)) :
    Notes (callAll fault (noteFrom role k i actions)) (callAll fault actions)
      (callNotes fault role k i actions) := by
  induction actions generalizing i with
  | nil => exact Notes.pure ()
  | cons x rest ih =>
      -- whether or not a fault is written, the rest is called with what was left
      have hrest (result : TickResult) :
          Notes (do
              if result ≠ .done then
                Activity.raise fault
              callAll fault (noteFrom role k (i + 1) rest))
            (do
              if result ≠ .done then
                Activity.raise fault
              callAll fault rest)
            (fun c => callNotes fault role k (i + 1) rest
              (if result ≠ .done then { c with lastError := some fault } else c)) := by
        by_cases hdone : result ≠ .done
        · simp only [if_pos hdone]
          exact Notes.bind _ (Notes.raise fault) fun _ => ih (i + 1)
        · simp only [if_neg hdone]
          exact ih (i + 1)
      exact Notes.bind _ (Action.noted_notes ⟨role, k, i⟩ x) hrest

def runNotes (s : State σ) (k : Nat) : Nat -> Context σ -> List (Note σ)
  | 0, _ => []
  | limit + 1, c =>
      match s.run[c.position.actionIndex.toNat]? with
      | none => []
      | some x =>
          x.note ⟨.run, k, c.position.actionIndex.toNat⟩ c ::
            if (x c).value = .done then s.runNotes k limit (x c).context.advance else []

theorem runNotes_of_none {s : State σ} {c : Context σ}
    (h : s.run[c.position.actionIndex.toNat]? = none) (k limit : Nat) :
    s.runNotes k limit c = [] := by
  cases limit with
  | zero => rfl
  | succ limit => rw [runNotes, h]

theorem runNotes_of_some {s : State σ} {c : Context σ} {x : Action σ}
    (h : s.run[c.position.actionIndex.toNat]? = some x) (k limit : Nat) :
    s.runNotes k (limit + 1) c =
      x.note ⟨.run, k, c.position.actionIndex.toNat⟩ c ::
        if (x c).value = .done then s.runNotes k limit (x c).context.advance else [] := by
  rw [runNotes, h]

theorem getElem?_noteFrom (role : Role) (k : Nat) (actions : List (Action σ)) (j : Nat) :
    (noteFrom role k 0 actions)[j]? = actions[j]?.map (Action.noted ⟨role, k, j⟩) := by
  simp [noteFrom, List.getElem?_zipIdx, Function.comp_def]

theorem setActionIndex_notes (index : UInt64) :
    Notes (Activity.change (·.setActionIndex index))
      (Activity.change (·.setActionIndex index) : Activity σ Unit) fun _ => [] :=
  Notes.change (fun _ => rfl) fun _ => rfl

theorem cascade_notes (s : State σ) (k limit : Nat) :
    Notes ((s.noted k).cascade limit) (s.cascade limit) (s.runNotes k limit) := by
  induction limit with
  | zero => exact Notes.pure _
  | succ limit ih =>
      refine Notes.look_bind (fun seen c =>
        match s.run[seen.position.actionIndex.toNat]? with
        | none => []
        | some x =>
            x.note ⟨.run, k, seen.position.actionIndex.toNat⟩ c ::
              if (x c).value = .done then s.runNotes k limit (x c).context.advance else [])
        fun c => ?_
      -- both sections look at the same index, and the noted one has the noted action there
      have hrun : (s.noted k).run[c.position.actionIndex.toNat]? =
          s.run[c.unnoted.position.actionIndex.toNat]?.map
            (Action.noted ⟨.run, k, c.unnoted.position.actionIndex.toNat⟩) :=
        getElem?_noteFrom .run k s.run _
      rw [hrun]
      cases s.run[c.unnoted.position.actionIndex.toNat]? with
      | none => exact Notes.pure _
      | some x =>
          refine Notes.bind (fun result c =>
            if result = .done then s.runNotes k limit c.advance else [])
            (Action.noted_notes _ x) fun result => ?_
          refine Notes.look_bind (fun seen c => if result = .done then
            s.runNotes k limit (c.setActionIndex (seen.position.actionIndex + 1)) else [])
            fun c => ?_
          apply Notes.tell_bind
          cases result with
          | done =>
              exact Notes.bind (fun _ => s.runNotes k limit) (setActionIndex_notes _) fun _ => ih
          | yield => exact Notes.pure _
          | loop => exact Notes.bind (fun _ _ => []) (setActionIndex_notes 0) fun _ => Notes.pure _
          | transition destination => exact Notes.pure _

/-!
## One step of a run section
-/

theorem cascade_of_none {s : State σ} {c : Context σ}
    (h : s.run[c.position.actionIndex.toNat]? = none) (limit : Nat) :
    s.cascade (limit + 1) c = ⟨.yield, c, []⟩ := by
  rw [cascade]
  simp only [Activity.bind_apply, Activity.look_apply, h]
  rfl

def goOn (s : State σ) (limit : Nat) (step : Step σ TickResult) : TickResult × Context σ :=
  match step.value with
  | .done =>
      ((s.cascade limit step.context.advance).value, (s.cascade limit step.context.advance).context)
  | .yield => (.yield, step.context)
  | .loop => (.yield, step.context.setActionIndex 0)
  | .transition destination => (.transition destination, step.context)

theorem cascade_of_some {s : State σ} {c : Context σ} {x : Action σ}
    (h : s.run[c.position.actionIndex.toNat]? = some x) (limit : Nat) :
    (s.cascade (limit + 1) c).value = (s.goOn limit (x c)).1 ∧
      (s.cascade (limit + 1) c).context = (s.goOn limit (x c)).2 := by
  rw [cascade]
  simp only [Activity.bind_apply, Activity.look_apply, h]
  unfold goOn
  cases (x c).value with
  | done | yield | loop => exact ⟨rfl, rfl⟩
  | transition destination => exact ⟨rfl, rfl⟩

/-!
## Messages
-/

end State

/-!
## Machines
-/

namespace Machine

theorem state?_noted (m : Machine σ) (id : Int32) :
    m.noted.state? id = (m.state? id).map (State.noted id.toInt.toNat) := by
  unfold state? noted
  split
  · simp [List.getElem?_zipIdx, Function.comp_def]
  · rfl

theorem currentState?_noted (m : Machine σ) (c : Context (Noted σ)) :
    m.noted.currentState? c =
      (m.currentState? c.unnoted).map (State.noted c.unnoted.position.stateId.toInt.toNat) :=
  m.state?_noted c.position.stateId

def exitNotes (m : Machine σ) (c : Context σ) : List (Note σ) :=
  match m.currentState? c with
  | none => []
  | some s => State.callNotes .exitActionNotDone .exit c.position.stateId.toInt.toNat 0 s.exit c

def enterNotes (m : Machine σ) (destination : UInt64) (c : Context σ) : List (Note σ) :=
  match m.state? (destinationId destination) with
  | none => []
  | some s =>
      State.callNotes .enterActionNotDone .enter (destinationId destination).toInt.toNat 0 s.enter
        (c.moveTo ⟨destinationId destination, 0⟩)

def passageNotes (m : Machine σ) (destination : UInt64) (c : Context σ) : List (Note σ) :=
  m.exitNotes c ++ m.enterNotes destination (m.leave c).context

theorem leave_notes (m : Machine σ) : Notes m.noted.leave m.leave m.exitNotes := by
  refine Notes.look_bind (fun seen c =>
    match m.currentState? seen with
    | none => []
    | some s =>
        State.callNotes .exitActionNotDone .exit seen.position.stateId.toInt.toNat 0 s.exit c)
    fun c => ?_
  rw [currentState?_noted]
  cases m.currentState? c.unnoted with
  | none => exact Notes.pure ()
  | some s => exact State.callAll_notes _ _ _ _ _

theorem arrive_notes (m : Machine σ) (destination : UInt64) :
    Notes (m.noted.arrive destination) (m.arrive destination) (m.enterNotes destination) := by
  have hmove : Notes (Activity.change (·.moveTo ⟨destinationId destination, 0⟩))
      (Activity.change (·.moveTo ⟨destinationId destination, 0⟩) : Activity σ Unit) fun _ => [] :=
    Notes.change (fun _ => rfl) fun _ => rfl
  refine Notes.bind (fun _ c =>
    match m.state? (destinationId destination) with
    | none => []
    | some s =>
        State.callNotes .enterActionNotDone .enter (destinationId destination).toInt.toNat 0
          s.enter c) hmove fun _ => ?_
  rw [state?_noted]
  cases m.state? (destinationId destination) with
  | none => exact Notes.raise .destinationMissing
  | some s => exact Notes.tell_bind _ (State.callAll_notes _ _ _ _ _)

theorem transition_notes (m : Machine σ) (destination : UInt64) :
    Notes (m.noted.transition destination) (m.transition destination)
      (m.passageNotes destination) := by
  rw [transition_eq, transition_eq]
  exact Notes.bind (fun _ => m.enterNotes destination) m.leave_notes
    fun _ => m.arrive_notes destination

def obeyNotes (m : Machine σ) : TickResult -> Context σ -> List (Note σ)
  | .transition destination, c => m.passageNotes destination c
  | _, _ => []

def beginNotes (m : Machine σ) (c : Context σ) : List (Note σ) :=
  m.enter.note ⟨.start, 0, 0⟩ c :: m.obeyNotes (m.enter c).value (m.enter c).context

theorem begin_notes (m : Machine σ) : Notes m.noted.begin m.begin m.beginNotes := by
  refine Notes.bind m.obeyNotes (Action.noted_notes ⟨.start, 0, 0⟩ m.enter) fun result => ?_
  cases result with
  | done | yield | loop => exact Notes.tell_bind _ (Notes.raise _)
  | transition destination => exact m.transition_notes destination

def proceedNotes (m : Machine σ) (c : Context σ) : List (Note σ) :=
  match m.currentState? c with
  | none => []
  | some s =>
      s.runNotes c.position.stateId.toInt.toNat State.cascadeLimit c ++
        m.obeyNotes (s.tick c).value (s.tick c).context

theorem proceed_notes (m : Machine σ) : Notes m.noted.proceed m.proceed m.proceedNotes := by
  refine Notes.look_bind (fun seen c =>
    match m.currentState? seen with
    | none => []
    | some s =>
        s.runNotes seen.position.stateId.toInt.toNat State.cascadeLimit c ++
          m.obeyNotes (s.tick c).value (s.tick c).context) fun c => ?_
  rw [currentState?_noted]
  cases m.currentState? c.unnoted with
  | none => exact Notes.raise _
  | some s =>
      refine Notes.bind m.obeyNotes (s.cascade_notes _ State.cascadeLimit) fun result => ?_
      cases result with
      | done | yield | loop => exact Notes.pure ()
      | transition destination => exact m.transition_notes destination

def tickNotes (m : Machine σ) (c : Context σ) : List (Note σ) :=
  if c.position.isStart then m.beginNotes c.resetError else m.proceedNotes c.resetError

theorem tick_notes (m : Machine σ) : Notes m.noted.tick m.tick m.tickNotes := by
  have hreset : Notes (Activity.change Context.resetError)
      (Activity.change Context.resetError : Activity σ Unit) fun _ => [] :=
    Notes.change (fun _ => rfl) fun _ => rfl
  refine Notes.bind (fun _ c => if c.position.isStart then m.beginNotes c else m.proceedNotes c)
    hreset fun _ => ?_
  refine Notes.look_bind (fun seen c =>
    if seen.position.isStart then m.beginNotes c else m.proceedNotes c) fun c => ?_
  cases hstart : c.unnoted.position.isStart with
  | true =>
      have hstart : c.position.isStart = true := hstart
      simp only [hstart, if_true]
      exact m.begin_notes
  | false =>
      have hstart : c.position.isStart = false := hstart
      simp only [hstart, Bool.false_eq_true, if_false]
      exact m.proceed_notes

end Machine

end BehaviorScript
