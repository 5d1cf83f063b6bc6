import BehaviorScript.Proofs.Run
import BehaviorScript.Script

/-!
# Running a script as it is written

A script that calls only built-in actions can be run without compiling it.  The
interpreter goes through the parsed script line by line: it keeps the name of the state
that it is in, looks the state up by that name whenever it needs it, and reads what a line
means from the line itself.  There are no state numbers and no tables, and a section is
a list of lines of which some are still to come.
-/

namespace BehaviorScript

/-!
## What a line means
-/

inductive Command where
  | goto (target : String)
  | yield
  | done
  | loop
  | log (message : String)
  deriving DecidableEq, Repr

namespace Command

def messages : Command -> List String
  | log message => [message]
  | _ => []

def isDone : Command -> Bool
  | done => true
  | log _ => true
  | _ => false

end Command

namespace ActionLine

def isCalled (a : ActionLine) (name : String) : Bool :=
  Text.sameName name a.name

/--
What the parameters give for the only property of an action, by its name or without a label.
A later parameter takes the place of an earlier one.
-/
def given? (options : Options) (property : String) (params : List Param) : Option String :=
  params.foldl
    (fun found x =>
      if x.name = options.defaultParam ∨ Text.sameName x.name property = true then some x.value
      else found)
    none

def command? (options : Options) (a : ActionLine) : Option Command :=
  if a.isCalled options.transitionAction || a.isCalled "goto" then
    (given? options "target" a.params).map .goto
  else if a.isCalled "yield" then some .yield
  else if a.isCalled "done" then some .done
  else if a.isCalled "loop" then some .loop
  else if a.isCalled "log" then some (.log ((given? options "message" a.params).getD ""))
  else none

def command (options : Options) (a : ActionLine) : Command :=
  (a.command? options).getD .done

end ActionLine

/-!
## Walks
-/

/--
How far the script has come: the name of the state it is in, the number of lines of that
state's run section that are behind it, what last went wrong, and what was written to the log.
-/
structure Walk where
  current : Option String := none
  index : Nat := 0
  error : Option Fault := none
  log : List String := []
  deriving DecidableEq, Repr

namespace Walk

def write (w : Walk) (messages : List String) : Walk :=
  { w with log := w.log ++ messages }

def fail (w : Walk) (fault : Fault) : Walk :=
  { w with error := some fault }

/--
Carry out lines that all have to be done at once.  Each that is not leaves the given fault.
-/
def callAll (options : Options) (fault : Fault) (w : Walk) : List ActionLine -> Walk
  | [] => w
  | a :: rest =>
      let command := a.command options
      let w := w.write command.messages
      (if command.isDone then w else w.fail fault).callAll options fault rest

/--
Carry out the lines of a run section that are still to come, up to the first that is not done
at once.  If that one leads to another state, the name of that state is given as well.
-/
def runLines (options : Options) (w : Walk) : List ActionLine -> Walk × Option String
  | [] => (w, none)
  | a :: rest =>
      match a.command options with
      | .goto target => (w, some target)
      | .yield => (w, none)
      | .loop => ({ w with index := 0 }, none)
      | command =>
          { w.write command.messages with index := w.index + 1 }.runLines options rest

def answerLine (options : Options) (w : Walk) (a : ActionLine) : Walk × Option String :=
  match a.command options with
  | .goto target => (w, some target)
  | command =>
      let w := w.write command.messages
      (if command.isDone then w else w.fail .handlerNotDone, none)

end Walk

/-!
## The interpreter
-/

namespace Script

def block? (s : Script) (name : String) : Option StateBlock :=
  s.states.find? fun b => Text.sameName b.name name

def number (s : Script) (name : String) : Nat :=
  s.states.findIdx fun b => Text.sameName b.name name

def current? (s : Script) (w : Walk) : Option StateBlock :=
  w.current.bind s.block?

def leave (options : Options) (s : Script) (w : Walk) : Walk :=
  match s.current? w with
  | some b => w.callAll options .exitActionNotDone (Block.actionsOf b.exit)
  | none => w

def arrive (options : Options) (s : Script) (target : String) (w : Walk) : Walk :=
  match s.block? target with
  | some b =>
      { w with current := some b.name, index := 0 }.callAll options .enterActionNotDone
        (Block.actionsOf b.enter)
  | none => { w with current := some target, index := 0 }.fail .destinationMissing

def goTo (options : Options) (s : Script) (target : String) (w : Walk) : Walk :=
  s.arrive options target (s.leave options w)

def begin (options : Options) (s : Script) (w : Walk) : Walk :=
  match s.action.command options with
  | .goto target => s.goTo options target w
  | command => (w.write command.messages).fail .noFirstTransition

def follow (options : Options) (s : Script) : Walk × Option String -> Walk
  | (w, some target) => s.goTo options target w
  | (w, none) => w

def proceed (options : Options) (s : Script) (b : StateBlock) (w : Walk) : Walk :=
  s.follow options (w.runLines options ((Block.actionsOf b.run).drop w.index))

def tick (options : Options) (s : Script) (w : Walk) : Walk :=
  let w := { w with error := none }
  if w.current = none then s.begin options w
  else
    match s.current? w with
    | some b => s.proceed options b w
    | none => w.fail .currentStateMissing

def handler? (s : Script) (key : String) (w : Walk) : Option ActionLine :=
  (s.current? w).bind fun b => (Block.actionsOf b.on).find? fun a => a.message == some key

def reply (s : Script) : Option String -> TickResult
  | some target => .transition (s.number target).toUInt64
  | none => .done

def send (options : Options) (s : Script) (key : String) (w : Walk) : Walk × TickResult :=
  match s.handler? key w with
  | none => (w, .done)
  | some a =>
      let after := w.answerLine options a
      (s.follow options after, s.reply after.2)

def perform (options : Options) (s : Script) (op : Operation) (w : Walk) :
    Walk × Option TickResult :=
  let w := { w with log := [] }
  match op with
  | .tick => (s.tick options w, none)
  | .send message =>
      let (w, answer) := s.send options message.key w
      (w, some answer)
  | .reset => ({}, none)
  | .resetError => ({ w with error := none }, none)

end Script

/-!
## What a host sees
-/

/--
What a host sees after an operation: the name of the current state, the position in its run
section, the last error, the answer to a message, and what was written to the log.
-/
structure Observation where
  state : Option String
  actionIndex : Nat
  lastError : Option Fault
  answer : Option TickResult
  log : List String
  deriving DecidableEq, Repr

def Script.observe (options : Options) (s : Script) : List Operation -> Walk -> List Observation
  | [], _ => []
  | op :: rest, w =>
      let (w, answer) := s.perform options op w
      { state := w.current, actionIndex := w.index, lastError := w.error, answer := answer,
        log := w.log } :: s.observe options rest w

def Event.message? : Event -> Option String
  | .logged message _ => some message
  | _ => none

def Step.log {σ α : Type} (step : Step σ α) : List String :=
  step.events.filterMap Event.message?

def Machine.observation {σ : Type} (m : Machine σ)
    (step : Step σ (Option (TickResult × Envelope))) : Observation :=
  { state := (m.currentState? step.context).map State.name
    actionIndex := step.context.position.actionIndex.toNat
    lastError := step.context.lastError
    answer := step.value.map Prod.fst
    log := step.log }

def Machine.observe {σ : Type} (m : Machine σ) (ops : List Operation) (c : Context σ) :
    List Observation :=
  (m.trace ops c).map m.observation

end BehaviorScript
