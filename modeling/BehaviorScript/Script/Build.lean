import BehaviorScript.Diagnostic
import BehaviorScript.Machine
import BehaviorScript.Registry

/-!
# Building machines

A resolved script becomes a machine by building each of its actions: the schema is
found by the action's name, every parameter is bound to the property it is meant for,
and the schema makes an action out of the bindings.  The first failure ends the build,
in the order first action, then states, each with its sections enter, exit, run and on.
-/

namespace BehaviorScript

/-!
## Actions
-/

namespace ActionLine

/--
The property that a parameter is meant for: the one of its label, or the default property if it
goes by the reserved name.
-/
def propertyFor {σ : Type} (a : ActionLine) (options : Options) (schema : Schema σ) (x : Param) :
    Except CompileError Property :=
  if x.name = options.defaultParam then
    match schema.default? with
    | some p => .ok p
    | none => .error (.noDefaultProperty x.line a.name)
  else
    match schema.property? x.name with
    | some p => .ok p
    | none => .error (.unknownProperty x.line a.name x.name)

/--
What a parameter binds a property to.  A colon takes a value, and an arrow takes a state.
-/
def bindingFor (a : ActionLine) (p : Property) (x : Param) : Except CompileError Binding :=
  match x.op, p.kind.converter? with
  | .transition, none =>
      match x.resolved with
      | some index => .ok (.state index.toUInt64)
      | none => .error (.unknownState x.line x.value)
  | .assign, some convert =>
      match convert x.value with
      | some v => .ok (.value v)
      | none => .error (.invalidValue x.line p.name x.value)
  | op, _ => .error (.kindMismatch x.line a.name p.name op)

def bindParams {σ : Type} (a : ActionLine) (options : Options) (schema : Schema σ) :
    Bindings -> List Param -> Except CompileError Bindings
  | bs, [] => .ok bs
  | bs, x :: rest =>
      match a.propertyFor options schema x with
      | .error e => .error e
      | .ok p =>
          match a.bindingFor p x with
          | .error e => .error e
          | .ok b => a.bindParams options schema (bs.bind p.name b) rest

def build {σ : Type} (options : Options) (registry : Registry σ) (a : ActionLine) :
    Except CompileError (Action σ) :=
  match registry.find? a.name with
  | none => .error (.unknownAction a.line a.name)
  | some schema =>
      match a.bindParams options schema {} a.params with
      | .error e => .error e
      | .ok bs =>
          match schema.build bs with
          | .error cause => .error (.bindFailed a.line a.name cause)
          | .ok action => .ok action

end ActionLine

/-!
## States and machines
-/

/--
The state with the handlers for some message keys.  None of the keys may be there twice.
-/
def ActionLine.buildHandlers {σ : Type} (options : Options) (registry : Registry σ) :
    List String -> State σ -> List ActionLine -> Except CompileError (State σ)
  | _, s, [] => .ok s
  | keys, s, a :: rest =>
      let key := a.message.getD ""
      if key ∈ keys then .error (.duplicateMessage a.line key)
      else
        match a.build options registry with
        | .error e => .error e
        | .ok action => buildHandlers options registry (key :: keys) (s.addHandler key action) rest

def StateBlock.build {σ : Type} (options : Options) (registry : Registry σ) (s : StateBlock) :
    Except CompileError (State σ) := do
  let enter ← (Block.actionsOf s.enter).mapM (ActionLine.build options registry)
  let exit ← (Block.actionsOf s.exit).mapM (ActionLine.build options registry)
  let run ← (Block.actionsOf s.run).mapM (ActionLine.build options registry)
  let silent : State σ := { name := s.name, run := run, enter := enter, exit := exit }
  ActionLine.buildHandlers options registry [] silent (Block.actionsOf s.on)

def Script.build {σ : Type} (options : Options) (registry : Registry σ) (s : Script) :
    Except CompileError (Machine σ) := do
  let enter ← s.action.build options registry
  let states ← s.states.mapM (StateBlock.build options registry)
  return { name := s.name, enter := enter, states := states }

end BehaviorScript
