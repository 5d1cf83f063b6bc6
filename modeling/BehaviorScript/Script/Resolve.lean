import BehaviorScript.Diagnostic
import BehaviorScript.Table

/-!
# Resolving states

States are numbered in the order of their declaration.  Resolving a script puts the
number of the named state into every parameter given by an arrow.  It fails when two
states have the same name, or when an arrow points at a name that no state has.
-/

namespace BehaviorScript

structure NameTable where
  entries : List (String × Nat) := []
  deriving DecidableEq, Repr

namespace NameTable

def find? (t : NameTable) (name : String) : Option Nat :=
  t.entries.lookup (Text.foldCase name)

def size (t : NameTable) : Nat :=
  t.entries.length

def clear (_ : NameTable) : NameTable :=
  ⟨[]⟩

/--
Enter a name with a number, and tell the number that it had before.
-/
def insert (t : NameTable) (name : String) (index : Nat) : Option Nat × NameTable :=
  (t.find? name, ⟨Table.put (Text.foldCase name) index t.entries⟩)

/--
Enter the names of the states with their numbers, from `index` on, up to the first name that had a
number already.
-/
def fill (t : NameTable) (index : Nat) : List StateBlock -> NameTable × Option CompileError
  | [] => (t, none)
  | s :: rest =>
      match t.insert s.name index with
      | (some _, t) => (t, some (.duplicateState s.line s.name))
      | (none, t) => t.fill (index + 1) rest

end NameTable

/-!
## Putting in the numbers

Every part of a script is given back resolved, together with the number of arrows that were
resolved in it.
-/

def Param.resolve (t : NameTable) (x : Param) : Except CompileError (Param × Nat) :=
  match x.op with
  | .assign => .ok (x, 0)
  | .transition =>
      match t.find? x.value with
      | some index => .ok ({ x with resolved := some index }, 1)
      | none => .error (.unknownState x.line x.value)

def resolveAll {α : Type} (resolve : α -> Except CompileError (α × Nat)) :
    List α -> Except CompileError (List α × Nat)
  | [] => .ok ([], 0)
  | x :: rest => do
      let (x, count) ← resolve x
      let (rest, more) ← resolveAll resolve rest
      return (x :: rest, count + more)

def ActionLine.resolve (t : NameTable) (a : ActionLine) :
    Except CompileError (ActionLine × Nat) := do
  let (params, count) ← resolveAll (Param.resolve t) a.params
  return ({ a with params := params }, count)

def Block.resolve (t : NameTable) (b : Block) : Except CompileError (Block × Nat) := do
  let (actions, count) ← resolveAll (ActionLine.resolve t) b.actions
  return ({ b with actions := actions }, count)

def Block.resolve? (t : NameTable) : Option Block -> Except CompileError (Option Block × Nat)
  | none => .ok (none, 0)
  | some b => do
      let (b, count) ← b.resolve t
      return (some b, count)

def StateBlock.resolve (t : NameTable) (s : StateBlock) :
    Except CompileError (StateBlock × Nat) := do
  let (enter, enterCount) ← Block.resolve? t s.enter
  let (exit, exitCount) ← Block.resolve? t s.exit
  let (run, runCount) ← Block.resolve? t s.run
  let (on, onCount) ← Block.resolve? t s.on
  return ({ s with enter := enter, exit := exit, run := run, on := on },
    enterCount + exitCount + runCount + onCount)

def Script.resolveWith (t : NameTable) (s : Script) : Except CompileError (Script × Nat) := do
  let (action, count) ← s.action.resolve t
  let (states, more) ← resolveAll (StateBlock.resolve t) s.states
  return ({ s with action := action, states := states }, count + more)

/--
Resolve a script, and tell how many arrows it has.  The table of names is emptied and filled anew,
and is left as far as it got.
-/
def Script.resolve (previous : NameTable) (s : Script) :
    Except CompileError (Script × Nat) × NameTable :=
  match previous.clear.fill 0 s.states with
  | (t, some e) => (.error e, t)
  | (t, none) => (s.resolveWith t, t)

end BehaviorScript
