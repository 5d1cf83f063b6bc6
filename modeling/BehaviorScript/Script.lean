import BehaviorScript.Token

/-!
# Scripts

A script read into blocks: the machine line with its first action, then the states,
each with up to four sections of actions.  Every part keeps the line it came from.

Two names are reserved by options rather than by the language itself: the action that
a bare arrow stands for, and the name that a parameter without a label goes by.
-/

namespace BehaviorScript

/--
The reserved names: the action that `-> x` calls, and the name of an unlabeled parameter.
-/
structure Options where
  transitionAction : String := "$trans"
  defaultParam : String := "$default"
  deriving DecidableEq, Repr, Inhabited

/--
A parameter of an action: a literal given for a named property, by a colon or by an arrow.
For an arrow the literal names a state, and `resolved` is that state's number once it is known.
-/
structure Param where
  line : Nat
  name : String
  op : Operator
  value : String
  resolved : Option Nat := none
  deriving DecidableEq, Repr

structure ActionLine where
  line : Nat
  name : String
  message : Option String
  params : List Param
  deriving DecidableEq, Repr

structure Block where
  line : Nat
  actions : List ActionLine
  deriving DecidableEq, Repr

/--
The four sections a state may have: actions on entry, on exit, while it runs, and on messages.
-/
inductive SectionKind where
  | enter
  | exit
  | run
  | on
  deriving DecidableEq, Repr

namespace SectionKind

def keyword : SectionKind -> Keyword
  | enter => .enter
  | exit => .exit
  | run => .run
  | on => .on

def ofKeyword? : Keyword -> Option SectionKind
  | .enter => some enter
  | .exit => some exit
  | .run => some run
  | .on => some on
  | .machine => none
  | .state => none

end SectionKind

structure StateBlock where
  line : Nat
  name : String
  enter : Option Block := none
  exit : Option Block := none
  run : Option Block := none
  on : Option Block := none
  deriving DecidableEq, Repr

namespace StateBlock

def get? (s : StateBlock) : SectionKind -> Option Block
  | .enter => s.enter
  | .exit => s.exit
  | .run => s.run
  | .on => s.on

def set (s : StateBlock) (kind : SectionKind) (block : Block) : StateBlock :=
  match kind with
  | .enter => { s with enter := some block }
  | .exit => { s with exit := some block }
  | .run => { s with run := some block }
  | .on => { s with on := some block }

def blocks (s : StateBlock) : List Block :=
  [s.enter, s.exit, s.run, s.on].filterMap id

def actions (s : StateBlock) : List ActionLine :=
  s.blocks.flatMap Block.actions

end StateBlock

/--
The actions of a section, none if the section is missing.
-/
def Block.actionsOf (block : Option Block) : List ActionLine :=
  match block with
  | some b => b.actions
  | none => []

structure Script where
  line : Nat
  name : String
  action : ActionLine
  states : List StateBlock
  deriving DecidableEq, Repr

namespace Script

def actions (s : Script) : List ActionLine :=
  s.states.flatMap StateBlock.actions

def params (s : Script) : List Param :=
  s.action.params ++ s.actions.flatMap ActionLine.params

end Script
end BehaviorScript
