import BehaviorScript.Table
import BehaviorScript.Value

/-!
# Bindings

What a script gives for the properties of one action: a value, or the number of a
state to go to.  Property names are kept in small letters, so they are found in
letters of either case.  A property bound twice keeps its place and has the later binding.

Actions read their properties through accessors of the kind they expect, with or
without a default; a failure says which property was at fault.
-/

namespace BehaviorScript

inductive Binding where
  | value (v : Value)
  | state (index : UInt64)
  deriving DecidableEq, Repr

inductive BindError where
  | missing (property : String)
  | wrongKind (property : String) (kind : Kind)
  | invalid (property : String) (reason : String)
  deriving DecidableEq, Repr

namespace BindError

def message : BindError -> String
  | missing property => s!"property '{property}' is required"
  | wrongKind property kind => s!"property '{property}' is not a {kind.name}"
  | invalid property reason => s!"property '{property}': {reason}"

end BindError

/--
The bound properties of an action, in the order in which they were first bound.
-/
structure Bindings where
  entries : List (String × Binding) := []
  deriving DecidableEq, Repr

namespace Bindings

def bind (bs : Bindings) (property : String) (b : Binding) : Bindings :=
  ⟨Table.put (Text.foldCase property) b bs.entries⟩

def get? (bs : Bindings) (property : String) : Option Binding :=
  bs.entries.lookup (Text.foldCase property)

def size (bs : Bindings) : Nat :=
  bs.entries.length

/-!
## Accessors
-/

/--
The property seen through `view`, which fails on what is not of the given kind.  An unbound
property is none.
-/
def find {α : Type} (bs : Bindings) (property : String) (kind : Kind) (view : Binding -> Option α) :
    Except BindError (Option α) :=
  match bs.get? property with
  | none => .ok none
  | some b =>
      match view b with
      | some a => .ok (some a)
      | none => .error (.wrongKind property kind)

def ofValue {α : Type} (view : Value -> Option α) : Binding -> Option α
  | .value v => view v
  | .state _ => none

def ofState : Binding -> Option UInt64
  | .state index => some index
  | .value _ => none

def require {α : Type} (property : String) (found : Except BindError (Option α)) :
    Except BindError α :=
  match found with
  | .error e => .error e
  | .ok (some a) => .ok a
  | .ok none => .error (.missing property)

def orElse {α : Type} (default : α) (found : Except BindError (Option α)) : Except BindError α :=
  found.map fun a => a.getD default

def int (bs : Bindings) (property : String) : Except BindError Int64 :=
  require property (bs.find property .int (ofValue Value.asInt?))

def intOr (bs : Bindings) (property : String) (default : Int64) : Except BindError Int64 :=
  orElse default (bs.find property .int (ofValue Value.asInt?))

def float (bs : Bindings) (property : String) : Except BindError Binary64 :=
  require property (bs.find property .float (ofValue Value.asFloat?))

def floatOr (bs : Bindings) (property : String) (default : Binary64) : Except BindError Binary64 :=
  orElse default (bs.find property .float (ofValue Value.asFloat?))

def text (bs : Bindings) (property : String) : Except BindError String :=
  require property (bs.find property .text (ofValue Value.asText?))

def textOr (bs : Bindings) (property : String) (default : String) : Except BindError String :=
  orElse default (bs.find property .text (ofValue Value.asText?))

def bool (bs : Bindings) (property : String) : Except BindError Bool :=
  require property (bs.find property .bool (ofValue Value.asBool?))

def boolOr (bs : Bindings) (property : String) (default : Bool) : Except BindError Bool :=
  orElse default (bs.find property .bool (ofValue Value.asBool?))

def transition (bs : Bindings) (property : String) : Except BindError UInt64 :=
  require property (bs.find property .state ofState)

end Bindings
end BehaviorScript
