import BehaviorScript.Schema

/-!
# Registries

A registry holds the schemas of the actions that scripts may call, in the order of their
registration, and a table of their places by all their names and aliases in small letters.
A registration checks every name before it changes anything: no two names may be the same
up to the case of ASCII letters.
-/

namespace BehaviorScript

inductive RegistryError where
  | invalidName (name : String)
  | duplicate (name : String)
  deriving DecidableEq, Repr

namespace RegistryError

def message : RegistryError -> String
  | invalidName name => s!"'{name}' is not a valid action name"
  | duplicate name => s!"an action named '{name}' is already registered"

end RegistryError

/--
The name of an action begins with an ASCII letter, an underscore or a dollar sign.  Digits, points
and hyphens may follow.
-/
def isActionName (name : String) : Bool :=
  match name.toList with
  | [] => false
  | c :: cs =>
      (c.isAlpha || c == '_' || c == '$') &&
        cs.all fun d => d.isAlphanum || d == '_' || d == '.' || d == '$' || d == '-'

structure Registry (σ : Type) where
  schemas : List (Schema σ) := []
  places : List (String × Nat) := []

namespace Registry

def empty {σ : Type} : Registry σ :=
  {}

/-!
## Registering

A call works on the registry in place.  When it fails, the registry stays as the call has left it
by then.
-/

abbrev Call (σ α : Type) :=
  ExceptT RegistryError (StateM (Registry σ)) α

namespace Call

variable {σ : Type}

/--
The key of a name that is neither in the registry nor among the keys collected before it.
-/
def newKey (keys : List String) (name : String) : Call σ String := do
  let r ← get
  let key := Text.foldCase name
  if isActionName name then
    if (r.places.lookup key).isSome || keys.contains key then throw (.duplicate name)
    else return key
  else throw (.invalidName name)

def collectKeys (keys : List String) : List String -> Call σ (List String)
  | [] => return keys
  | name :: rest => do
      let key ← newKey keys name
      collectKeys (keys ++ [key]) rest

/--
The schema goes to the end, and its keys lead there from now on, wherever they led before.
-/
def append (s : Schema σ) (keys : List String) : Call σ Unit :=
  modify fun r =>
    { schemas := r.schemas ++ [s], places := Table.putAll keys r.schemas.length r.places }

def register (s : Schema σ) : Call σ Unit := do
  let keys ← collectKeys [] s.names
  append s keys

end Call

/--
Register a schema.  The answer comes with the registry after the call.
-/
def register {σ : Type} (r : Registry σ) (s : Schema σ) : Except RegistryError Unit × Registry σ :=
  (Call.register s).run r

def registration {σ : Type} (s : Schema σ) : Event :=
  .registered s.name s.aliases.length

def registerAll {σ : Type} (r : Registry σ) :
    List (Schema σ) -> Except RegistryError Unit × Registry σ
  | [] => (.ok (), r)
  | s :: rest =>
      match r.register s with
      | (.error e, r) => (.error e, r)
      | (.ok (), r) => r.registerAll rest

/-!
## Look-ups
-/

def find? {σ : Type} (r : Registry σ) (name : String) : Option (Schema σ) :=
  (r.places.lookup (Text.foldCase name)).bind fun index => r.schemas[index]?

def size {σ : Type} (r : Registry σ) : Nat :=
  r.schemas.length

end Registry
end BehaviorScript
