import BehaviorScript.Action

/-!
# Schemas

A schema declares an action to scripts: its name and aliases, the properties it takes,
the one property that a value without a label goes to, and how an action is built
from what a script binds.  Property names are kept in small letters, and the default is
known by its place among the properties.
-/

namespace BehaviorScript

structure Property where
  name : String
  kind : Kind
  deriving DecidableEq, Repr

structure Schema (σ : Type) where
  name : String
  aliases : List String := []
  properties : List Property := []
  defaultIndex : Option Nat := none
  build : Bindings -> Except BindError (Action σ)

namespace Schema

def ofAction {σ : Type} (name : String) (action : Action σ) : Schema σ :=
  { name := name, build := fun _ => .ok action }

def names {σ : Type} (s : Schema σ) : List String :=
  s.name :: s.aliases

def withAlias {σ : Type} (s : Schema σ) (name : String) : Schema σ :=
  { s with aliases := s.aliases ++ [name] }

/--
Put a property in the place of the one with its name, or at the end if the name is new, and tell
the place.
-/
def pushProperty (p : Property) (ps : List Property) : Nat × List Property :=
  match ps.findIdx? fun q => q.name == p.name with
  | some index => (index, ps.set index p)
  | none => ((ps ++ [p]).length - 1, ps ++ [p])

/--
The schema with a property declared.  A later declaration of the same name replaces the kind.
-/
def withProperty {σ : Type} (s : Schema σ) (name : String) (kind : Kind) : Schema σ :=
  { s with properties := (pushProperty ⟨Text.foldCase name, kind⟩ s.properties).2 }

def withDefault {σ : Type} (s : Schema σ) (name : String) (kind : Kind) : Schema σ :=
  let (index, properties) := pushProperty ⟨Text.foldCase name, kind⟩ s.properties
  { s with properties := properties, defaultIndex := some index }

def property? {σ : Type} (s : Schema σ) (name : String) : Option Property :=
  s.properties.find? fun p => p.name == Text.foldCase name

def default? {σ : Type} (s : Schema σ) : Option Property :=
  s.defaultIndex.bind fun index => s.properties[index]?

end Schema
end BehaviorScript
