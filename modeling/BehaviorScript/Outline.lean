import BehaviorScript.Machine
import BehaviorScript.Registry
import BehaviorScript.Text.Quoted

/-!
# Outlines

Machines, schemas and registries hold actions, which cannot be shown.  An outline
shows the rest: names, numbers of actions, message keys and properties.
-/

namespace BehaviorScript

def outlineFields (name : String) (fields : List (String × String)) : String :=
  let shown := fields.map fun (field, value) => field ++ ": " ++ value
  name ++ " \x7b " ++ ", ".intercalate shown ++ " \x7d"

def outlineItems (items : List String) : String :=
  "[" ++ ", ".intercalate items ++ "]"

namespace State

def outline {σ : Type} (s : State σ) : String :=
  outlineFields "State"
    [("name", Text.quote s.name), ("run_actions", toString s.run.length),
      ("enter_actions", toString s.enter.length), ("exit_actions", toString s.exit.length),
      ("on_actions", Text.quoteList s.messageKeys)]

end State

namespace Machine

def outline {σ : Type} (m : Machine σ) : String :=
  outlineFields "Machine"
    [("name", Text.quote m.name), ("states", outlineItems (m.states.map State.outline)),
      ("enter_action", Text.quote "<action>")]

end Machine

namespace Kind

def label : Kind -> String
  | int => "Int"
  | float => "Float"
  | text => "Str"
  | bool => "Bool"
  | state => "Transition"

end Kind

namespace Property

def outline (p : Property) : String :=
  outlineFields "PropertySpec" [("name", Text.quote p.name), ("kind", p.kind.label)]

end Property

namespace Schema

def outline {σ : Type} (s : Schema σ) : String :=
  let default :=
    match s.default? with
    | some p => "Some(" ++ Text.quote p.name ++ ")"
    | none => "None"
  outlineFields "ActionSchema"
    [("name", Text.quote s.name), ("aliases", Text.quoteList s.aliases),
      ("properties", outlineItems (s.properties.map Property.outline)), ("default", default)]

end Schema

namespace Registry

def outline {σ : Type} (r : Registry σ) : String :=
  Text.quoteList (r.schemas.map Schema.name)

end Registry
end BehaviorScript
