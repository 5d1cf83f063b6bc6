import BehaviorScript.Number.Decimal
import BehaviorScript.Number.Shortest
import BehaviorScript.Text.Blank
import BehaviorScript.Text.Case

/-!
# Values

The values that messages carry and that scripts give to the properties of actions,
the kinds of property there are, and the conversion of a literal of a script into a
value of a given kind.
-/

namespace BehaviorScript

inductive Value where
  | int (v : Int64)
  | float (v : Binary64)
  | bool (v : Bool)
  | text (v : String)
  deriving DecidableEq, Repr

namespace Value

def asInt? : Value -> Option Int64
  | int v => some v
  | _ => none

/--
The number as a floating-point number, where a whole number becomes the nearest one.
-/
def asFloat? : Value -> Option Binary64
  | float v => some v
  | int v => some (Binary64.ofInt v.toInt)
  | _ => none

def asBool? : Value -> Option Bool
  | bool v => some v
  | _ => none

def asText? : Value -> Option String
  | text v => some v
  | _ => none

def display : Value -> String
  | int v => toString v.toInt
  | float v => v.toText
  | bool v => if v then "true" else "false"
  | text v => v

end Value

/-!
## Kinds of property
-/

inductive Kind where
  | int
  | float
  | text
  | bool
  | state
  deriving DecidableEq, Repr

namespace Kind

def name : Kind -> String
  | int => "int"
  | float => "float"
  | text => "string"
  | bool => "bool"
  | state => "state"

end Kind

/-!
## Literals

A literal is the text of a word or of a quoted value.  White space around a number or
a truth value does not count; a text is taken as it stands.
-/

namespace Literal

def toInt? (literal : String) : Option Value :=
  (Number.readInt64? (Text.trim literal.toList)).map .int

def toFloat? (literal : String) : Option Value :=
  (Number.readBinary64? (Text.trim literal.toList)).map .float

/--
A letter of a truth value's word in its small form.  The long s is a form of s.
-/
def foldLetter (c : Char) : Char :=
  if c = 'ſ' then 's' else c.toLower

def toBool? (literal : String) : Option Value :=
  let word := String.ofList ((Text.trim literal.toList).map foldLetter)
  if word ∈ ["true", "yes", "on"] then some (.bool true)
  else if word ∈ ["false", "no", "off"] then some (.bool false)
  else none

end Literal

/--
How literals become values of the kind.  A state is not given by a literal.
-/
def Kind.converter? : Kind -> Option (String -> Option Value)
  | .int => some Literal.toInt?
  | .float => some Literal.toFloat?
  | .text => some fun literal => some (.text literal)
  | .bool => some Literal.toBool?
  | .state => none

end BehaviorScript
