import BehaviorScript.Bindings
import BehaviorScript.Script

/-!
# Diagnostics

Everything that can be wrong with a script, each with the line it is reported on and
the words that report it.  A diagnostic also has a code, which names its cause alone.
-/

namespace BehaviorScript

/-!
## Faults in the arrangement of tokens
-/

inductive Found where
  | endOfInput
  | endOfLine
  | keyword (k : Keyword)
  | text (s : String)
  deriving DecidableEq, Repr

namespace Found

def ofTokens : List Token -> Found
  | [] => endOfInput
  | t :: _ =>
      match t.kind with
      | .newline => endOfLine
      | .keyword k => keyword k
      | _ => text t.text

def describe : Found -> String
  | endOfInput => "end of input"
  | endOfLine => "end of line"
  | keyword k => k.symbol
  | text s => s!"'{s}'"

end Found

inductive ParseFault where
  | machineExpected (found : Found)
  | machineNameMissing
  | firstTransitionMissing
  | stateExpected (found : Found)
  | stateNameExpected (found : Found)
  | sectionExpected (state : String) (found : Found)
  | keyOutsideOn (key : String)
  | keyMissing
  | actionExpected (found : Found)
  | leftover (found : Found)
  | targetExpected (found : Found)
  | valueExpected (found : Found)
  | quotedLabel (label : String)
  | strayColon
  | paramExpected
  | paramMissing
  deriving DecidableEq, Repr

namespace ParseFault

def message : ParseFault -> String
  | machineExpected found => s!"expected @machine, found {found.describe}"
  | machineNameMissing => "@machine is missing a name"
  | firstTransitionMissing => "@machine needs an initial transition, e.g. '-> idle'"
  | stateExpected found => s!"expected @state, found {found.describe}"
  | stateNameExpected found => s!"expected state name after @state, found {found.describe}"
  | sectionExpected state found =>
      s!"expected a section keyword in state '{state}', found {found.describe}"
  | keyOutsideOn key => s!"message key '{key}' is only allowed inside @on"
  | keyMissing => "@on actions must start with a message key, e.g. 'hit': -> hurt"
  | actionExpected found => s!"expected an action, found {found.describe}"
  | leftover found => s!"unexpected {found.describe} after action"
  | targetExpected found => s!"expected a state name after '->', found {found.describe}"
  | valueExpected found => s!"expected a value after ':', found {found.describe}"
  | quotedLabel label => s!"property name '{label}' must not be quoted"
  | strayColon => "unexpected ':'"
  | paramExpected => "expected a parameter"
  | paramMissing => "expected a parameter, found end of input"

end ParseFault

/-!
## Diagnostics
-/

inductive CompileError where
  | unreadable (line : Nat)
  | malformed (line : Nat) (fault : ParseFault)
  | duplicateSection (line : Nat) (state : String) (kind : SectionKind)
  | duplicateState (line : Nat) (name : String)
  | duplicateMessage (line : Nat) (key : String)
  | unknownState (line : Nat) (target : String)
  | unknownAction (line : Nat) (name : String)
  | unknownProperty (line : Nat) (action property : String)
  | noDefaultProperty (line : Nat) (action : String)
  | invalidValue (line : Nat) (property value : String)
  | kindMismatch (line : Nat) (action property : String) (op : Operator)
  | bindFailed (line : Nat) (action : String) (cause : BindError)
  deriving DecidableEq, Repr

/--
The causes without their particulars.
-/
inductive ErrorCode where
  | lexerStuck
  | malformed
  | duplicateSection
  | duplicateState
  | duplicateMessage
  | stateNotFoundForTransition
  | actionNotFound
  | propertyNotFound
  | noDefaultProperty
  | invalidValue
  | propertyKindMismatch
  | actionBindFailed
  deriving DecidableEq, Repr

namespace ErrorCode

def name : ErrorCode -> String
  | lexerStuck => "LexerStuck"
  | malformed => "SyntaxError"
  | duplicateSection => "DuplicateSection"
  | duplicateState => "DuplicateState"
  | duplicateMessage => "DuplicateMessage"
  | stateNotFoundForTransition => "StateNotFoundForTransition"
  | actionNotFound => "ActionNotFound"
  | propertyNotFound => "PropertyNotFound"
  | noDefaultProperty => "NoDefaultProperty"
  | invalidValue => "InvalidValue"
  | propertyKindMismatch => "PropertyKindMismatch"
  | actionBindFailed => "ActionBindFailed"

end ErrorCode

namespace CompileError

def code : CompileError -> ErrorCode
  | unreadable .. => .lexerStuck
  | malformed .. => .malformed
  | duplicateSection .. => .duplicateSection
  | duplicateState .. => .duplicateState
  | duplicateMessage .. => .duplicateMessage
  | unknownState .. => .stateNotFoundForTransition
  | unknownAction .. => .actionNotFound
  | unknownProperty .. => .propertyNotFound
  | noDefaultProperty .. => .noDefaultProperty
  | invalidValue .. => .invalidValue
  | kindMismatch .. => .propertyKindMismatch
  | bindFailed .. => .actionBindFailed

def line : CompileError -> Nat
  | unreadable line => line
  | malformed line _ => line
  | duplicateSection line .. => line
  | duplicateState line _ => line
  | duplicateMessage line _ => line
  | unknownState line _ => line
  | unknownAction line _ => line
  | unknownProperty line .. => line
  | noDefaultProperty line _ => line
  | invalidValue line .. => line
  | kindMismatch line .. => line
  | bindFailed line .. => line

def reason : CompileError -> String
  | unreadable _ => "unexpected input"
  | malformed _ fault => fault.message
  | duplicateSection _ state kind =>
      s!"section {kind.keyword.symbol} declared twice in state '{state}'"
  | duplicateState _ name => s!"state '{name}' is declared more than once"
  | duplicateMessage _ key => s!"message '{key}' already has a handler in this state"
  | unknownState _ target => s!"no state named '{target}' for transition"
  | unknownAction _ name => s!"no action named '{name}'"
  | unknownProperty _ action property => s!"action '{action}' has no property '{property}'"
  | noDefaultProperty _ action => s!"action '{action}' does not take an unlabeled value"
  | invalidValue _ property value => s!"'{value}' is not a valid value for '{property}'"
  | kindMismatch _ action property op =>
      s!"property '{property}' of '{action}' cannot be bound with '{op.symbol}'"
  | bindFailed _ action cause => s!"cannot build action '{action}': {cause.message}"

def message (e : CompileError) : String :=
  s!"line {e.line}: {e.reason}"

def cause? : CompileError -> Option BindError
  | bindFailed _ _ cause => some cause
  | _ => none

end CompileError
end BehaviorScript
