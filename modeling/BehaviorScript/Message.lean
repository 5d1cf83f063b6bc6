import BehaviorScript.Value

/-!
# Messages

A message travels in an envelope: a key that says what it is about, the recipient it
is meant for, and a value it may carry.
-/

namespace BehaviorScript

/--
A message.  Recipients are numbered by whoever hands messages out.
-/
structure Envelope where
  key : String := ""
  recipient : Option Nat := none
  value : Option Value := none
  deriving DecidableEq, Repr

def Envelope.blank : Envelope :=
  {}

end BehaviorScript
