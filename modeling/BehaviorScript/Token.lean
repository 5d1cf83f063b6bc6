import BehaviorScript.Text.Case
import BehaviorScript.Text.Slice

/-!
# Tokens

The pieces a script is made of: keywords, words, quoted values, the two operators
and line ends.  A token knows its place in the source, in bytes and by line, and its
text, which for a quoted value leaves out the quotes.
-/

namespace BehaviorScript

inductive Keyword where
  | machine
  | state
  | enter
  | exit
  | run
  | on
  deriving DecidableEq, Repr

namespace Keyword

def word : Keyword -> String
  | machine => "machine"
  | state => "state"
  | enter => "enter"
  | exit => "exit"
  | run => "run"
  | on => "on"

def all : List Keyword :=
  [machine, state, enter, exit, run, on]

def ofWord? (w : String) : Option Keyword :=
  all.find? fun k => Text.sameName k.word w

def symbol (k : Keyword) : String :=
  "@" ++ k.word

end Keyword

inductive Operator where
  | assign
  | transition
  deriving DecidableEq, Repr

namespace Operator

def symbol : Operator -> String
  | assign => ":"
  | transition => "->"

end Operator

inductive TokenKind where
  | keyword (k : Keyword)
  | word
  | quoted
  | operator (op : Operator)
  | newline
  deriving DecidableEq, Repr

namespace TokenKind

def isLiteral : TokenKind -> Bool
  | word => true
  | quoted => true
  | _ => false

end TokenKind

/--
A piece of a script: `size` bytes from byte `start` on, on the given line, counted from one.
-/
structure Token where
  kind : TokenKind
  start : Nat
  size : Nat
  line : Nat
  text : String
  deriving DecidableEq, Repr

namespace Token

/--
The token at a given place of a source.  Its text is empty where the source has no such place.
-/
def ofSource (source : String) (kind : TokenKind) (start size line : Nat) : Token :=
  { kind := kind, start := start, size := size, line := line, text := Text.slice source start size }

end Token
end BehaviorScript
