import BehaviorScript.Text.Unprintable

/-!
# Quoted texts

A quoted text stands between double quotes, with an escape for every character
that would end it or that does not show on its own.
-/

namespace BehaviorScript
namespace Text

def hexDigits (n : Nat) : List Char :=
  Nat.toDigits 16 n

def escape (c : Char) : List Char :=
  if c = '"' then ['\\', '"']
  else if c = '\\' then ['\\', '\\']
  else if c = '\n' then ['\\', 'n']
  else if c = '\r' then ['\\', 'r']
  else if c = '\t' then ['\\', 't']
  else if c = '\x00' then ['\\', '0']
  else if isUnprintable c then ['\\', 'u', '\x7b'] ++ hexDigits c.toNat ++ ['\x7d']
  else [c]

def quote (s : String) : String :=
  String.ofList ('"' :: s.toList.flatMap escape ++ ['"'])

def quoteList (ss : List String) : String :=
  "[" ++ ", ".intercalate (ss.map quote) ++ "]"

end Text
end BehaviorScript
