import BehaviorScript.Number.Binary64
import BehaviorScript.Text.Digit

/-!
# Reading decimal notation

Whole numbers are written as digits after an optional sign.  Floating-point numbers
may also have a point and an exponent: there is at least one digit beside the point,
and at least one in the exponent.
-/

namespace BehaviorScript
namespace Number

open Text

def splitSign : List Char -> Bool × List Char
  | '-' :: cs => (true, cs)
  | '+' :: cs => (false, cs)
  | cs => (false, cs)

/--
The whole number written by the characters: an optional sign and one or more ASCII digits.
-/
def readInt? (cs : List Char) : Option Int :=
  let (negative, digits) := splitSign cs
  (readDigits? digits).map fun n => if negative then -(n : Int) else n

def readInt64? (cs : List Char) : Option Int64 :=
  (readInt? cs).bind fun i =>
    if -0x8000000000000000 ≤ i ∧ i < 0x8000000000000000 then some (Int64.ofInt i) else none

/--
The count written by the characters: an optional plus sign and one or more ASCII
digits, with a value that fits into an unsigned 64-bit word.
-/
def readCount? (cs : List Char) : Option Nat :=
  let digits := match cs with
    | '+' :: rest => rest
    | _ => cs
  (readDigits? digits).bind fun n => if n < 0x10000000000000000 then some n else none

/-!
## Floating-point notation
-/

def readExponent? : List Char -> Option Int
  | [] => some 0
  | c :: cs => if c = 'e' ∨ c = 'E' then readInt? cs else none

def splitPoint (cs : List Char) : List Char × List Char × List Char :=
  let whole := cs.takeWhile Char.isDigit
  match cs.dropWhile Char.isDigit with
  | '.' :: rest => (whole, rest.takeWhile Char.isDigit, rest.dropWhile Char.isDigit)
  | rest => (whole, [], rest)

def readBinary64? (cs : List Char) : Option Binary64 :=
  let (negative, unsigned) := splitSign cs
  let (whole, places, rest) := splitPoint unsigned
  let digits := whole ++ places
  if digits = [] then none
  else
    (readExponent? rest).bind fun e =>
      let magnitude := Binary64.decimalMagnitude (digitsValue digits) (e - places.length)
      if magnitude < Binary64.infinity then some (Binary64.compose negative magnitude) else none

end Number
end BehaviorScript
