/-!
# Binary floating-point numbers

A number in the 64-bit binary interchange format, kept as its word.  Scripts only
read, carry and write such numbers and never calculate with them, so the word is
all there is to it: equality is decidable, and the two zeros and every not-a-number
stay what they are.

A finite number is `m * 2 ^ e` with a whole significand `m` below `2 ^ 53` and an
exponent `e` of at least `-1074`.  Conversion from a fraction picks the nearest
such number, and of two equally near ones the one with the even significand.
-/

namespace BehaviorScript

/--
The word of a number in the 64-bit binary format: a sign bit, eleven bits of
exponent and fifty-two bits of fraction.
-/
structure Binary64 where
  bits : UInt64
  deriving DecidableEq, Repr, Inhabited

namespace Binary64

/-!
## The parts of the word
-/

def signWeight : Nat :=
  0x8000000000000000

def fractionSize : Nat :=
  0x10000000000000

def isNegative (x : Binary64) : Bool :=
  signWeight ≤ x.bits.toNat

/--
The word without its sign bit.  Larger magnitudes have larger words.
-/
def magnitude (x : Binary64) : Nat :=
  x.bits.toNat % signWeight

def exponentField (x : Binary64) : Nat :=
  x.magnitude / fractionSize

def fraction (x : Binary64) : Nat :=
  x.magnitude % fractionSize

def infinity : Nat :=
  2047 * fractionSize

/--
The whole significand of a finite number.
-/
def significand (x : Binary64) : Nat :=
  if x.exponentField = 0 then x.fraction else fractionSize + x.fraction

def exponent (x : Binary64) : Int :=
  max 1 (x.exponentField : Int) - 1075

def compose (negative : Bool) (magnitude : Nat) : Binary64 :=
  ⟨((if negative then signWeight else 0) + magnitude).toUInt64⟩

/-!
## The nearest number
-/

/--
The whole number nearest to `num / den`, and of two equally near ones the even one.
-/
def roundHalfEven (num den : Nat) : Nat :=
  let quotient := num / den
  let twice := 2 * (num % den)
  if twice < den then quotient
  else if den < twice then quotient + 1
  else quotient + quotient % 2

def floorLog (num den : Nat) : Int :=
  let guess : Int := (num.log2 : Int) - (den.log2 : Int)
  if den * Nat.pow 2 guess.toNat ≤ num * Nat.pow 2 (-guess).toNat then guess else guess - 1

/--
The magnitude nearest to `num / den`, where what lies beyond the finite range is infinite.

With the exponent `e` chosen so that the significand has fifty-three bits where the
format has room for them, the word is `(e + 1074) * 2 ^ 52` plus the significand; a
significand that rounds up to `2 ^ 53` carries into the next exponent by itself.
-/
def nearestMagnitude (num den : Nat) : Nat :=
  if num = 0 then 0
  else
    let e := max (-1074) (floorLog num den - 52)
    let significand := roundHalfEven (num * Nat.pow 2 (-e).toNat) (den * Nat.pow 2 e.toNat)
    min infinity ((e + 1074).toNat * fractionSize + significand)

def ofInt (i : Int) : Binary64 :=
  compose (i < 0) (nearestMagnitude i.natAbs 1)

/--
The magnitude nearest to `mantissa * 10 ^ power`.

A value of `10 ^ 310` or more is infinite and one below `10 ^ (-330)` is zero, whatever
its digits are, so no power outside that range is ever computed.
-/
def decimalMagnitude (mantissa : Nat) (power : Int) : Nat :=
  let width : Int := (Nat.toDigits 10 mantissa).length
  if mantissa = 0 then 0
  else if 310 < width + power then infinity
  else if width + power < -330 then 0
  else nearestMagnitude (mantissa * Nat.pow 10 power.toNat) (Nat.pow 10 (-power).toNat)

end Binary64
end BehaviorScript
