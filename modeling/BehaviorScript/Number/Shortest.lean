import BehaviorScript.Number.Binary64

/-!
# Shortest decimal text

A finite floating-point number is written with the fewest digits that still read
back as the same number.  Of several such decimals the nearest is taken, and of two
equally near ones the larger.  The text is positional: it never has an exponent, and
it has a point only where digits follow it.
-/

namespace BehaviorScript
namespace Binary64

/--
The positive fraction `num / den`, with the range of fractions that read back as the
same number.  The ends `lowNum / den` and `highNum / den` belong to the range when `closed` holds.
-/
structure Neighborhood where
  num : Nat
  lowNum : Nat
  highNum : Nat
  den : Nat
  closed : Bool
  deriving DecidableEq, Repr

/--
The range around a finite number other than zero.  It reaches half way to the next number
on either side; below a power of two the next number is only half as far away.
-/
def neighborhood (x : Binary64) : Neighborhood :=
  let m := 4 * x.significand
  let e := x.exponent - 2
  let scale := Nat.pow 2 e.toNat
  let below := if x.significand = fractionSize then 1 else 2
  { num := m * scale
    lowNum := (m - below) * scale
    highNum := (m + 2) * scale
    den := Nat.pow 2 (-e).toNat
    closed := x.significand % 2 = 0 }

/--
The least `k` with `num / den < 10 ^ k`, sought among the negative `k` down to `-fuel`.
-/
def leadingZeros : Nat -> Nat -> Nat -> Int
  | 0, _, _ => 0
  | fuel + 1, num, den =>
      if den ≤ num * 10 then 0 else leadingZeros fuel (num * 10) den - 1

/--
The number `k` of digits before the point, so that `10 ^ (k - 1) ≤ num / den < 10 ^ k`.  Where the
first digit comes after the point, it is less than one.
-/
def decimalPoint (num den : Nat) : Int :=
  if den ≤ num then (Nat.toDigits 10 (num / den)).length
  else leadingZeros 400 num den

structure Digits where
  digits : Nat
  power : Int
  deriving DecidableEq, Repr

/--
The better of the two decimals next to `num / den` on the grid of multiples of
`10 ^ power`, if one of them is in the range.
-/
def Neighborhood.onGrid? (r : Neighborhood) (power : Int) : Option Digits :=
  let up := Nat.pow 10 (-power).toNat
  let unit := Nat.pow 10 power.toNat * r.den
  let lower := r.num * up / unit
  let remainder := r.num * up % unit
  let lowerIn := if r.closed then r.lowNum * up ≤ lower * unit else r.lowNum * up < lower * unit
  let upperIn := if r.closed then (lower + 1) * unit ≤ r.highNum * up
    else (lower + 1) * unit < r.highNum * up
  if lowerIn ∧ (¬ upperIn ∨ 2 * remainder < unit) then some ⟨lower, power⟩
  else if upperIn then some ⟨lower + 1, power⟩
  else none

def Neighborhood.refine (r : Neighborhood) : Nat -> Int -> Digits
  | 0, power => ⟨r.num * Nat.pow 10 (-power).toNat / (Nat.pow 10 power.toNat * r.den), power⟩
  | fuel + 1, power => (r.onGrid? power).getD (r.refine fuel (power - 1))

def shortest (x : Binary64) : Digits :=
  let r := x.neighborhood
  r.refine 17 (decimalPoint r.num r.den - 1)

/-!
## Positional notation
-/

def Digits.positional (d : Digits) : List Char :=
  let digits := Nat.toDigits 10 d.digits
  let point := digits.length + d.power
  if d.power ≥ 0 then digits ++ List.replicate d.power.toNat '0'
  else
    let whole := if point ≤ 0 then ['0'] else digits.take point.toNat
    let places := List.replicate (-point).toNat '0' ++ digits.drop point.toNat
    let places := (places.reverse.dropWhile (· = '0')).reverse
    if places = [] then whole else whole ++ '.' :: places

def toText (x : Binary64) : String :=
  if infinity < x.magnitude then "NaN"
  else
    let body :=
      if x.magnitude = infinity then "inf".toList
      else if x.magnitude = 0 then ['0']
      else x.shortest.positional
    String.ofList (if x.isNegative then '-' :: body else body)

end Binary64
end BehaviorScript
