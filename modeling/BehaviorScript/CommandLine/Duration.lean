/-!
# Durations

A duration is shown in the largest unit that it fills, with as many places as it needs.
-/

namespace BehaviorScript
namespace CommandLine

/--
A number of whole units with the rest of a unit, which has a given number of decimal places.
-/
def decimalPlaces (whole rest places : Nat) : String :=
  let digits := Nat.toDigits 10 rest
  let padded := List.replicate (places - digits.length) '0' ++ digits
  let needed := (padded.reverse.dropWhile (· = '0')).reverse
  toString whole ++ (if needed = [] then "" else "." ++ String.ofList needed)

def durationText (nanoseconds : Nat) : String :=
  if 1000000000 ≤ nanoseconds then
    decimalPlaces (nanoseconds / 1000000000) (nanoseconds % 1000000000) 9 ++ "s"
  else if 1000000 ≤ nanoseconds then
    decimalPlaces (nanoseconds / 1000000) (nanoseconds % 1000000) 6 ++ "ms"
  else if 1000 ≤ nanoseconds then
    decimalPlaces (nanoseconds / 1000) (nanoseconds % 1000) 3 ++ "µs"
  else toString nanoseconds ++ "ns"

end CommandLine
end BehaviorScript
