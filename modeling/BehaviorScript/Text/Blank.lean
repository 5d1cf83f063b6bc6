/-!
# Blank characters

The characters with the Unicode property `White_Space`, and texts with the blank
characters at both ends taken away.
-/

namespace BehaviorScript
namespace Text

/--
The code points with the property `White_Space`, as ranges with both ends.
-/
def blankRanges : List (Nat × Nat) :=
  [(0x9, 0xd), (0x20, 0x20), (0x85, 0x85), (0xa0, 0xa0), (0x1680, 0x1680), (0x2000, 0x200a),
    (0x2028, 0x2029), (0x202f, 0x202f), (0x205f, 0x205f), (0x3000, 0x3000)]

def isBlank (c : Char) : Bool :=
  blankRanges.any fun r => r.1 ≤ c.toNat && c.toNat ≤ r.2

def trim (cs : List Char) : List Char :=
  ((cs.dropWhile isBlank).reverse.dropWhile isBlank).reverse

theorem toNat_of_isBlank {c : Char} (h : isBlank c = true) :
    c.toNat ≤ 32 ∨ 133 ≤ c.toNat := by
  simp [isBlank, blankRanges] at h
  omega

end Text
end BehaviorScript
