/-!
# Slices by byte

Places in a text are counted in the bytes of its UTF-8 form.  A slice exists only
when both of its ends fall between two characters.
-/

namespace BehaviorScript
namespace Text

def byteSize : List Char -> Nat
  | [] => 0
  | c :: cs => c.utf8Size + byteSize cs

/--
What follows the first `n` bytes, if they end between two characters.
-/
def dropBytes : Nat -> List Char -> Option (List Char)
  | 0, cs => some cs
  | _ + 1, [] => none
  | n + 1, c :: cs =>
      if c.utf8Size ≤ n + 1 then dropBytes (n + 1 - c.utf8Size) cs else none

def takeBytes : Nat -> List Char -> Option (List Char)
  | 0, _ => some []
  | _ + 1, [] => none
  | n + 1, c :: cs =>
      if c.utf8Size ≤ n + 1 then (takeBytes (n + 1 - c.utf8Size) cs).map (c :: ·) else none

/--
The `len` bytes from byte `start` on, if both ends fall between two characters of the text.
-/
def slice? (cs : List Char) (start len : Nat) : Option (List Char) :=
  (dropBytes start cs).bind (takeBytes len)

def slice (source : String) (start len : Nat) : String :=
  String.ofList ((slice? source.toList start len).getD [])

/-!
## Sizes and slices of concatenated texts
-/

@[simp] theorem byteSize_nil : byteSize [] = 0 :=
  rfl

@[simp] theorem byteSize_cons (c : Char) (cs : List Char) :
    byteSize (c :: cs) = c.utf8Size + byteSize cs :=
  rfl

@[simp] theorem byteSize_append (a b : List Char) :
    byteSize (a ++ b) = byteSize a + byteSize b := by
  induction a with
  | nil => simp
  | cons c a ih => simp [ih, Nat.add_assoc]

theorem exists_byteSize_cons (c : Char) (cs : List Char) :
    exists n, byteSize (c :: cs) = n + 1 := by
  have hpos := c.utf8Size_pos
  exact ⟨byteSize (c :: cs) - 1, by rw [byteSize_cons]; omega⟩

theorem dropBytes_append (a b : List Char) :
    dropBytes (byteSize a) (a ++ b) = some b := by
  induction a with
  | nil => simp [dropBytes]
  | cons c a ih =>
      rcases exists_byteSize_cons c a with ⟨n, hn⟩
      have hsize : n + 1 = c.utf8Size + byteSize a := by simpa using hn.symm
      have hle : c.utf8Size ≤ n + 1 := by omega
      have hrest : n + 1 - c.utf8Size = byteSize a := by omega
      rw [hn, List.cons_append, dropBytes, if_pos hle, hrest, ih]

theorem takeBytes_append (a b : List Char) :
    takeBytes (byteSize a) (a ++ b) = some a := by
  induction a with
  | nil => simp [takeBytes]
  | cons c a ih =>
      rcases exists_byteSize_cons c a with ⟨n, hn⟩
      have hsize : n + 1 = c.utf8Size + byteSize a := by simpa using hn.symm
      have hle : c.utf8Size ≤ n + 1 := by omega
      have hrest : n + 1 - c.utf8Size = byteSize a := by omega
      rw [hn, List.cons_append, takeBytes, if_pos hle, hrest, ih]
      rfl

theorem slice?_append (a b c : List Char) :
    slice? (a ++ b ++ c) (byteSize a) (byteSize b) = some b := by
  rw [List.append_assoc, slice?, dropBytes_append]
  exact takeBytes_append b c

end Text
end BehaviorScript
