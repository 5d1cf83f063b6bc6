import BehaviorScript.State
import Mathlib.Data.List.Nodup

/-!
# The order of bytes

Message keys are sorted by their code points.  UTF-8 was made so that this is also the order of the
bytes: the first byte tells how many follow, a longer encoding begins with a larger byte, and the
bytes of one length carry the digits of the code point from the highest down.  So the keys that a
state shows are in the order of their bytes, and since a state has one handler for a key, strictly
so.
-/

namespace BehaviorScript
namespace Text

def bytes (s : String) : List UInt8 :=
  s.toByteArray.data.toList

theorem bytes_eq_flatMap (s : String) : bytes s = s.toList.flatMap String.utf8EncodeChar := by
  rw [bytes, ← String.utf8Encode_toList, List.utf8Encode, List.toList_data_toByteArray]

/-!
## Encodings of one length

The bytes after the first carry six bits each.  An encoding is built from its first byte by adding
them one at a time, and each of these steps keeps the order.
-/

def lastByte (n : Nat) : UInt8 :=
  UInt8.ofNat (n % 64 + 128)

/--
Below the bound, an encoding grows with the number that it stands for, whatever follows.
-/
def Ascends (bound : Nat) (encode : Nat -> List UInt8) : Prop :=
  forall n m, n < m -> m < bound -> forall xs ys, encode n ++ xs < encode m ++ ys

theorem ofNat_cons_lt {n m : Nat} (h : n < m) (hm : m < 256) (xs ys : List UInt8) :
    UInt8.ofNat n :: xs < UInt8.ofNat m :: ys := by
  apply List.cons_lt_cons_iff.mpr
  apply Or.inl
  rw [UInt8.lt_iff_toNat_lt, UInt8.toNat_ofNat', UInt8.toNat_ofNat']
  omega

theorem ascends_firstByte (bound mark : Nat) (h : bound + mark ≤ 256) :
    Ascends bound fun n => [UInt8.ofNat (n % bound + mark)] := by
  intro n m hlt hm xs ys
  have hn : n % bound = n := Nat.mod_eq_of_lt (Nat.lt_trans hlt hm)
  have hm' : m % bound = m := Nat.mod_eq_of_lt hm
  show UInt8.ofNat (n % bound + mark) :: xs < UInt8.ofNat (m % bound + mark) :: ys
  rw [hn, hm']
  exact ofNat_cons_lt (by omega) (by omega) xs ys

theorem Ascends.addByte {bound : Nat} {encode : Nat -> List UInt8} (h : Ascends bound encode) :
    Ascends (bound * 64) fun n => encode (n / 64) ++ [lastByte n] := by
  intro n m hlt hm xs ys
  show encode (n / 64) ++ [lastByte n] ++ xs < encode (m / 64) ++ [lastByte m] ++ ys
  rw [List.append_assoc, List.append_assoc]
  have hle : n / 64 ≤ m / 64 := by omega
  rcases Nat.lt_or_eq_of_le hle with hhigh | hhigh
  · exact h _ _ hhigh (by omega) _ _
  · rw [hhigh]
    apply List.append_left_lt
    exact ofNat_cons_lt (by omega) (by omega) xs ys

theorem ascends_two : Ascends 2048 fun n => [UInt8.ofNat (n / 64 % 32 + 192), lastByte n] :=
  (ascends_firstByte 32 192 (by decide)).addByte

theorem ascends_three :
    Ascends 65536 fun n =>
      [UInt8.ofNat (n / 64 / 64 % 16 + 224), lastByte (n / 64), lastByte n] :=
  (ascends_firstByte 16 224 (by decide)).addByte.addByte

theorem ascends_four :
    Ascends 2097152 fun n =>
      [UInt8.ofNat (n / 64 / 64 / 64 % 8 + 240), lastByte (n / 64 / 64), lastByte (n / 64),
        lastByte n] :=
  (ascends_firstByte 8 240 (by decide)).addByte.addByte.addByte

/-!
## Characters and texts
-/

theorem utf8EncodeChar_cases (c : Char) :
    (c.val.toNat ≤ 0x7f ∧ String.utf8EncodeChar c = [UInt8.ofNat c.val.toNat]) ∨
    (0x7f < c.val.toNat ∧ c.val.toNat ≤ 0x7ff ∧ String.utf8EncodeChar c =
      [UInt8.ofNat (c.val.toNat / 64 % 32 + 192), lastByte c.val.toNat]) ∨
    (0x7ff < c.val.toNat ∧ c.val.toNat ≤ 0xffff ∧ String.utf8EncodeChar c =
      [UInt8.ofNat (c.val.toNat / 64 / 64 % 16 + 224), lastByte (c.val.toNat / 64),
        lastByte c.val.toNat]) ∨
    (0xffff < c.val.toNat ∧ c.val.toNat < 0x110000 ∧ String.utf8EncodeChar c =
      [UInt8.ofNat (c.val.toNat / 64 / 64 / 64 % 8 + 240), lastByte (c.val.toNat / 64 / 64),
        lastByte (c.val.toNat / 64), lastByte c.val.toNat]) := by
  have hmax : c.val.toNat < 0x110000 := by
    rcases c.valid with hsmall | hlarge
    · omega
    · exact hlarge.2
  simp only [Nat.div_div_eq_div_mul, Nat.reduceMul]
  unfold String.utf8EncodeChar
  dsimp only
  split
  · next h1 => exact Or.inl ⟨h1, rfl⟩
  · next h1 =>
      split
      · next h2 => exact Or.inr (Or.inl ⟨Nat.lt_of_not_le h1, h2, rfl⟩)
      · next h2 =>
          split
          · next h3 => exact Or.inr (Or.inr (Or.inl ⟨Nat.lt_of_not_le h2, h3, rfl⟩))
          · next h3 => exact Or.inr (Or.inr (Or.inr ⟨Nat.lt_of_not_le h3, hmax, rfl⟩))

theorem utf8EncodeChar_append_lt {c d : Char} (h : c < d) (cs ds : List UInt8) :
    String.utf8EncodeChar c ++ cs < String.utf8EncodeChar d ++ ds := by
  have hlt : c.val.toNat < d.val.toNat := h
  rcases utf8EncodeChar_cases c with ⟨hc, hccode⟩ | ⟨hc, hc', hccode⟩ | ⟨hc, hc', hccode⟩ |
      ⟨hc, hc', hccode⟩ <;>
    rcases utf8EncodeChar_cases d with ⟨hd, hdcode⟩ | ⟨hd, hd', hdcode⟩ | ⟨hd, hd', hdcode⟩ |
      ⟨hd, hd', hdcode⟩ <;>
    try omega
  all_goals rw [hccode, hdcode]
  · exact ofNat_cons_lt hlt (by omega) _ _
  · exact ofNat_cons_lt (by omega) (by omega) _ _
  · exact ofNat_cons_lt (by omega) (by omega) _ _
  · exact ofNat_cons_lt (by omega) (by omega) _ _
  · exact ascends_two _ _ hlt (by omega) _ _
  · exact ofNat_cons_lt (by omega) (by omega) _ _
  · exact ofNat_cons_lt (by omega) (by omega) _ _
  · exact ascends_three _ _ hlt (by omega) _ _
  · exact ofNat_cons_lt (by omega) (by omega) _ _
  · exact ascends_four _ _ hlt (by omega) _ _

theorem flatMap_utf8EncodeChar_lt {cs ds : List Char} (h : cs < ds) :
    cs.flatMap String.utf8EncodeChar < ds.flatMap String.utf8EncodeChar := by
  induction cs generalizing ds with
  | nil =>
      cases ds with
      | nil => exact absurd h (List.not_lt_nil _)
      | cons d ds =>
          rw [List.flatMap_nil, List.flatMap_cons]
          cases hcode : String.utf8EncodeChar d with
          | nil => exact absurd hcode String.utf8EncodeChar_ne_nil
          | cons first rest => exact List.nil_lt_cons _ _
  | cons c cs ih =>
      cases ds with
      | nil => exact absurd h (List.not_lt_nil _)
      | cons d ds =>
          rw [List.flatMap_cons, List.flatMap_cons]
          rcases List.cons_lt_cons_iff.mp h with hlt | ⟨heq, hrest⟩
          · exact utf8EncodeChar_append_lt hlt _ _
          · rw [heq]
            exact List.append_left_lt (ih hrest)

theorem bytes_lt {a b : String} (h : a < b) : bytes a < bytes b := by
  rw [bytes_eq_flatMap, bytes_eq_flatMap]
  exact flatMap_utf8EncodeChar_lt h

end Text

/-!
## Message keys
-/

theorem State.messageKeys_perm {σ : Type} (s : State σ) :
    s.messageKeys.Perm (s.on.map Prod.fst) :=
  List.mergeSort_perm _ _

theorem State.messageKeys_increasing {σ : Type} {s : State σ} (h : (s.on.map Prod.fst).Nodup) :
    s.messageKeys.Pairwise fun a b => Text.bytes a < Text.bytes b := by
  have hsorted : s.messageKeys.Pairwise fun a b => decide (a ≤ b) = true := by
    apply List.pairwise_mergeSort
    · intro a b c hab hbc
      exact decide_eq_true (String.le_trans (of_decide_eq_true hab) (of_decide_eq_true hbc))
    · intro a b
      rw [Bool.or_eq_true, decide_eq_true_eq, decide_eq_true_eq]
      exact String.le_total a b
  have hdistinct : s.messageKeys.Nodup := s.messageKeys_perm.nodup_iff.mpr h
  apply (hsorted.and hdistinct).imp
  intro a b hab
  rcases hab with ⟨hle, hne⟩
  apply Text.bytes_lt
  exact Std.lt_of_le_of_ne (of_decide_eq_true hle) hne

end BehaviorScript
