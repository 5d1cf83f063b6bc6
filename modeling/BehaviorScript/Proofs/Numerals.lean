import BehaviorScript.CommandLine.Arguments
import BehaviorScript.Proofs.WrittenSends
import Mathlib.Algebra.Group.Int.Defs
import Mathlib.Data.List.Induction
import Mathlib.Data.Nat.Digits.Defs

/-!
# Numerals

A whole number is written as a numeral: one or more digits, with a sign before them or without one.
A literal is read as a whole number exactly when it is a numeral with white space around it and the
value of the numeral fits into a signed 64-bit word.  A numeral may be of any length, for zeros can
stand at its front, so the length says nothing about the value.
-/

namespace BehaviorScript

/-!
## Signs, digits and values
-/

inductive Sign where
  | absent
  | plus
  | minus
  deriving DecidableEq, Repr

namespace Sign

def chars : Sign -> List Char
  | absent => []
  | plus => ['+']
  | minus => ['-']

def isNegative : Sign -> Bool
  | minus => true
  | _ => false

def apply (sign : Sign) (n : Nat) : Int :=
  if sign.isNegative then -(n : Int) else n

end Sign

structure Numeral where
  sign : Sign
  first : Fin 10
  others : List (Fin 10)
  deriving DecidableEq, Repr

namespace Numeral

def digitChar (d : Fin 10) : Char :=
  Nat.digitChar d

/--
The number that a row of digits stands for: each digit counts ten times as much as the one after it.
-/
def positional (digits : List (Fin 10)) : Nat :=
  Nat.ofDigits 10 (digits.map Fin.val).reverse

def digits (n : Numeral) : List (Fin 10) :=
  n.first :: n.others

def chars (n : Numeral) : List Char :=
  n.sign.chars ++ n.digits.map digitChar

def text (n : Numeral) : String :=
  String.ofList n.chars

def value (n : Numeral) : Int :=
  n.sign.apply (positional n.digits)

end Numeral

def Text.whiteSpace : List Nat :=
  [0x9, 0xa, 0xb, 0xc, 0xd, 0x20, 0x85, 0xa0, 0x1680, 0x2000, 0x2001, 0x2002, 0x2003, 0x2004,
    0x2005, 0x2006, 0x2007, 0x2008, 0x2009, 0x200a, 0x2028, 0x2029, 0x202f, 0x205f, 0x3000]

def Text.IsWhiteSpace (s : String) : Prop :=
  forall c, c ∈ s.toList -> c.toNat ∈ whiteSpace

/--
The literal is a numeral of the given value, with nothing but white space around it.
-/
inductive Literal.WritesWhole : String -> Int -> Prop where
  | padded {before after : String} (n : Numeral) (hbefore : Text.IsWhiteSpace before)
      (hafter : Text.IsWhiteSpace after) : WritesWhole (before ++ n.text ++ after) n.value

/-!
## White space around a text
-/

namespace Text

theorem isBlank_iff {c : Char} : isBlank c = true <-> c.toNat ∈ whiteSpace := by
  have hlist : whiteSpace = blankRanges.flatMap fun r => List.range' r.1 (r.2 + 1 - r.1) := rfl
  rw [isBlank, List.any_eq_true, hlist, List.mem_flatMap]
  apply exists_congr
  intro r
  rw [List.mem_range'_1, Bool.and_eq_true, decide_eq_true_eq, decide_eq_true_eq]
  constructor
  · rintro ⟨hr, hlow, hhigh⟩
    exact ⟨hr, hlow, by omega⟩
  · rintro ⟨hr, hlow, hhigh⟩
    exact ⟨hr, hlow, by omega⟩

theorem all_isBlank_iff {s : String} : s.toList.all isBlank = true <-> IsWhiteSpace s := by
  simp only [List.all_eq_true, isBlank_iff, IsWhiteSpace]

theorem trim_append {before core after : List Char} (hbefore : before.all isBlank = true)
    (hafter : after.all isBlank = true) (hne : core ≠ [])
    (hcore : forall c, c ∈ core -> isBlank c = false) :
    trim (before ++ core ++ after) = core := by
  have hfront : (before ++ core ++ after).dropWhile isBlank = core ++ after := by
    rcases List.exists_cons_of_ne_nil hne with ⟨c, cs, rfl⟩
    rw [List.append_assoc]
    exact CommandLine.dropWhile_append_cons (List.all_eq_true.mp hbefore)
      (hcore c List.mem_cons_self)
  have hback : (core ++ after).reverse.dropWhile isBlank = core.reverse := by
    rcases List.eq_nil_or_concat core with rfl | ⟨cs, c, rfl⟩
    · exact absurd rfl hne
    · have hc : isBlank c = false := hcore c (by simp)
      have hreverse : after.reverse.all isBlank = true := by rwa [List.all_reverse]
      have hdrop : (after.reverse ++ c :: cs.reverse).dropWhile isBlank = c :: cs.reverse :=
        CommandLine.dropWhile_append_cons (List.all_eq_true.mp hreverse) hc
      simpa using hdrop
  rw [trim, hfront, hback, List.reverse_reverse]

theorem exists_eq_append_trim_append (cs : List Char) :
    exists before after, before.all isBlank = true ∧ after.all isBlank = true ∧
      cs = before ++ trim cs ++ after := by
  have hfront : cs.takeWhile isBlank ++ cs.dropWhile isBlank = cs :=
    List.takeWhile_append_dropWhile
  have hback := congrArg List.reverse
    (List.takeWhile_append_dropWhile (p := isBlank) (l := (cs.dropWhile isBlank).reverse))
  rw [List.reverse_append, List.reverse_reverse] at hback
  refine ⟨cs.takeWhile isBlank, ((cs.dropWhile isBlank).reverse.takeWhile isBlank).reverse,
    List.all_takeWhile, ?_, ?_⟩
  · rw [List.all_reverse]
    exact List.all_takeWhile
  · rw [List.append_assoc, trim, hback, hfront]

end Text

theorem Sign.isBlank_of_mem_chars {sign : Sign} {c : Char} (h : c ∈ sign.chars) :
    Text.isBlank c = false := by
  cases sign with
  | absent => cases h
  | plus =>
      rcases List.mem_singleton.mp h with rfl
      decide
  | minus =>
      rcases List.mem_singleton.mp h with rfl
      decide

namespace Numeral

theorem isBlank_digitChar (d : Fin 10) : Text.isBlank (digitChar d) = false := by
  have hcode : (digitChar d).toNat = 48 + d := Nat.toNat_digitChar_of_lt_ten d.isLt
  rw [Bool.eq_false_iff]
  intro h
  have hblank := Text.toNat_of_isBlank h
  omega

theorem isBlank_of_mem_chars {n : Numeral} {c : Char} (h : c ∈ n.chars) :
    Text.isBlank c = false := by
  rcases List.mem_append.mp h with hsign | hdigit
  · exact Sign.isBlank_of_mem_chars hsign
  · rcases List.mem_map.mp hdigit with ⟨d, _, rfl⟩
    exact isBlank_digitChar d

theorem chars_ne_nil (n : Numeral) : n.chars ≠ [] := by
  simp [chars, digits]

theorem trim_eq_chars_iff {s : String} {n : Numeral} :
    Text.trim s.toList = n.chars <->
      exists before after, Text.IsWhiteSpace before ∧ Text.IsWhiteSpace after ∧
        s = before ++ n.text ++ after := by
  constructor
  · intro h
    rcases Text.exists_eq_append_trim_append s.toList with ⟨before, after, hbefore, hafter, hs⟩
    refine ⟨String.ofList before, String.ofList after, ?_, ?_, ?_⟩
    · rwa [← Text.all_isBlank_iff, String.toList_ofList]
    · rwa [← Text.all_isBlank_iff, String.toList_ofList]
    · apply String.toList_inj.mp
      rw [hs, h]
      simp [text]
  · rintro ⟨before, after, hbefore, hafter, rfl⟩
    have hcore := Text.trim_append (Text.all_isBlank_iff.mpr hbefore)
      (Text.all_isBlank_iff.mpr hafter) n.chars_ne_nil fun c hc => isBlank_of_mem_chars hc
    simpa [text] using hcore

/-!
## Reading digits
-/

theorem exists_digitChar_eq {c : Char} (h : c.isDigit = true) : exists d, digitChar d = c := by
  rcases Char.isDigit_iff_toNat.mp h with ⟨hzero, hnine⟩
  have hlow : 48 ≤ c.toNat := hzero
  have hhigh : c.toNat ≤ 57 := hnine
  have hlt : c.toNat - 48 < 10 := by omega
  refine ⟨⟨c.toNat - 48, hlt⟩, Char.toNat_inj.mp ?_⟩
  calc (Nat.digitChar (c.toNat - 48)).toNat
      = 48 + (c.toNat - 48) := Nat.toNat_digitChar_of_lt_ten hlt
    _ = c.toNat := by omega

theorem exists_map_digitChar_eq {cs : List Char} (h : cs.all Char.isDigit = true) :
    exists digits : List (Fin 10), digits.map digitChar = cs := by
  induction cs with
  | nil => exact ⟨[], rfl⟩
  | cons c cs ih =>
      rw [List.all_cons, Bool.and_eq_true] at h
      rcases exists_digitChar_eq h.1 with ⟨d, rfl⟩
      rcases ih h.2 with ⟨digits, rfl⟩
      exact ⟨d :: digits, rfl⟩

theorem isDigit_digitChar (d : Fin 10) : (digitChar d).isDigit = true := by
  rw [digitChar, Nat.isDigit_digitChar]
  exact decide_eq_true d.isLt

theorem digitsValue_map_digitChar (digits : List (Fin 10)) :
    Text.digitsValue (digits.map digitChar) = positional digits := by
  -- the accumulator takes the last digit up last, so this is the digit to split off
  induction digits using List.reverseRecOn with
  | nil => rfl
  | append_singleton digits d ih =>
      have hdigit : (digitChar d).toNat - '0'.toNat = d :=
        Nat.toNat_digitChar_sub_48_of_lt_ten d.isLt
      have hstep : Text.digitsValue ((digits ++ [d]).map digitChar) =
          10 * Text.digitsValue (digits.map digitChar) + d := by
        simp only [Text.digitsValue, List.map_append, List.map_cons, List.map_nil,
          List.foldl_append, List.foldl_cons, List.foldl_nil, hdigit]
      have hvalue : positional (digits ++ [d]) = d + 10 * positional digits := by
        simp [positional, Nat.ofDigits_cons]
      rw [hstep, hvalue, ih, Nat.add_comm]

theorem readDigits?_eq_some_iff {cs : List Char} {n : Nat} :
    Text.readDigits? cs = some n <->
      exists first others, (first :: others).map digitChar = cs ∧
        positional (first :: others) = n := by
  unfold Text.readDigits?
  constructor
  · intro h
    split at h
    · next hcs =>
        rcases exists_map_digitChar_eq hcs.2 with ⟨digits, rfl⟩
        cases digits with
        | nil => exact absurd rfl hcs.1
        | cons first others =>
            rw [digitsValue_map_digitChar, Option.some.injEq] at h
            exact ⟨first, others, rfl, h⟩
    · cases h
  · rintro ⟨first, others, rfl, rfl⟩
    have hdigits : ((first :: others).map digitChar).all Char.isDigit = true := by
      simp [isDigit_digitChar]
    rw [if_pos ⟨by simp, hdigits⟩, digitsValue_map_digitChar]

/-!
## Reading signs
-/

theorem splitSign_chars (n : Numeral) :
    Number.splitSign n.chars = (n.sign.isNegative, n.digits.map digitChar) := by
  rcases n with ⟨sign, first, others⟩
  cases sign with
  | plus => rfl
  | minus => rfl
  | absent =>
      have hdigit := isDigit_digitChar first
      have hminus : digitChar first ≠ '-' := fun h => absurd (h ▸ hdigit) (by decide)
      have hplus : digitChar first ≠ '+' := fun h => absurd (h ▸ hdigit) (by decide)
      show Number.splitSign (digitChar first :: others.map digitChar) = _
      unfold Number.splitSign
      split
      · next h => exact absurd (List.cons.inj h).1 hminus
      · next h => exact absurd (List.cons.inj h).1 hplus
      · rfl

theorem exists_splitSign_eq (cs : List Char) :
    exists (sign : Sign) (rest : List Char),
      Number.splitSign cs = (sign.isNegative, rest) ∧ sign.chars ++ rest = cs := by
  fun_cases Number.splitSign cs with
  | case1 rest => exact ⟨.minus, rest, rfl, rfl⟩
  | case2 rest => exact ⟨.plus, rest, rfl, rfl⟩
  | case3 => exact ⟨.absent, cs, rfl, rfl⟩

theorem readInt?_of_splitSign {cs rest : List Char} {sign : Sign}
    (h : Number.splitSign cs = (sign.isNegative, rest)) :
    Number.readInt? cs = (Text.readDigits? rest).map sign.apply := by
  simp only [Number.readInt?, h]
  cases Text.readDigits? rest with
  | none => rfl
  | some n => rfl

theorem readInt?_eq_some_iff {cs : List Char} {z : Int} :
    Number.readInt? cs = some z <-> exists n : Numeral, n.chars = cs ∧ n.value = z := by
  constructor
  · intro h
    rcases exists_splitSign_eq cs with ⟨sign, rest, hsplit, rfl⟩
    rw [readInt?_of_splitSign hsplit, Option.map_eq_some_iff] at h
    rcases h with ⟨m, hm, rfl⟩
    rcases readDigits?_eq_some_iff.mp hm with ⟨first, others, rfl, rfl⟩
    exact ⟨⟨sign, first, others⟩, rfl, rfl⟩
  · rintro ⟨n, rfl, rfl⟩
    have hdigits : Text.readDigits? (n.digits.map digitChar) = some (positional n.digits) :=
      readDigits?_eq_some_iff.mpr ⟨n.first, n.others, rfl, rfl⟩
    rw [readInt?_of_splitSign n.splitSign_chars, hdigits]
    rfl

/-!
## Words
-/

theorem exists_toInt_eq_iff {z : Int} :
    (exists v : Int64, v.toInt = z) <-> -2 ^ 63 ≤ z ∧ z ≤ 2 ^ 63 - 1 := by
  constructor
  · rintro ⟨v, rfl⟩
    have hlow := v.le_toInt
    have hhigh := v.toInt_lt
    omega
  · rintro ⟨hlow, hhigh⟩
    exact ⟨Int64.ofInt z, Int64.toInt_ofInt_of_le hlow (by omega)⟩

theorem readInt64?_eq_some_iff {cs : List Char} {v : Int64} :
    Number.readInt64? cs = some v <-> Number.readInt? cs = some v.toInt := by
  rw [Number.readInt64?, Option.bind_eq_some_iff]
  constructor
  · rintro ⟨z, hz, hv⟩
    -- only a number inside the bounds became a word, and such a number is not wrapped around
    split at hv
    · next hbounds =>
        have hexact : (Int64.ofInt z).toInt = z :=
          Int64.toInt_ofInt_of_le (by omega) (by omega)
        rw [hz, ← Option.some.inj hv, hexact]
    · cases hv
  · intro h
    have hlow := v.le_toInt
    have hhigh := v.toInt_lt
    refine ⟨v.toInt, h, ?_⟩
    rw [if_pos (by omega), Int64.ofInt_toInt]

/-!
## The usual notation
-/

theorem readDigits?_toDigits (m : Nat) : Text.readDigits? (Nat.toDigits 10 m) = some m := by
  have hdigits : (Nat.toDigits 10 m).all Char.isDigit = true := by
    apply List.all_eq_true.mpr
    intro c hc
    exact Nat.isDigit_of_mem_toDigits (by decide) (by decide) hc
  have hvalue : Text.digitsValue (Nat.toDigits 10 m) = m := Nat.ofDigitChars_ten_toDigits
  rw [Text.readDigits?, if_pos ⟨Nat.toDigits_ne_nil, hdigits⟩, hvalue]

theorem exists_text_eq_toString (z : Int) :
    exists n : Numeral, n.text = toString z ∧ n.value = z := by
  cases z with
  | ofNat m =>
      rcases readDigits?_eq_some_iff.mp (readDigits?_toDigits m) with
        ⟨first, others, hdigits, hvalue⟩
      refine ⟨⟨.absent, first, others⟩, ?_, congrArg Int.ofNat hvalue⟩
      have htext : toString (Int.ofNat m) = String.ofList (Nat.toDigits 10 m) :=
        Nat.repr_eq_ofList_toDigits
      rw [htext, ← hdigits]
      rfl
  | negSucc m =>
      rcases readDigits?_eq_some_iff.mp (readDigits?_toDigits (m + 1)) with
        ⟨first, others, hdigits, hvalue⟩
      refine ⟨⟨.minus, first, others⟩, ?_, congrArg (fun n : Nat => -(n : Int)) hvalue⟩
      have htext : toString (Int.negSucc m) = "-" ++ String.ofList (Nat.toDigits 10 (m + 1)) :=
        congrArg ("-" ++ ·) Nat.repr_eq_ofList_toDigits
      apply String.toList_inj.mp
      rw [htext, ← hdigits]
      simp [text, chars, digits, Sign.chars]

end Numeral

/-!
## Literals
-/

namespace Literal

theorem writesWhole_iff {s : String} {z : Int} :
    WritesWhole s z <-> Number.readInt? (Text.trim s.toList) = some z := by
  rw [Numeral.readInt?_eq_some_iff]
  constructor
  · rintro ⟨n, hbefore, hafter⟩
    exact ⟨n, (Numeral.trim_eq_chars_iff.mpr ⟨_, _, hbefore, hafter, rfl⟩).symm, rfl⟩
  · rintro ⟨n, hn, rfl⟩
    rcases Numeral.trim_eq_chars_iff.mp hn.symm with ⟨before, after, hbefore, hafter, rfl⟩
    exact WritesWhole.padded n hbefore hafter

theorem toInt?_eq_some_iff {s : String} {x : Value} :
    toInt? s = some x <-> exists v : Int64, WritesWhole s v.toInt ∧ .int v = x := by
  simp only [toInt?, Option.map_eq_some_iff, Numeral.readInt64?_eq_some_iff, writesWhole_iff]

theorem toInt?_eq_int_iff {s : String} {v : Int64} :
    toInt? s = some (.int v) <-> WritesWhole s v.toInt := by
  rw [toInt?_eq_some_iff]
  constructor
  · rintro ⟨w, hw, hwv⟩
    cases hwv
    exact hw
  · intro h
    exact ⟨v, h, rfl⟩

theorem writesWhole_display {before after : String} (v : Int64)
    (hbefore : Text.IsWhiteSpace before) (hafter : Text.IsWhiteSpace after) :
    WritesWhole (before ++ (Value.int v).display ++ after) v.toInt := by
  rcases Numeral.exists_text_eq_toString v.toInt with ⟨n, htext, hvalue⟩
  rw [Value.display, ← htext, ← hvalue]
  exact WritesWhole.padded n hbefore hafter

theorem toFloat?_ne_int (s : String) (v : Int64) : toFloat? s ≠ some (.int v) := by
  simp [toFloat?]

theorem toBool?_ne_int (s : String) (v : Int64) : toBool? s ≠ some (.int v) := by
  simp only [toBool?]
  split
  · simp
  · split
    · simp
    · simp

end Literal

theorem CommandLine.typedValue_eq_int_iff {s : String} {v : Int64} :
    typedValue s = .int v <-> Literal.toInt? s = some (.int v) := by
  unfold typedValue
  cases hint : Literal.toInt? s with
  | some x => simp
  | none =>
      have hfloat := Literal.toFloat?_ne_int s v
      have hbool := Literal.toBool?_ne_int s v
      cases hf : Literal.toFloat? s with
      | some x => simpa [hf] using hfloat
      | none =>
          cases hb : Literal.toBool? s with
          | some x => simpa [hb] using hbool
          | none => simp

/--
A literal is converted to a whole number exactly when it is a numeral with white space around it
whose value fits into a signed 64-bit word, and then to that value.  The command line takes the same
literals for whole numbers, and a number that was written out is converted back.
-/
theorem numerals_convert_exactly :
    (forall s z, (exists v : Int64, Literal.toInt? s = some (.int v) ∧ v.toInt = z) <->
        Literal.WritesWhole s z ∧ -2 ^ 63 ≤ z ∧ z ≤ 2 ^ 63 - 1) ∧
      (forall s, Literal.toInt? s = none <->
        forall z, Literal.WritesWhole s z -> z < -2 ^ 63 ∨ 2 ^ 63 - 1 < z) ∧
      (forall s v, CommandLine.typedValue s = .int v <-> Literal.toInt? s = some (.int v)) ∧
      forall (v : Int64) (before after : String),
        Text.IsWhiteSpace before -> Text.IsWhiteSpace after ->
          Literal.toInt? (before ++ (Value.int v).display ++ after) = some (.int v) ∧
            CommandLine.typedValue (before ++ (Value.int v).display ++ after) = .int v := by
  refine ⟨?_, ?_, fun _ _ => CommandLine.typedValue_eq_int_iff, ?_⟩
  · intro s z
    rw [← Numeral.exists_toInt_eq_iff]
    constructor
    · rintro ⟨v, hv, rfl⟩
      exact ⟨Literal.toInt?_eq_int_iff.mp hv, v, rfl⟩
    · rintro ⟨hs, v, rfl⟩
      exact ⟨v, Literal.toInt?_eq_int_iff.mpr hs, rfl⟩
  · intro s
    rw [Option.eq_none_iff_forall_ne_some]
    constructor
    · intro hnone z hz
      by_contra hinside
      have hbounds : -2 ^ 63 ≤ z ∧ z ≤ 2 ^ 63 - 1 := by omega
      rcases Numeral.exists_toInt_eq_iff.mpr hbounds with ⟨v, rfl⟩
      exact hnone _ (Literal.toInt?_eq_int_iff.mpr hz)
    · intro houtside x hx
      rcases Literal.toInt?_eq_some_iff.mp hx with ⟨v, hv, rfl⟩
      have hbounds := Numeral.exists_toInt_eq_iff.mp ⟨v, rfl⟩
      have hout := houtside v.toInt hv
      omega
  · intro v before after hbefore hafter
    have hread : Literal.toInt? (before ++ (Value.int v).display ++ after) = some (.int v) :=
      Literal.toInt?_eq_int_iff.mpr (Literal.writesWhole_display v hbefore hafter)
    exact ⟨hread, CommandLine.typedValue_eq_int_iff.mpr hread⟩

theorem numerals_convert_exactly_least :
    Literal.toInt? ("\u3000" ++ "-9223372036854775808" ++ "\n") = some (.int Int64.minValue) ∧
      CommandLine.typedValue ("\u3000" ++ "-9223372036854775808" ++ "\n") =
        .int Int64.minValue := by
  have hdisplay : (Value.int Int64.minValue).display = "-9223372036854775808" := by decide
  rw [← hdisplay]
  have hbefore : Text.IsWhiteSpace "\u3000" := Text.all_isBlank_iff.mp (by decide)
  have hafter : Text.IsWhiteSpace "\n" := Text.all_isBlank_iff.mp (by decide)
  exact numerals_convert_exactly.2.2.2 Int64.minValue "\u3000" "\n" hbefore hafter

-- the opposite of the least number has no word
example : Literal.toInt? "9223372036854775808" = none := by decide +kernel

example :
    Literal.toInt? "+000000000000000000009223372036854775807" = some (.int Int64.maxValue) := by
  decide +kernel

end BehaviorScript
