import BehaviorScript.CommandLine.Arguments
import Mathlib.Algebra.Group.Nat.Defs
import Mathlib.Data.List.TakeWhile

/-!
# Messages as the command line has them

A message is written `key@tick` or `key:text@tick`.  A key has neither of the two marks in it and no
blank character, and a text has no `@`.  So a key ends at the first character that no key has, and a
text ends at the first `@`: what is written in this way is taken apart again into the parts it
was made of, and nothing else is accepted.
-/

namespace BehaviorScript
namespace CommandLine

/-!
## The format
-/

structure IsKey (key : String) : Prop where
  nonempty : key ≠ ""
  chars : forall c, c ∈ key.toList -> c ≠ '@' ∧ c ≠ ':' ∧ Text.isBlank c = false

structure IsTick (digits : String) : Prop where
  nonempty : digits ≠ ""
  chars : forall c, c ∈ digits.toList -> '0' ≤ c ∧ c ≤ '9'
  bound : Nat.ofDigitChars 10 digits.toList 0 < 2 ^ 64

@[ext] structure WrittenSend where
  key : String
  text : Option String
  digits : String
  isKey : IsKey key
  isText : forall cs, text = some cs -> '@' ∉ cs.toList
  isTick : IsTick digits

namespace WrittenSend

def write (w : WrittenSend) : String :=
  match w.text with
  | none => w.key ++ "@" ++ w.digits
  | some text => w.key ++ ":" ++ text ++ "@" ++ w.digits

def send (w : WrittenSend) : Send :=
  { key := w.key
    value := w.text.map typedValue
    tick := Nat.ofDigitChars 10 w.digits.toList 0 }

end WrittenSend

/-!
## Taking a message apart
-/

def sendChars (key : List Char) (text : Option (List Char)) (tick : List Char) : List Char :=
  match text with
  | none => key ++ '@' :: tick
  | some cs => key ++ ':' :: (cs ++ '@' :: tick)

/--
What a message may be taken apart into.  The tick is not read yet, and has digits of any writing
system.
-/
structure AreParts (key : List Char) (text : Option (List Char)) (tick : List Char) : Prop where
  key_ne : key ≠ []
  key : forall c, c ∈ key -> isKeyChar c = true
  text : forall cs, text = some cs -> '@' ∉ cs
  tick_ne : tick ≠ []
  tick : tick.all Text.isDecimalDigit = true

theorem takeWhile_append_cons {p : Char -> Bool} {front rest : List Char} {c : Char}
    (hfront : forall d, d ∈ front -> p d = true) (hc : p c = false) :
    (front ++ c :: rest).takeWhile p = front := by
  rw [List.takeWhile_append_of_pos hfront, List.takeWhile_cons, hc]
  exact List.append_nil front

theorem dropWhile_append_cons {p : Char -> Bool} {front rest : List Char} {c : Char}
    (hfront : forall d, d ∈ front -> p d = true) (hc : p c = false) :
    (front ++ c :: rest).dropWhile p = c :: rest := by
  rw [List.dropWhile_append_of_pos hfront, List.dropWhile_cons, hc]
  rfl

theorem splitSend?_of_areParts {key tick : List Char} {text : Option (List Char)}
    (h : AreParts key text tick) :
    splitSend? (sendChars key text tick) = some (key, text, tick) := by
  have hparts : key ≠ [] ∧ tick ≠ [] ∧ tick.all Text.isDecimalDigit :=
    ⟨h.key_ne, h.tick_ne, h.tick⟩
  have hat : isKeyChar '@' = false := by decide
  have hcolon : isKeyChar ':' = false := by decide
  cases text with
  | none =>
      rw [splitSend?, sendChars, takeWhile_append_cons h.key hat, dropWhile_append_cons h.key hat]
      exact if_pos hparts
  | some cs =>
      have hcs : forall d, d ∈ cs -> decide (d ≠ '@') = true := by
        intro d hd
        apply decide_eq_true
        rintro rfl
        exact h.text cs rfl hd
      have hend : decide ('@' ≠ '@') = false := by decide
      rw [splitSend?, sendChars, takeWhile_append_cons h.key hcolon,
        dropWhile_append_cons h.key hcolon]
      simp only [takeWhile_append_cons hcs hend, dropWhile_append_cons hcs hend]
      exact if_pos hparts

theorem areParts_of_splitSend? {cs key tick : List Char} {text : Option (List Char)}
    (h : splitSend? cs = some (key, text, tick)) :
    cs = sendChars key text tick ∧ AreParts key text tick := by
  have hkey : forall c, c ∈ cs.takeWhile isKeyChar -> isKeyChar c = true :=
    fun c hc => List.mem_takeWhile_imp hc
  have hcs : cs.takeWhile isKeyChar ++ cs.dropWhile isKeyChar = cs :=
    List.takeWhile_append_dropWhile
  unfold splitSend? at h
  split at h
  next value rest hrest =>
    split at h
    · next digits =>
        by_cases hparts : cs.takeWhile isKeyChar ≠ [] ∧ digits ≠ [] ∧ digits.all Text.isDecimalDigit
        · simp only [if_pos hparts, Option.some.injEq, Prod.mk.injEq] at h
          rcases h with ⟨rfl, rfl, rfl⟩
          rcases hparts with ⟨hne, htick, hdigits⟩
          split at hrest
          · next after hafter =>
              rcases Prod.mk.inj hrest with ⟨rfl, hdrop⟩
              have hsplit : after.takeWhile (· ≠ '@') ++ after.dropWhile (· ≠ '@') = after :=
                List.takeWhile_append_dropWhile
              refine ⟨?_, hne, hkey, ?_, htick, hdigits⟩
              · rw [hafter] at hcs
                rw [sendChars, ← hdrop, hsplit, hcs]
              · rintro text ⟨⟩ hmem
                simpa using List.mem_takeWhile_imp hmem
          · rcases Prod.mk.inj hrest with ⟨rfl, hdrop⟩
            refine ⟨?_, hne, hkey, nofun, htick, hdigits⟩
            rw [sendChars, ← hdrop, hcs]
        · simp only [if_neg hparts] at h
          cases h
    · cases h

/-!
## Reading the tick
-/

theorem isDigit_iff {c : Char} : c.isDigit = true <-> '0' ≤ c ∧ c ≤ '9' := by
  have hdigit : c.isDigit = (decide ('0' ≤ c) && decide (c ≤ '9')) := rfl
  rw [hdigit, Bool.and_eq_true, decide_eq_true_eq, decide_eq_true_eq]

theorem isDecimalDigit_of_isDigit {c : Char} (h : c.isDigit = true) :
    Text.isDecimalDigit c = true := by
  rcases isDigit_iff.mp h with ⟨hzero, hnine⟩
  have hlow : 0x30 ≤ c.toNat := hzero
  have hhigh : c.toNat ≤ 0x39 := hnine
  rw [Text.isDecimalDigit, List.any_eq_true]
  refine ⟨0x30, by decide, ?_⟩
  simp only [Bool.and_eq_true, decide_eq_true_eq]
  omega

/--
Among decimal digits there is no sign, so a tick is read as a whole.
-/
theorem readCount?_eq_some_iff {tick : List Char} (htick : tick.all Text.isDecimalDigit = true)
    {n : Nat} :
    Number.readCount? tick = some n <->
      (tick ≠ [] ∧ tick.all Char.isDigit = true) ∧
        Nat.ofDigitChars 10 tick 0 < 2 ^ 64 ∧ Nat.ofDigitChars 10 tick 0 = n := by
  have hvalue : Text.digitsValue tick = Nat.ofDigitChars 10 tick 0 := rfl
  unfold Number.readCount?
  split
  · have hplus : Text.isDecimalDigit '+' = true :=
      List.all_eq_true.mp htick '+' List.mem_cons_self
    exact absurd hplus (by decide)
  · simp only [Text.readDigits?, hvalue]
    by_cases hdigits : tick ≠ [] ∧ tick.all Char.isDigit = true
    · rw [if_pos hdigits]
      simp [hdigits]
    · rw [if_neg hdigits]
      constructor
      · intro h
        cases h
      · intro h
        exact absurd h.1 hdigits

/-!
## Reading what was written
-/

theorem isKeyChar_iff {c : Char} :
    isKeyChar c = true <-> c ≠ '@' ∧ c ≠ ':' ∧ Text.isBlank c = false := by
  simp [isKeyChar, and_assoc]

namespace WrittenSend

theorem toList_write (w : WrittenSend) :
    w.write.toList = sendChars w.key.toList (w.text.map String.toList) w.digits.toList := by
  unfold write
  cases w.text with
  | none => simp [sendChars]
  | some text => simp [sendChars]

theorem all_isDigit (w : WrittenSend) : w.digits.toList.all Char.isDigit = true := by
  apply List.all_eq_true.mpr
  intro c hc
  exact isDigit_iff.mpr (w.isTick.chars c hc)

theorem toList_digits_ne (w : WrittenSend) : w.digits.toList ≠ [] :=
  fun h => w.isTick.nonempty (String.toList_eq_nil_iff.mp h)

theorem areParts (w : WrittenSend) :
    AreParts w.key.toList (w.text.map String.toList) w.digits.toList where
  key_ne := fun h => w.isKey.nonempty (String.toList_eq_nil_iff.mp h)
  key := fun c hc => isKeyChar_iff.mpr (w.isKey.chars c hc)
  text := by
    intro cs hcs
    rcases Option.map_eq_some_iff.mp hcs with ⟨text, htext, rfl⟩
    exact w.isText text htext
  tick_ne := w.toList_digits_ne
  tick := by
    apply List.all_eq_true.mpr
    intro c hc
    exact isDecimalDigit_of_isDigit (List.all_eq_true.mp w.all_isDigit c hc)

theorem splitSend?_write (w : WrittenSend) :
    splitSend? w.write.toList =
      some (w.key.toList, w.text.map String.toList, w.digits.toList) := by
  rw [toList_write]
  exact splitSend?_of_areParts w.areParts

theorem readSend_write (w : WrittenSend) : readSend w.write = .ok w.send := by
  have hcount : Number.readCount? w.digits.toList =
      some (Nat.ofDigitChars 10 w.digits.toList 0) :=
    (readCount?_eq_some_iff w.areParts.tick).mpr
      ⟨⟨w.toList_digits_ne, w.all_isDigit⟩, w.isTick.bound, rfl⟩
  rw [readSend, splitSend?_write]
  simp only [hcount, send]
  simp [Function.comp_def]

theorem write_injective : Function.Injective write := by
  intro w v h
  have hsplit := w.splitSend?_write
  rw [h, v.splitSend?_write, Option.some.injEq, Prod.mk.injEq, Prod.mk.injEq] at hsplit
  rcases hsplit with ⟨hkey, htext, hdigits⟩
  apply WrittenSend.ext
  · exact (String.toList_inj.mp hkey).symm
  · exact (Option.map_injective (fun _ _ => String.toList_inj.mp) htext).symm
  · exact (String.toList_inj.mp hdigits).symm

def ofParts {key tick : List Char} {text : Option (List Char)} (h : AreParts key text tick)
    (hdigits : tick.all Char.isDigit = true) (hbound : Nat.ofDigitChars 10 tick 0 < 2 ^ 64) :
    WrittenSend where
  key := String.ofList key
  text := text.map String.ofList
  digits := String.ofList tick
  isKey := by
    constructor
    · simpa using h.key_ne
    · intro c hc
      rw [String.toList_ofList] at hc
      exact isKeyChar_iff.mp (h.key c hc)
  isText := by
    intro cs hcs
    rcases Option.map_eq_some_iff.mp hcs with ⟨chars, hchars, rfl⟩
    rw [String.toList_ofList]
    exact h.text chars hchars
  isTick := by
    constructor
    · simpa using h.tick_ne
    · intro c hc
      rw [String.toList_ofList] at hc
      exact isDigit_iff.mp (List.all_eq_true.mp hdigits c hc)
    · rwa [String.toList_ofList]

theorem exists_of_readSend {s : String} {x : Send} (h : readSend s = .ok x) :
    exists w : WrittenSend, w.write = s ∧ w.send = x := by
  unfold readSend at h
  split at h
  · cases h
  · next key text tick hsplit =>
      rcases areParts_of_splitSend? hsplit with ⟨hs, hparts⟩
      split at h
      · cases h
      · next n hcount =>
          cases h
          rcases (readCount?_eq_some_iff hparts.tick).mp hcount with ⟨⟨_, hdigits⟩, hbound, rfl⟩
          refine ⟨ofParts hparts hdigits hbound, ?_, ?_⟩
          · apply String.toList_inj.mp
            rw [toList_write, hs]
            simp [ofParts, Function.comp_def]
          · simp [ofParts, send, Function.comp_def]

end WrittenSend

theorem isTick_toString {n : Nat} (h : n < 2 ^ 64) :
    IsTick (toString n) ∧ Nat.ofDigitChars 10 (toString n).toList 0 = n := by
  have hdigits : (toString n).toList = Nat.toDigits 10 n := by
    rw [Nat.toString_eq_ofList_toDigits, String.toList_ofList]
  have hvalue : Nat.ofDigitChars 10 (toString n).toList 0 = n := by
    rw [hdigits, Nat.ofDigitChars_ten_toDigits]
  refine ⟨⟨?_, ?_, ?_⟩, hvalue⟩
  · intro hempty
    rw [← String.toList_eq_nil_iff, hdigits] at hempty
    exact Nat.toDigits_ne_nil hempty
  · intro c hc
    rw [hdigits] at hc
    exact isDigit_iff.mp (Nat.isDigit_of_mem_toDigits (by decide) (by decide) hc)
  · rwa [hvalue]

/--
Reading a message accepts exactly what is written from the parts of one, and gives what they mean.
There is only one way to take a message apart, so a key, a text and a tick that are written down
are read back.
-/
theorem send_has_one_reading :
    (forall s x, readSend s = .ok x <-> exists w : WrittenSend, w.write = s ∧ w.send = x) ∧
      Function.Injective WrittenSend.write ∧
      forall key text n, IsKey key -> '@' ∉ text.toList -> n < 2 ^ 64 ->
        readSend (key ++ ":" ++ text ++ "@" ++ toString n) =
          .ok { key := key, value := some (typedValue text), tick := n } := by
  refine ⟨?_, WrittenSend.write_injective, ?_⟩
  · intro s x
    constructor
    · exact WrittenSend.exists_of_readSend
    · rintro ⟨w, rfl, rfl⟩
      exact w.readSend_write
  · intro key text n hkey htext hn
    rcases isTick_toString hn with ⟨htick, hvalue⟩
    have hread := WrittenSend.readSend_write
      { key := key, text := some text, digits := toString n, isKey := hkey,
        isText := by
          rintro cs ⟨⟩
          exact htext
        isTick := htick }
    simpa [WrittenSend.write, WrittenSend.send, hvalue] using hread

theorem send_has_one_reading_colons :
    readSend "say:a:b@7" =
      .ok { key := "say", value := some (.text "a:b"), tick := 7 } := by
  have hkey : "say".toList.all isKeyChar = true := by decide
  have hisKey : IsKey "say" :=
    ⟨by decide, fun c hc => isKeyChar_iff.mp (List.all_eq_true.mp hkey c hc)⟩
  have hvalue : typedValue "a:b" = .text "a:b" := by decide +kernel
  have hread := send_has_one_reading.2.2 "say" "a:b" 7 hisKey (by decide) (by decide)
  rw [hvalue] at hread
  exact hread

end CommandLine
end BehaviorScript
