import BehaviorScript.CommandLine
import BehaviorScript.Proofs.Basic
import BehaviorScript.Proofs.WrittenSends

/-!
# Two spellings of an option

An option with a value is written in two arguments, `--ticks 5`, or in one, `--ticks=5`.  In two
arguments the value is taken as it stands.  In one argument the name with its equals sign is taken
away as often as it stands at the front, so the two spellings mean the same as long as the value
does not begin with the name itself.
-/

namespace BehaviorScript
namespace CommandLine

/-!
## Options with a value
-/

inductive ValuedOption where
  | ticks
  | send
  deriving DecidableEq, Repr

namespace ValuedOption

def name : ValuedOption -> String
  | ticks => "--ticks"
  | send => "--send"

def label : ValuedOption -> String
  | ticks => "--ticks="
  | send => "--send="

def put (o : ValuedOption) (a : Arguments) (value : String) : Except Stop Arguments :=
  match o with
  | ticks => a.withTicks value
  | send => a.withSend value

end ValuedOption

/--
Two lists of arguments ask for the same: both are read into the same arguments or stop for the same
reason, and the program does the same with both.
-/
structure AskTheSame (color : Bool) (args args' : List String) : Prop where
  read : Arguments.read color args = Arguments.read color args'
  run : forall timings input,
    CommandLine.run color timings input args = CommandLine.run color timings input args'

/-!
## Reading from left to right
-/

namespace Arguments

variable {a b : Arguments} {arg : String}

theorem readAll_ticks (h : arg = "--ticks" ∨ arg = "-t") (value : String) (rest : List String) :
    a.readAll (arg :: value :: rest) = (a.withTicks value >>= fun b => b.readAll rest) := by
  rw [readAll, if_pos h]
  cases a.withTicks value with
  | error stop => rfl
  | ok b => rfl

theorem readAll_send (hticks : ¬ (arg = "--ticks" ∨ arg = "-t")) (h : arg = "--send" ∨ arg = "-s")
    (value : String) (rest : List String) :
    a.readAll (arg :: value :: rest) = (a.withSend value >>= fun b => b.readAll rest) := by
  rw [readAll, if_neg hticks, if_pos h]
  cases a.withSend value with
  | error stop => rfl
  | ok b => rfl

theorem readAll_single (hticks : ¬ (arg = "--ticks" ∨ arg = "-t"))
    (hsend : ¬ (arg = "--send" ∨ arg = "-s")) (rest : List String) :
    a.readAll (arg :: rest) = (a.withSingle arg >>= fun b => b.readAll rest) := by
  rw [readAll.eq_def]
  simp only [if_neg hticks, if_neg hsend]
  cases a.withSingle arg with
  | error stop => rfl
  | ok b => rfl

theorem bind_readAll_nil (x : Except Stop Arguments) : (x >>= fun b => b.readAll []) = x := by
  cases x with
  | error stop => rfl
  | ok b => rfl

theorem readAll_append {before : List String} (h : a.readAll before = .ok b)
    (after : List String) : a.readAll (before ++ after) = b.readAll after := by
  fun_induction Arguments.readAll a before with
  | case1 =>
      cases h
      rfl
  | case2 => cases h
  | case3 => cases h
  | case4 a arg hticks value rest a' ha' ih =>
      rw [List.cons_append, List.cons_append, readAll_ticks hticks, ha']
      exact ih h
  | case5 => cases h
  | case6 => cases h
  | case7 a arg hticks hsend value rest a' ha' ih =>
      rw [List.cons_append, List.cons_append, readAll_send hticks hsend, ha']
      exact ih h
  | case8 => cases h
  | case9 a arg rest hticks hsend a' ha' ih =>
      rw [List.cons_append, readAll_single hticks hsend, ha']
      exact ih h

theorem readAll_apart (o : ValuedOption) (value : String) (rest : List String) :
    a.readAll (o.name :: value :: rest) = (o.put a value >>= fun b => b.readAll rest) := by
  cases o with
  | ticks => exact readAll_ticks (Or.inl rfl) value rest
  | send => exact readAll_send (by decide) (Or.inl rfl) value rest

end Arguments

/-!
## Values in the same argument
-/

def ValuedOption.Begins (o : ValuedOption) (value : String) : Prop :=
  o.label.toList <+: value.toList

/--
The text is the given number of names and then the value, which does not begin with another.
-/
structure ValuedOption.Repeats (o : ValuedOption) (k : Nat) (value text : String) : Prop where
  toList_eq : text.toList = (List.replicate k o.label.toList).flatten ++ value.toList
  not_begins : ¬ o.Begins value

theorem dropRepeated_append (front cs : List Char) (limit : Nat) :
    dropRepeated front (limit + 1) (front ++ cs) = dropRepeated front limit cs := by
  have hfront : front.isPrefixOf (front ++ cs) = true :=
    List.isPrefixOf_iff_prefix.mpr (List.prefix_append front cs)
  rw [dropRepeated, if_pos hfront, List.drop_left]

theorem exists_dropRepeated {front : List Char} (hfront : front ≠ []) (limit : Nat)
    (cs : List Char) (hlimit : cs.length ≤ limit) :
    exists k, cs = (List.replicate k front).flatten ++ dropRepeated front limit cs ∧
      ¬ front <+: dropRepeated front limit cs := by
  induction limit generalizing cs with
  | zero =>
      have hcs : cs = [] := List.length_eq_zero_iff.mp (Nat.le_zero.mp hlimit)
      rw [hcs]
      exact ⟨0, rfl, fun h => hfront (List.prefix_nil.mp h)⟩
  | succ limit ih =>
      by_cases h : front <+: cs
      · rcases h with ⟨rest, rfl⟩
        have hpos : 0 < front.length := List.length_pos_iff.mpr hfront
        rw [List.length_append] at hlimit
        rcases ih rest (by omega) with ⟨k, hrest, hstop⟩
        rw [dropRepeated_append]
        refine ⟨k + 1, ?_, hstop⟩
        rw [List.replicate_succ, List.flatten_cons, List.append_assoc, ← hrest]
      · rw [dropRepeated, if_neg fun hfront => h (List.isPrefixOf_iff_prefix.mp hfront)]
        exact ⟨0, rfl, h⟩

theorem ValuedOption.label_ne (o : ValuedOption) : o.label.toList ≠ [] := by
  cases o with
  | ticks => decide
  | send => decide

theorem ValuedOption.exists_inlineValue? (o : ValuedOption) (text : String) :
    exists k value, o.Repeats k value text ∧
      inlineValue? o.label (o.label ++ text) = some value := by
  have hchars : (o.label ++ text).toList = o.label.toList ++ text.toList := String.toList_append
  have hfront : o.label.toList.isPrefixOf (o.label.toList ++ text.toList) = true :=
    List.isPrefixOf_iff_prefix.mpr (List.prefix_append _ _)
  have hpos : 0 < o.label.toList.length := List.length_pos_iff.mpr o.label_ne
  rcases Nat.exists_eq_add_of_lt hpos with ⟨m, hm⟩
  have hlimit : (o.label.toList ++ text.toList).length = m + text.toList.length + 1 := by
    rw [List.length_append]
    omega
  rcases exists_dropRepeated o.label_ne (m + text.toList.length) text.toList
    (Nat.le_add_left _ _) with ⟨k, heq, hstop⟩
  have hinline : inlineValue? o.label (o.label ++ text) =
      some (String.ofList (dropRepeated o.label.toList (m + text.toList.length) text.toList)) := by
    rw [inlineValue?, hchars, if_pos hfront, hlimit, dropRepeated_append]
  refine ⟨k, _, ⟨?_, ?_⟩, hinline⟩
  · rw [String.toList_ofList]
    exact heq
  · rw [Begins, String.toList_ofList]
    exact hstop

theorem ValuedOption.joined_ne (o : ValuedOption) (text : String) {t : String}
    (ht : '=' ∉ t.toList) : o.label ++ text ≠ t := by
  rintro rfl
  apply ht
  rw [String.toList_append]
  apply List.mem_append_left
  cases o with
  | ticks => decide
  | send => decide

theorem ValuedOption.joined_ne_either (o : ValuedOption) (text : String) {t u : String}
    (ht : '=' ∉ t.toList) (hu : '=' ∉ u.toList) :
    ¬ (o.label ++ text = t ∨ o.label ++ text = u) := by
  rintro (h | h)
  · exact o.joined_ne text ht h
  · exact o.joined_ne text hu h

theorem inlineValue?_ticks_of_send (text : String) :
    inlineValue? "--ticks=" ("--send=" ++ text) = none := by
  have hticks : "--ticks=".toList = ['-', '-', 't', 'i', 'c', 'k', 's', '='] := by decide
  have hsend : "--send=".toList = ['-', '-', 's', 'e', 'n', 'd', '='] := by decide
  rw [inlineValue?, String.toList_append, hticks, hsend]
  rfl

namespace Arguments

theorem withSingle_label (a : Arguments) (o : ValuedOption) {text value : String}
    (h : inlineValue? o.label (o.label ++ text) = some value) :
    a.withSingle (o.label ++ text) = o.put a value := by
  rw [withSingle, if_neg, if_neg, if_neg, if_neg]
  · cases o with
    | ticks =>
        simp only [ValuedOption.label] at h
        simp only [ValuedOption.label, h]
        rfl
    | send =>
        simp only [ValuedOption.label] at h
        simp only [ValuedOption.label, inlineValue?_ticks_of_send, h]
        rfl
  · exact o.joined_ne text (by decide)
  · exact o.joined_ne text (by decide)
  · exact o.joined_ne_either text (by decide) (by decide)
  · exact o.joined_ne_either text (by decide) (by decide)

theorem readAll_joined {a : Arguments} (o : ValuedOption) {text value : String}
    (h : inlineValue? o.label (o.label ++ text) = some value) (rest : List String) :
    a.readAll ((o.label ++ text) :: rest) = (o.put a value >>= fun b => b.readAll rest) := by
  rw [readAll_single, withSingle_label a o h]
  · exact o.joined_ne_either text (by decide) (by decide)
  · exact o.joined_ne_either text (by decide) (by decide)

end Arguments

/-!
## Values that begin with the name
-/

theorem readTicks_hyphen {value : String} {cs : List Char} (h : value.toList = '-' :: cs) :
    readTicks value = .error (.invalidTicks value) := by
  rw [readTicks, h]
  rfl

theorem readTicks_eq_error {value : String} {e : UsageError} (h : readTicks value = .error e) :
    e = .invalidTicks value := by
  unfold readTicks at h
  split at h
  · cases h
  · cases h
    rfl

theorem readSend_eq_error {value : String} {e : UsageError} (h : readSend value = .error e) :
    e = .invalidSend value ∨ e = .invalidSendTick value := by
  unfold readSend at h
  split at h
  · cases h
    exact Or.inl rfl
  · split at h
    · cases h
      exact Or.inr rfl
    · cases h

theorem readSend_errors_ne {value text : String} (hne : value ≠ text) {e e' : UsageError}
    (he : readSend value = .error e) (he' : readSend text = .error e') : e ≠ e' := by
  rcases readSend_eq_error he with rfl | rfl
  · rcases readSend_eq_error he' with rfl | rfl
    · simpa using hne
    · simp
  · rcases readSend_eq_error he' with rfl | rfl
    · simp
    · simpa using hne

def WrittenSend.lengthen (w : WrittenSend) (front : List Char)
    (hfront : forall c, c ∈ front -> isKeyChar c = true) : WrittenSend :=
  { w with
    key := String.ofList (front ++ w.key.toList)
    isKey := by
      constructor
      · intro h
        rw [← String.toList_eq_nil_iff, String.toList_ofList, List.append_eq_nil_iff,
          String.toList_eq_nil_iff] at h
        exact w.isKey.nonempty h.2
      · intro c hc
        rw [String.toList_ofList] at hc
        rcases List.mem_append.mp hc with hc | hc
        · exact isKeyChar_iff.mp (hfront c hc)
        · exact w.isKey.chars c hc }

theorem WrittenSend.toList_write_lengthen (w : WrittenSend) (front : List Char)
    (hfront : forall c, c ∈ front -> isKeyChar c = true) :
    (w.lengthen front hfront).write.toList = front ++ w.write.toList := by
  rw [toList_write, toList_write]
  cases htext : w.text with
  | none => simp [lengthen, sendChars, htext]
  | some text => simp [lengthen, sendChars, htext]

theorem readSend_ne_of_append {front : List Char} {value text : String}
    (hfront : forall c, c ∈ front -> isKeyChar c = true) (hne : front ≠ [])
    (htext : text.toList = front ++ value.toList) {x y : Send} (hx : readSend value = .ok x)
    (hy : readSend text = .ok y) : x ≠ y := by
  rcases WrittenSend.exists_of_readSend hx with ⟨w, hw, rfl⟩
  have hlong : (w.lengthen front hfront).write = text := by
    apply String.toList_inj.mp
    rw [w.toList_write_lengthen, hw, htext]
  rw [← hlong, WrittenSend.readSend_write] at hy
  cases hy
  intro heq
  have hkey : w.key.toList = front ++ w.key.toList := by
    have hkeys := congrArg (fun s : Send => s.key.toList) heq
    simpa [WrittenSend.send, WrittenSend.lengthen] using hkeys
  exact hne (List.append_left_eq_self.mp hkey.symm)

namespace ValuedOption

variable {o : ValuedOption} {k : Nat} {value text : String}

theorem Repeats.eq_zero_iff (h : o.Repeats k value text) : k = 0 <-> ¬ o.Begins text := by
  cases k with
  | zero =>
      have htext : text = value := String.toList_inj.mp h.toList_eq
      rw [htext]
      exact ⟨fun _ => h.not_begins, fun _ => rfl⟩
  | succ k =>
      have hbegins : o.Begins text := by
        rw [Begins, h.toList_eq, List.replicate_succ, List.flatten_cons, List.append_assoc]
        exact List.prefix_append _ _
      exact ⟨fun hzero => absurd hzero (Nat.succ_ne_zero k), fun hnot => absurd hbegins hnot⟩

theorem isKeyChar_of_mem_label {c : Char} (hc : c ∈ send.label.toList) : isKeyChar c = true := by
  have hall : send.label.toList.all isKeyChar = true := by decide
  exact List.all_eq_true.mp hall c hc

theorem withTicks_ne (h : ticks.Begins text) (hne : value ≠ text) (a : Arguments) :
    a.withTicks value ≠ a.withTicks text := by
  rcases h with ⟨cs, hcs⟩
  rw [Arguments.withTicks, Arguments.withTicks, readTicks_hyphen hcs.symm]
  cases hread : readTicks value with
  | ok n => simp
  | error e =>
      rw [readTicks_eq_error hread]
      simpa using hne

theorem withSend_ne (h : send.Repeats k value text) (hk : k ≠ 0) (hne : value ≠ text)
    (a : Arguments) : a.withSend value ≠ a.withSend text := by
  have hfront : forall c, c ∈ (List.replicate k send.label.toList).flatten ->
      isKeyChar c = true := by
    intro c hc
    rcases List.mem_flatten.mp hc with ⟨cs, hcs, hc⟩
    rw [List.eq_of_mem_replicate hcs] at hc
    exact isKeyChar_of_mem_label hc
  have hfront_ne : (List.replicate k send.label.toList).flatten ≠ [] := by
    intro hnil
    rw [List.flatten_eq_nil_iff] at hnil
    exact send.label_ne (hnil _ (List.mem_replicate.mpr ⟨hk, rfl⟩))
  unfold Arguments.withSend
  cases hx : readSend value with
  | ok x =>
      cases hy : readSend text with
      | ok y => simpa using readSend_ne_of_append hfront hfront_ne h.toList_eq hx hy
      | error e => simp
  | error e =>
      cases hy : readSend text with
      | ok y => simp
      | error e' => simpa using readSend_errors_ne hne hx hy

theorem Repeats.put_eq_iff (h : o.Repeats k value text) (a : Arguments) :
    o.put a value = o.put a text <-> ¬ o.Begins text := by
  constructor
  · intro heq hbegins
    have hk : k ≠ 0 := fun hk => h.eq_zero_iff.mp hk hbegins
    have hne : value ≠ text := by
      rintro rfl
      exact h.not_begins hbegins
    cases o with
    | ticks => exact withTicks_ne hbegins hne a heq
    | send => exact withSend_ne h hk hne a heq
  · intro hnot
    rw [h.eq_zero_iff.mpr hnot] at h
    rw [String.toList_inj.mp h.toList_eq]

end ValuedOption

/-!
## The spellings compared
-/

theorem askTheSame_of_readAll {color : Bool} {args args' : List String}
    (h : Arguments.readAll { color := color } args = Arguments.readAll { color := color } args') :
    AskTheSame color args args' := by
  have hread : Arguments.read color args = Arguments.read color args' := by
    rw [Arguments.read, h, Arguments.read]
  constructor
  · exact hread
  · intro timings input
    rw [CommandLine.run, hread, CommandLine.run]

/--
Once the reading has come to an option with a value, both spellings leave it with the same
arguments, or end it for the same reason, just when the value does not begin with the name of the
option and an equals sign.  If it does, the value in the same argument is what is left without
these names.
-/
theorem option_spellings_agree_iff (color : Bool) (before : List String) (reached : Arguments)
    (hreached : Arguments.readAll { color := color } before = .ok reached) (o : ValuedOption)
    (text : String) :
    (Arguments.readAll { color := color } (before ++ [o.label ++ text]) =
        Arguments.readAll { color := color } (before ++ [o.name, text]) <-> ¬ o.Begins text) ∧
      (¬ o.Begins text -> forall after,
        AskTheSame color (before ++ (o.label ++ text) :: after)
          (before ++ o.name :: text :: after)) ∧
      exists k value, o.Repeats k value text ∧ forall after,
        AskTheSame color (before ++ (o.label ++ text) :: after)
          (before ++ o.name :: value :: after) := by
  rcases o.exists_inlineValue? text with ⟨k, value, hrepeats, hinline⟩
  have hapart (t : String) (after : List String) :
      Arguments.readAll { color := color } (before ++ o.name :: t :: after) =
        (o.put reached t >>= fun b => b.readAll after) := by
    rw [Arguments.readAll_append hreached, Arguments.readAll_apart]
  have hjoined (after : List String) :
      Arguments.readAll { color := color } (before ++ (o.label ++ text) :: after) =
        (o.put reached value >>= fun b => b.readAll after) := by
    rw [Arguments.readAll_append hreached, Arguments.readAll_joined o hinline]
  have hsame : forall after, AskTheSame color (before ++ (o.label ++ text) :: after)
      (before ++ o.name :: value :: after) := by
    intro after
    apply askTheSame_of_readAll
    rw [hjoined, hapart]
  refine ⟨?_, ?_, k, value, hrepeats, hsame⟩
  · rw [hjoined, hapart, Arguments.bind_readAll_nil, Arguments.bind_readAll_nil]
    exact hrepeats.put_eq_iff reached
  · intro hnot after
    have hzero := hrepeats.eq_zero_iff.mpr hnot
    subst hzero
    rw [String.toList_inj.mp hrepeats.toList_eq] at hsame ⊢
    exact hsame after

theorem option_spellings_agree_iff_seen :
    let args := ["-t", "3"]
    Arguments.readAll {} args = .ok { ticks := 3 } ∧ ¬ ValuedOption.send.Begins "seen@2" ∧
      AskTheSame false (args ++ ["--send=seen@2"]) (args ++ ["--send", "seen@2"]) := by
  intro args
  have hreached : Arguments.readAll {} args = .ok { ticks := 3 } := by decide +kernel
  have hplain : ¬ ValuedOption.send.Begins "seen@2" := by
    unfold ValuedOption.Begins
    decide
  exact ⟨hreached, hplain,
    (option_spellings_agree_iff false args _ hreached .send "seen@2").2.1 hplain []⟩

/--
A number of ticks after a second name is taken in one argument, and refused in two.
-/
theorem option_spellings_differ :
    Arguments.read false ["--ticks=--ticks=4"] = .ok { ticks := 4 } ∧
      Arguments.read false ["--ticks", "--ticks=4"] =
        .error (.mistake (.invalidTicks "--ticks=4")) ∧
      ¬ AskTheSame false ["--ticks=--ticks=4"] ["--ticks", "--ticks=4"] := by
  have hjoined : Arguments.read false ["--ticks=--ticks=4"] = .ok { ticks := 4 } := by
    decide +kernel
  have hapart : Arguments.read false ["--ticks", "--ticks=4"] =
      .error (.mistake (.invalidTicks "--ticks=4")) := by
    decide +kernel
  refine ⟨hjoined, hapart, ?_⟩
  intro hsame
  have hread := hsame.read
  rw [hjoined, hapart] at hread
  cases hread

end CommandLine
end BehaviorScript
