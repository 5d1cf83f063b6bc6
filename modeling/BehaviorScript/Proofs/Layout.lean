import BehaviorScript.Proofs.Lexemes

/-!
# The layout of a source

The scanner works with places only: bytes from the start, and a line.  Here the same walk is
told with the characters that are behind it.  A scan passes over a source in steps, and
each step appends some characters and at most one token, whose place and line are those of the
end of what was passed before.  What holds of all tokens of a source is proved from these
steps, without going back to the scanner.
-/

namespace BehaviorScript

/-!
## Sizes and lines
-/

theorem Text.byteSize_toList (s : String) : byteSize s.toList = s.utf8ByteSize := by
  rw [← String.size_toByteArray, ← s.utf8Encode_toList]
  induction s.toList with
  | nil => rfl
  | cons c cs ih =>
      rw [List.utf8Encode_cons, ByteArray.size_append, List.utf8Encode_singleton,
        List.size_toByteArray, String.length_utf8EncodeChar, byteSize_cons, ih]

def Text.lineAfter (cs : List Char) : Nat :=
  1 + cs.count '\n'

theorem Text.lineAfter_append {cs ds : List Char} (h : '\n' ∉ ds) :
    lineAfter (cs ++ ds) = lineAfter cs := by
  simp [lineAfter, List.count_eq_zero_of_not_mem h]

theorem Text.lineAfter_newline (cs : List Char) : lineAfter (cs ++ ['\n']) = lineAfter cs + 1 := by
  simp [lineAfter, Nat.add_assoc]

@[simp] theorem isFresh_nil : isFresh [] = true :=
  rfl

@[simp] theorem isFresh_append_singleton (ts : List Token) (t : Token) :
    isFresh (ts ++ [t]) = (t.kind == .newline) := by
  simp [isFresh]

/-!
## Steps of a scan
-/

def Token.lineEnd (before : List Char) : Token :=
  ⟨.newline, Text.byteSize before, 1, Text.lineAfter before, "\n"⟩

def Lexeme.tokenAfter (l : Lexeme) (before : List Char) : Token :=
  l.toToken (Text.byteSize before) (Text.lineAfter before)

namespace Lexeme

variable (l : Lexeme) (before : List Char)

@[simp] theorem kind_tokenAfter : (l.tokenAfter before).kind = l.kind :=
  rfl

@[simp] theorem start_tokenAfter :
    (l.tokenAfter before).start = Text.byteSize before + l.margin :=
  rfl

@[simp] theorem size_tokenAfter : (l.tokenAfter before).size = Text.byteSize l.text :=
  rfl

@[simp] theorem toList_text_tokenAfter : (l.tokenAfter before).text.toList = l.text :=
  String.toList_ofList

end Lexeme

inductive Gap (fresh : Bool) : List Char -> Prop where
  | separator {c : Char} : isSeparator c = true -> Gap fresh [c]
  | comment {body : List Char} : '\n' ∉ body -> Gap fresh ('#' :: body)
  | blankLine : fresh = true -> Gap fresh ['\n']

inductive Passed : List Char -> List Token -> Prop where
  | nil : Passed [] []
  | gap {before new : List Char} {ts : List Token} :
      Passed before ts -> Gap (isFresh ts) new -> Passed (before ++ new) ts
  | lineEnd {before : List Char} {ts : List Token} :
      Passed before ts -> isFresh ts = false ->
      Passed (before ++ ['\n']) (ts ++ [Token.lineEnd before])
  | lexeme {before taken : List Char} {ts : List Token} {l : Lexeme} :
      Passed before ts -> l.Takes taken -> Passed (before ++ taken) (ts ++ [l.tokenAfter before])

/--
How a scan ends that has passed over some characters and left the rest: at the end of the source,
or before a character that is no part of any token.
-/
inductive ScanEnd.Reached (passed : List Char) : List Char -> ScanEnd -> Prop where
  | complete : Reached passed [] (.complete (Text.lineAfter passed))
  | stuck {c : Char} {after : List Char} :
      c ≠ '\n' -> isSeparator c = false -> c ≠ '#' -> Lexeme.next? (c :: after) = none ->
      Reached passed (c :: after) (.stuck (Text.byteSize passed) (Text.lineAfter passed))

/--
The scan goes on over `cs` where another has come to: it passes over some of the characters and
ends before the rest.
-/
def Scan.Continues (before : List Char) (ts : List Token) (cs : List Char) (s : Scan) : Prop :=
  exists passed rest, cs = passed ++ rest ∧ Passed (before ++ passed) (ts ++ s.tokens) ∧
    s.finish.Reached (before ++ passed) rest

theorem Scan.Continues.after {before cs : List Char} {ts : List Token} {s : Scan}
    (new : List Char) (us : List Token) (h : s.Continues (before ++ new) (ts ++ us) cs) :
    (s.prepend us).Continues before ts (new ++ cs) := by
  rcases h with ⟨passed, rest, rfl, hpassed, hend⟩
  refine ⟨new ++ passed, rest, by simp, ?_, ?_⟩
  · simpa [prepend] using hpassed
  · simpa [prepend] using hend

theorem Scan.Continues.skip {before cs : List Char} {ts : List Token} {s : Scan}
    (new : List Char) (h : s.Continues (before ++ new) ts cs) :
    s.Continues before ts (new ++ cs) := by
  apply Scan.Continues.after new []
  simpa using h

@[simp] theorem utf8Size_newline : '\n'.utf8Size = 1 :=
  rfl

@[simp] theorem utf8Size_hash : '#'.utf8Size = 1 :=
  rfl

theorem utf8Size_of_isSeparator {c : Char} (h : isSeparator c = true) :
    c.utf8Size = 1 ∧ c ≠ '\n' := by
  simp only [isSeparator, Bool.or_eq_true, beq_iff_eq] at h
  rcases h with (rfl | rfl) | rfl
  all_goals decide

theorem scanFrom_continues (offset line : Nat) (fresh : Bool) (cs : List Char) :
    forall before ts, Passed before ts -> Text.byteSize before = offset ->
      Text.lineAfter before = line -> isFresh ts = fresh ->
      (scanFrom offset line fresh cs).Continues before ts cs := by
  fun_induction scanFrom offset line fresh cs with
  | case1 offset line fresh =>
      intro before ts h _ hline _
      subst hline
      refine ⟨[], [], rfl, ?_, ?_⟩
      · simpa using h
      · simpa using ScanEnd.Reached.complete
  | case2 offset line cs scan ih =>
      intro before ts h hoffset hline hfresh
      apply Scan.Continues.skip ['\n']
      apply ih _ _ (h.gap (Gap.blankLine hfresh))
      · simp [hoffset]
      · rw [Text.lineAfter_newline, hline]
      · exact hfresh
  | case3 offset line fresh cs scan hnot ih =>
      intro before ts h hoffset hline hfresh
      have hopen : isFresh ts = false := by simpa [hfresh] using hnot
      have htoken : (⟨.newline, offset, 1, line, "\n"⟩ : Token) = Token.lineEnd before := by
        rw [Token.lineEnd, hoffset, hline]
      rw [htoken]
      apply Scan.Continues.after ['\n'] [Token.lineEnd before]
      apply ih _ _ (h.lineEnd hopen)
      · simp [hoffset]
      · rw [Text.lineAfter_newline, hline]
      · simp [Token.lineEnd]
  | case4 offset line fresh c cs _ hsep ih =>
      intro before ts h hoffset hline hfresh
      rcases utf8Size_of_isSeparator hsep with ⟨hsize, hbreak⟩
      apply Scan.Continues.skip [c]
      apply ih _ _ (h.gap (Gap.separator hsep))
      · simp [hoffset, hsize]
      · rw [Text.lineAfter_append (by simpa using hbreak.symm), hline]
      · exact hfresh
  | case5 offset line fresh cs comment _ _ ih =>
      intro before ts h hoffset hline hfresh
      have hcomment : '\n' ∉ comment := by
        intro hmem
        simpa using List.all_eq_true.mp List.all_takeWhile _ hmem
      have hcs : '#' :: cs = ('#' :: comment) ++ cs.dropWhile (· ≠ '\n') := by
        rw [List.cons_append, List.takeWhile_append_dropWhile]
      rw [hcs]
      apply Scan.Continues.skip ('#' :: comment)
      apply ih _ _ (h.gap (Gap.comment hcomment))
      · simp [hoffset, Nat.add_assoc]
      · rw [Text.lineAfter_append (by simpa using hcomment), hline]
      · exact hfresh
  | case6 offset line fresh c cs hbreak hsep hcomment hnone =>
      intro before ts h hoffset hline _
      subst hoffset hline
      refine ⟨[], c :: cs, rfl, ?_, ?_⟩
      · simpa using h
      · simpa using ScanEnd.Reached.stuck hbreak (by simpa using hsep) hcomment hnone
  | case7 offset line fresh c cs _ _ _ l hl ih =>
      intro before ts h hoffset hline _
      rcases Lexeme.takes_of_next? hl with ⟨taken, htaken, hcs⟩
      have htoken : l.toToken offset line = l.tokenAfter before := by
        rw [Lexeme.tokenAfter, hoffset, hline]
      rw [hcs, htoken]
      apply Scan.Continues.after taken [l.tokenAfter before]
      apply ih _ _ (h.lexeme htaken)
      · rw [Text.byteSize_append, htaken.byteSize_eq, hoffset]
      · rw [Text.lineAfter_append htaken.newline_not_mem, hline]
      · simp [htaken.kind_ne_newline]

theorem scan_passes (source : String) :
    exists passed rest, source.toList = passed ++ rest ∧ Passed passed (scan source).tokens ∧
      (scan source).finish.Reached passed rest := by
  have h := scanFrom_continues 0 1 true source.toList [] [] Passed.nil rfl rfl rfl
  simpa [Scan.Continues, scan] using h

end BehaviorScript
