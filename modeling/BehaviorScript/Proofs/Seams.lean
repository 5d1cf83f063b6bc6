import BehaviorScript.Proofs.Layout

/-!
# Scanning line by line

A line end stops whatever the scanner is in: a word, a comment, a quoted value.  So a text and
what follows it on later lines are scanned apart.  All that is carried over a line end is
the place, the line and whether a line end would be a token.
-/

namespace BehaviorScript

/-!
## Lexemes before a line end
-/

namespace Lexeme

def followedBy (more : List Char) (l : Lexeme) : Lexeme :=
  { l with rest := l.rest ++ more }

variable (cs b : List Char)

theorem head?_append_newline :
    (cs ++ '\n' :: b).head? = some '>' <-> cs.head? = some '>' := by
  cases cs with
  | nil => simp
  | cons c cs => simp

theorem splitWord_append_newline :
    splitWord (cs ++ '\n' :: b) = ((splitWord cs).1, (splitWord cs).2 ++ '\n' :: b) := by
  induction cs with
  | nil => rfl
  | cons c cs ih =>
      have hhead : ((cs ++ '\n' :: b).head? != some '>') = (cs.head? != some '>') := by
        rw [Bool.eq_iff_iff, bne_iff_ne, bne_iff_ne]
        exact not_congr (head?_append_newline cs b)
      rw [List.cons_append, splitWord, splitWord, hhead]
      split
      · rw [ih]
      · rfl

theorem splitQuoted_append_newline {quote : Char} (hquote : quote = '\'' ∨ quote = '"') :
    splitQuoted quote (cs ++ '\n' :: b) =
      (splitQuoted quote cs).map fun split => (split.1, split.2 ++ '\n' :: b) := by
  induction cs with
  | nil => simp [splitQuoted, newline_ne_quote hquote]
  | cons c cs ih =>
      rw [List.cons_append, splitQuoted, splitQuoted]
      split
      · rfl
      · split
        · rfl
        · rw [ih, Option.map_map, Option.map_map]
          rfl

theorem next?_append_newline (c : Char) :
    next? (c :: cs ++ '\n' :: b) = (next? (c :: cs)).map (followedBy ('\n' :: b)) := by
  rw [List.cons_append, next?, next?, splitWord_append_newline]
  by_cases hcolon : c = ':'
  · rw [if_pos hcolon, if_pos hcolon]
    rfl
  rw [if_neg hcolon, if_neg hcolon]
  simp only [head?_append_newline]
  by_cases harrow : c = '-' ∧ cs.head? = some '>'
  · rw [if_pos harrow, if_pos harrow]
    cases cs with
    | nil => simp at harrow
    | cons d cs => rfl
  rw [if_neg harrow, if_neg harrow]
  by_cases hat : c = '@'
  · rw [if_pos hat, if_pos hat, Option.map_map]
    rfl
  rw [if_neg hat, if_neg hat]
  by_cases hquote : c = '\'' ∨ c = '"'
  · rw [if_pos hquote, if_pos hquote, splitQuoted_append_newline cs b hquote, Option.map_map,
      Option.map_map]
    rfl
  rw [if_neg hquote, if_neg hquote]
  split
  · rfl
  · rfl

end Lexeme

/-!
## Scans one after another
-/

namespace Scan

/--
One scan and then another, which begins on the line where the first one ended.  A scan that is
stuck stays so.
-/
def andThen (s : Scan) (next : Nat -> Scan) : Scan :=
  match s.finish with
  | .stuck _ _ => s
  | .complete line => (next line).prepend s.tokens

theorem cons_andThen (t : Token) (s : Scan) (next : Nat -> Scan) :
    (s.cons t).andThen next = (s.andThen next).cons t := by
  rcases s with ⟨ts, finish⟩
  cases finish with
  | complete line => rfl
  | stuck offset line => rfl

theorem prepend_prepend (ts us : List Token) (s : Scan) :
    (s.prepend us).prepend ts = s.prepend (ts ++ us) := by
  simp [prepend]

end Scan

def Scan.freshAfter (fresh : Bool) (s : Scan) : Bool :=
  if s.tokens = [] then fresh else isFresh s.tokens

theorem Scan.freshAfter_cons (fresh : Bool) (t : Token) (s : Scan) :
    (s.cons t).freshAfter fresh = s.freshAfter (t.kind == .newline) := by
  rcases s with ⟨ts, finish⟩
  cases ts with
  | nil => simp [freshAfter, cons, isFresh]
  | cons u us => simp [freshAfter, cons, isFresh, List.getLast?_cons_cons]

theorem Scan.freshAfter_true (s : Scan) : s.freshAfter true = isFresh s.tokens := by
  unfold freshAfter
  split
  · next hempty => rw [hempty, isFresh_nil]
  · rfl

theorem takeWhile_append_newline (cs b : List Char) :
    (cs ++ '\n' :: b).takeWhile (· ≠ '\n') = cs.takeWhile (· ≠ '\n') := by
  induction cs with
  | nil => simp
  | cons c cs ih =>
      by_cases hc : c = '\n'
      · simp [hc]
      · simpa [hc] using ih

theorem dropWhile_append_newline (cs b : List Char) :
    (cs ++ '\n' :: b).dropWhile (· ≠ '\n') = cs.dropWhile (· ≠ '\n') ++ '\n' :: b := by
  induction cs with
  | nil => simp
  | cons c cs ih =>
      by_cases hc : c = '\n'
      · simp [hc]
      · simpa [hc] using ih

theorem scanFrom_append_newline (offset line : Nat) (fresh : Bool) (a b : List Char) :
    scanFrom offset line fresh (a ++ '\n' :: b) =
      (scanFrom offset line fresh a).andThen fun last =>
        scanFrom (offset + Text.byteSize a) last
          ((scanFrom offset line fresh a).freshAfter fresh) ('\n' :: b) := by
  fun_induction scanFrom offset line fresh a with
  | case1 offset line fresh => rfl
  | case2 offset line cs scan ih =>
      have hsize : offset + Text.byteSize ('\n' :: cs) = offset + 1 + Text.byteSize cs := by
        rw [Text.byteSize_cons, utf8Size_newline, Nat.add_assoc]
      rw [List.cons_append, scanFrom, if_pos rfl, if_pos rfl, ih, hsize]
  | case3 offset line fresh cs scan hnot ih =>
      have hsize : offset + Text.byteSize ('\n' :: cs) = offset + 1 + Text.byteSize cs := by
        rw [Text.byteSize_cons, utf8Size_newline, Nat.add_assoc]
      rw [List.cons_append, scanFrom, if_pos rfl, if_neg hnot, ih, Scan.cons_andThen, hsize,
        Scan.freshAfter_cons]
      rfl
  | case4 offset line fresh c cs hbreak hsep ih =>
      have hsize : offset + Text.byteSize (c :: cs) = offset + 1 + Text.byteSize cs := by
        rw [Text.byteSize_cons, (utf8Size_of_isSeparator hsep).1, Nat.add_assoc]
      rw [List.cons_append, scanFrom, if_neg hbreak, if_pos hsep, ih, hsize]
  | case5 offset line fresh cs comment hbreak hsep ih =>
      have hcs : Text.byteSize cs =
          Text.byteSize comment + Text.byteSize (cs.dropWhile (· ≠ '\n')) := by
        rw [← Text.byteSize_append, List.takeWhile_append_dropWhile]
      have hsize : offset + Text.byteSize ('#' :: cs) =
          offset + 1 + Text.byteSize comment + Text.byteSize (cs.dropWhile (· ≠ '\n')) := by
        rw [Text.byteSize_cons, utf8Size_hash, hcs]
        omega
      rw [List.cons_append, scanFrom, if_neg hbreak, if_neg hsep, if_pos rfl, hsize,
        takeWhile_append_newline, dropWhile_append_newline, ih]
  | case6 offset line fresh c cs hbreak hsep hcomment hnone =>
      have hnext : Lexeme.next? (c :: (cs ++ '\n' :: b)) = none := by
        rw [← List.cons_append, Lexeme.next?_append_newline, hnone, Option.map_none]
      rw [List.cons_append,
        scanFrom_of_next?_eq_none hbreak (by simpa using hsep) hcomment hnext]
      rfl
  | case7 offset line fresh c cs _ _ _ l hl ih =>
      have hnext : Lexeme.next? (c :: cs ++ '\n' :: b) = some (l.followedBy ('\n' :: b)) := by
        rw [Lexeme.next?_append_newline, hl, Option.map_some]
      rcases Lexeme.takes_of_next? hl with ⟨taken, htaken, hcs⟩
      have hsize : offset + Text.byteSize (c :: cs) =
          offset + l.width + Text.byteSize l.rest := by
        rw [hcs, Text.byteSize_append, htaken.byteSize_eq, Nat.add_assoc]
      have hkind : ((l.toToken offset line).kind == .newline) = false := by
        exact beq_eq_false_iff_ne.mpr htaken.kind_ne_newline
      rw [scanFrom_of_next? hnext, Scan.cons_andThen, Scan.freshAfter_cons, hkind, hsize, ← ih]
      rfl

/-!
## Scans further down
-/

def Token.shift (bytes lines : Nat) (t : Token) : Token :=
  { t with start := t.start + bytes, line := t.line + lines }

def ScanEnd.shift (bytes lines : Nat) : ScanEnd -> ScanEnd
  | complete line => complete (line + lines)
  | stuck offset line => stuck (offset + bytes) (line + lines)

def Scan.shift (bytes lines : Nat) (s : Scan) : Scan :=
  { tokens := s.tokens.map (Token.shift bytes lines), finish := s.finish.shift bytes lines }

theorem Scan.shift_cons (bytes lines : Nat) (t : Token) (s : Scan) :
    (s.cons t).shift bytes lines = (s.shift bytes lines).cons (t.shift bytes lines) :=
  rfl

theorem Lexeme.toToken_shift (bytes lines offset line : Nat) (l : Lexeme) :
    l.toToken (offset + bytes) (line + lines) = (l.toToken offset line).shift bytes lines := by
  rw [toToken, Nat.add_right_comm]
  rfl

theorem scanFrom_shift (bytes lines offset line : Nat) (fresh : Bool) (cs : List Char) :
    scanFrom (offset + bytes) (line + lines) fresh cs =
      (scanFrom offset line fresh cs).shift bytes lines := by
  fun_induction scanFrom offset line fresh cs with
  | case1 offset line fresh =>
      rw [scanFrom]
      rfl
  | case2 offset line cs scan ih =>
      rw [scanFrom, if_pos rfl, if_pos rfl, Nat.add_right_comm, Nat.add_right_comm line, ih]
  | case3 offset line fresh cs scan hnot ih =>
      rw [scanFrom, if_pos rfl, if_neg hnot, Nat.add_right_comm, Nat.add_right_comm line, ih,
        Scan.shift_cons]
      rfl
  | case4 offset line fresh c cs hbreak hsep ih =>
      rw [scanFrom, if_neg hbreak, if_pos hsep, Nat.add_right_comm, ih]
  | case5 offset line fresh cs comment hbreak hsep ih =>
      have hplace : offset + bytes + 1 + Text.byteSize comment =
          offset + 1 + Text.byteSize comment + bytes := by
        omega
      rw [scanFrom, if_neg hbreak, if_neg hsep, if_pos rfl, ← ih, ← hplace]
  | case6 offset line fresh c cs hbreak hsep hcomment hnone =>
      rw [scanFrom_of_next?_eq_none hbreak (by simpa using hsep) hcomment hnone]
      rfl
  | case7 offset line fresh c cs _ _ _ l hl ih =>
      rw [scanFrom_of_next? hl, Nat.add_right_comm, ih, Scan.shift_cons, Lexeme.toToken_shift]

theorem line_of_scan {source : String} {line : Nat} (h : (scan source).finish = .complete line) :
    line = Text.lineAfter source.toList := by
  rcases scan_passes source with ⟨passed, rest, hsource, _, hend⟩
  rw [h] at hend
  cases hend with
  | complete => rw [hsource, List.append_nil]

theorem scanFrom_newline_cons (offset line : Nat) (fresh : Bool) (b : String) :
    scanFrom offset line fresh ('\n' :: b.toList) =
      ((scan b).shift (offset + 1) line).prepend
        (if fresh then [] else [⟨.newline, offset, 1, line, "\n"⟩]) := by
  have hrest : scanFrom (offset + 1) (line + 1) true b.toList =
      (scan b).shift (offset + 1) line := by
    rw [scan, ← scanFrom_shift, Nat.zero_add, Nat.add_comm line]
  rw [scanFrom, if_pos rfl, hrest]
  cases fresh with
  | true => rfl
  | false => rfl

/--
Scanning is local to lines: whatever follows a line end is scanned as if it stood alone, only
further down, and a scan that is stuck on a line is stuck there whatever follows.
-/
theorem scan_append_newline (a b : String) :
    scan (a ++ "\n" ++ b) =
      if (scan a).isComplete then
        ((scan b).shift (Text.byteSize a.toList + 1) (a.toList.count '\n' + 1)).prepend
          ((scan a).tokens ++ if isFresh (scan a).tokens then [] else [Token.lineEnd a.toList])
      else scan a := by
  have htext : (a ++ "\n" ++ b).toList = a.toList ++ '\n' :: b.toList := by simp
  have hscan : scan (a ++ "\n" ++ b) = (scan a).andThen fun last =>
      scanFrom (Text.byteSize a.toList) last ((scan a).freshAfter true) ('\n' :: b.toList) := by
    rw [scan, htext, scanFrom_append_newline, Nat.zero_add]
    rfl
  rw [hscan]
  cases hfinish : (scan a).finish with
  | stuck offset line =>
      have hstuck : (scan a).isComplete = false := by
        simp [Scan.isComplete, Scan.stuck?, hfinish]
      rw [hstuck, Scan.andThen, hfinish]
      rfl
  | complete line =>
      have hcomplete : (scan a).isComplete = true := by
        simp [Scan.isComplete, Scan.stuck?, hfinish]
      have hline := line_of_scan hfinish
      have hcount : line = a.toList.count '\n' + 1 := by rw [hline, Text.lineAfter, Nat.add_comm]
      rw [hcomplete, Scan.andThen, hfinish]
      simp only [if_true]
      rw [scanFrom_newline_cons, Scan.freshAfter_true, Scan.prepend_prepend, ← hcount,
        Token.lineEnd, ← hline]

end BehaviorScript
