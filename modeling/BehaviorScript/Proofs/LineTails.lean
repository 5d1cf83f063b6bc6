import BehaviorScript.Proofs.Basic
import BehaviorScript.Proofs.Placement
import Mathlib.Data.List.TakeWhile

/-!
# Ends of lines

Blanks and a comment at the end of a line leave no token.  Whatever the line holds before them is
scanned as without them, because neither a blank nor a hash sign can continue it; only the places
of all that follows move on.  A compilation does not look at places, so it comes to the same result.
-/

namespace BehaviorScript

/-!
## Lexemes before a stop
-/

/--
Nothing follows, or a character follows that continues no word and completes no arrow.
-/
def IsStop (cs : List Char) : Prop :=
  forall c, cs.head? = some c -> Lexeme.isWordChar c = false ∧ c ≠ '-' ∧ c ≠ '>'

namespace Lexeme

variable {more : List Char}

theorem head?_append_stop (h : IsStop more) (cs : List Char) :
    (cs ++ more).head? = some '>' <-> cs.head? = some '>' := by
  cases cs with
  | nil =>
      constructor
      · intro hhead
        exact absurd rfl (h '>' hhead).2.2
      · intro hhead
        cases hhead
  | cons c cs => exact Iff.rfl

theorem splitWord_of_isStop (h : IsStop more) : splitWord more = ([], more) := by
  cases more with
  | nil => rfl
  | cons c cs =>
      rcases h c rfl with ⟨hword, hhyphen, _⟩
      simp [splitWord, hword, hhyphen]

theorem splitWord_append_stop (h : IsStop more) (cs : List Char) :
    splitWord (cs ++ more) = ((splitWord cs).1, (splitWord cs).2 ++ more) := by
  induction cs with
  | nil => exact splitWord_of_isStop h
  | cons c cs ih =>
      have hhead : ((cs ++ more).head? != some '>') = (cs.head? != some '>') := by
        rw [Bool.eq_iff_iff, bne_iff_ne, bne_iff_ne]
        exact not_congr (head?_append_stop h cs)
      rw [List.cons_append, splitWord, splitWord, hhead]
      split
      · rw [ih]
      · rfl

theorem splitQuoted_append_of_eq_some {quote : Char} {cs body rest : List Char}
    (h : splitQuoted quote cs = some (body, rest)) (more : List Char) :
    splitQuoted quote (cs ++ more) = some (body, rest ++ more) := by
  induction cs generalizing body with
  | nil => cases h
  | cons c cs ih =>
      rw [splitQuoted] at h
      rw [List.cons_append, splitQuoted]
      split at h
      · next hquote =>
          cases h
          rw [if_pos hquote]
      · next hquote =>
          split at h
          · cases h
          · next hline =>
              rcases Option.map_eq_some_iff.mp h with ⟨split, hsplit, hbody⟩
              cases hbody
              rw [if_neg hquote, if_neg hline, ih hsplit]
              rfl

theorem next?_append_stop (hmore : IsStop more) {cs : List Char} {l : Lexeme}
    (h : next? cs = some l) :
    next? (cs ++ more) = some (l.followedBy more) := by
  cases cs with
  | nil => cases h
  | cons c cs =>
      rw [List.cons_append]
      rw [next?] at h ⊢
      -- what is looked at beyond the first character is the same with more behind it
      rw [splitWord_append_stop hmore]
      simp only [head?_append_stop hmore]
      by_cases hcolon : c = ':'
      · rw [if_pos hcolon] at h ⊢
        cases h
        rfl
      rw [if_neg hcolon] at h ⊢
      by_cases harrow : c = '-' ∧ cs.head? = some '>'
      · rw [if_pos harrow] at h ⊢
        cases h
        cases cs with
        | nil => cases harrow.2
        | cons d cs => rfl
      rw [if_neg harrow] at h ⊢
      by_cases hat : c = '@'
      · rw [if_pos hat] at h ⊢
        rcases Option.map_eq_some_iff.mp h with ⟨k, hk, rfl⟩
        rw [hk]
        rfl
      rw [if_neg hat] at h ⊢
      by_cases hquote : c = '\'' ∨ c = '"'
      · rw [if_pos hquote] at h ⊢
        rcases Option.map_eq_some_iff.mp h with ⟨split, hsplit, rfl⟩
        rw [splitQuoted_append_of_eq_some hsplit]
        rfl
      rw [if_neg hquote] at h ⊢
      split at h
      · next hword =>
          cases h
          rw [if_pos hword]
          rfl
      · cases h

end Lexeme

/-!
## Blanks and a comment
-/

/--
The characters that may stand at the end of a line without leaving a token: blanks, and a comment
behind them.
-/
inductive IsLineTail : List Char -> Prop where
  | nil : IsLineTail []
  | separator {c : Char} {cs : List Char} :
      isSeparator c = true -> IsLineTail cs -> IsLineTail (c :: cs)
  | comment {body : List Char} : '\n' ∉ body -> IsLineTail ('#' :: body)

theorem dropWhile_of_newline_not_mem {cs : List Char} (h : '\n' ∉ cs) :
    cs.dropWhile (· ≠ '\n') = [] := by
  apply List.dropWhile_eq_nil_iff.mpr
  intro c hc
  exact decide_eq_true fun heq => h (heq ▸ hc)

theorem takeWhile_append_of_newline_mem {cs : List Char} (h : '\n' ∈ cs) (more : List Char) :
    (cs ++ more).takeWhile (· ≠ '\n') = cs.takeWhile (· ≠ '\n') ∧
      (cs ++ more).dropWhile (· ≠ '\n') = cs.dropWhile (· ≠ '\n') ++ more := by
  rcases List.append_of_mem h with ⟨before, after, rfl⟩
  rw [List.append_assoc, List.cons_append]
  constructor
  · rw [takeWhile_append_newline, takeWhile_append_newline]
  · rw [dropWhile_append_newline, dropWhile_append_newline, List.append_assoc, List.cons_append]

namespace IsLineTail

variable {tail : List Char}

theorem newline_not_mem (h : IsLineTail tail) : '\n' ∉ tail := by
  induction h with
  | nil => exact List.not_mem_nil
  | separator hsep _ ih =>
      exact List.not_mem_cons_of_ne_of_not_mem (utf8Size_of_isSeparator hsep).2.symm ih
  | comment hbody => exact List.not_mem_cons_of_ne_of_not_mem (by decide) hbody

theorem isStop (h : IsLineTail tail) : IsStop tail := by
  intro c hc
  cases h with
  | nil => cases hc
  | separator hsep _ =>
      cases hc
      simp only [isSeparator, Bool.or_eq_true, beq_iff_eq] at hsep
      rcases hsep with (rfl | rfl) | rfl
      all_goals decide
  | comment _ =>
      cases hc
      decide

theorem of_separators {w : List Char} (h : w.all isSeparator = true) (htail : IsLineTail tail) :
    IsLineTail (w ++ tail) := by
  induction w with
  | nil => exact htail
  | cons c w ih =>
      rcases Bool.and_eq_true_iff.mp h with ⟨hsep, hrest⟩
      exact separator hsep (ih hrest)

theorem scanFrom_eq (h : IsLineTail tail) (offset line : Nat) (fresh : Bool) :
    scanFrom offset line fresh tail = ⟨[], .complete line⟩ := by
  induction h generalizing offset with
  | nil => rw [scanFrom]
  | separator hsep _ ih =>
      rw [scanFrom, if_neg (utf8Size_of_isSeparator hsep).2, if_pos hsep, ih]
  | comment hbody =>
      rw [scanFrom, if_neg (by decide), if_neg (by decide), if_pos rfl,
        dropWhile_of_newline_not_mem hbody, scanFrom]

end IsLineTail

/-!
## Scans of longer lines
-/

theorem scanFrom_append_lineTail {tail : List Char} (htail : IsLineTail tail) (offset line : Nat)
    (fresh : Bool) (a : List Char) :
    (scanFrom offset line fresh a).isComplete = true ->
      scanFrom offset line fresh (a ++ tail) = scanFrom offset line fresh a := by
  fun_induction scanFrom offset line fresh a with
  | case1 offset line fresh =>
      intro _
      exact htail.scanFrom_eq offset line fresh
  | case2 offset line cs scan ih =>
      intro hcomplete
      rw [List.cons_append, scanFrom, if_pos rfl, if_pos rfl, ih hcomplete]
  | case3 offset line fresh cs scan hnot ih =>
      intro hcomplete
      rw [List.cons_append, scanFrom, if_pos rfl, if_neg hnot, ih hcomplete]
  | case4 offset line fresh c cs hbreak hsep ih =>
      intro hcomplete
      rw [List.cons_append, scanFrom, if_neg hbreak, if_pos hsep, ih hcomplete]
  | case5 offset line fresh cs comment hbreak hsep ih =>
      intro hcomplete
      rw [List.cons_append, scanFrom, if_neg hbreak, if_neg hsep, if_pos rfl]
      by_cases hline : '\n' ∈ cs
      · rcases takeWhile_append_of_newline_mem hline tail with ⟨htake, hdrop⟩
        rw [htake, hdrop, ih hcomplete]
      · -- the comment is the last thing of the text, and the tail makes it longer
        have hlonger : '\n' ∉ cs ++ tail := by
          simp only [List.mem_append, hline, htail.newline_not_mem, or_self, not_false_eq_true]
        rw [dropWhile_of_newline_not_mem hlonger, dropWhile_of_newline_not_mem hline, scanFrom,
          scanFrom]
  | case6 offset line fresh c cs hbreak hsep hcomment hnone =>
      -- a scan that got stuck did not reach the end
      intro hcomplete
      cases hcomplete
  | case7 offset line fresh c cs _ _ _ l hl ih =>
      intro hcomplete
      rw [scanFrom_of_next? (Lexeme.next?_append_stop htail.isStop hl)]
      exact congrArg (Scan.cons _) (ih hcomplete)

theorem ScanEnd.unplaced_shift (bytes : Nat) (e : ScanEnd) :
    (e.shift bytes 0).unplaced = e.unplaced := by
  cases e with
  | complete line => rfl
  | stuck offset line => rfl

theorem Scan.unplaced_shift (bytes : Nat) (s : Scan) : (s.shift bytes 0).unplaced = s.unplaced := by
  have htokens : BehaviorScript.unplaced (s.tokens.map (Token.shift bytes 0)) =
      BehaviorScript.unplaced s.tokens := by
    rw [BehaviorScript.unplaced, BehaviorScript.unplaced, List.map_map]
    rfl
  rw [Scan.unplaced, Scan.shift, htokens, ScanEnd.unplaced_shift]
  rfl

theorem Scan.unplaced_prepend (ts : List Token) {s s' : Scan} (h : s.unplaced = s'.unplaced) :
    (s.prepend ts).unplaced = (s'.prepend ts).unplaced := by
  have htokens : BehaviorScript.unplaced s.tokens = BehaviorScript.unplaced s'.tokens :=
    congrArg Scan.tokens h
  have hfinish : s.finish.unplaced = s'.finish.unplaced := congrArg Scan.finish h
  simp only [Scan.unplaced, Scan.prepend, BehaviorScript.unplaced, List.map_append] at htokens ⊢
  rw [htokens, hfinish]

theorem scan_unplaced_of_lineTail {a tail b : List Char} (htail : IsLineTail tail)
    (ha : (scanFrom 0 1 true a).isComplete = true)
    (hb : b = [] ∨ exists rest, b = '\n' :: rest) :
    (scanFrom 0 1 true (a ++ tail ++ b)).unplaced = (scanFrom 0 1 true (a ++ b)).unplaced := by
  have hsame := scanFrom_append_lineTail htail 0 1 true a ha
  rcases hb with rfl | ⟨rest, rfl⟩
  · rw [List.append_nil, List.append_nil, hsame]
  · rw [scanFrom_append_newline, scanFrom_append_newline, hsame]
    cases hfinish : (scanFrom 0 1 true a).finish with
    | stuck offset line =>
        rw [Scan.isComplete, Scan.stuck?, hfinish] at ha
        cases ha
    | complete line =>
        rw [Scan.andThen, Scan.andThen, hfinish]
        apply Scan.unplaced_prepend
        rw [Text.byteSize_append, ← Nat.add_assoc]
        have hshift := scanFrom_shift (Text.byteSize tail) 0 (0 + Text.byteSize a) line
          ((scanFrom 0 1 true a).freshAfter true) ('\n' :: rest)
        rw [Nat.add_zero] at hshift
        rw [hshift, Scan.unplaced_shift]

/--
Blanks at the end of a line, with or without a comment behind them, change nothing about a
compilation: it gives the same machine, or the same error on the same line.  The line may hold
anything before them that can be scanned, and the text may go on in any way on later lines.
-/
theorem line_tails_leave_no_trace {σ : Type} (options : Options) (registry : Registry σ)
    (a b : String) (ha : (scan a).isComplete = true) (hb : b = "" ∨ exists rest, b = "\n" ++ rest)
    (w : String) (hw : w.toList.all isSeparator = true) (c : String) (hc : '\n' ∉ c.toList) :
    (compile options registry (a ++ w ++ b)).result =
        (compile options registry (a ++ b)).result ∧
      (compile options registry (a ++ w ++ "#" ++ c ++ b)).result =
        (compile options registry (a ++ b)).result := by
  have hrest : b.toList = [] ∨ exists rest, b.toList = '\n' :: rest := by
    rcases hb with rfl | ⟨rest, rfl⟩
    · exact Or.inl rfl
    · exact Or.inr ⟨rest.toList, by simp⟩
  constructor
  · apply result_eq_of_unplaced_eq
    have hblanks : IsLineTail w.toList := by
      simpa using IsLineTail.of_separators hw IsLineTail.nil
    simpa [scan] using scan_unplaced_of_lineTail hblanks ha hrest
  · apply result_eq_of_unplaced_eq
    have hcomment : IsLineTail (w.toList ++ '#' :: c.toList) :=
      IsLineTail.of_separators hw (IsLineTail.comment hc)
    simpa [scan] using scan_unplaced_of_lineTail hcomment ha hrest

theorem line_tails_leave_no_trace_after_hyphen :
    let a := "@machine m->a-"
    let b := "\n@state a-\n@run\nlog x"
    exists (r : Registry Unit) (build : Build Unit),
      Registry.builtins Unit {} = .ok r ∧ (scan a).isComplete = true ∧
        (compile {} r (a ++ b)).result = .ok build ∧
        (compile {} r (a ++ " \t\r" ++ b)).result = .ok build ∧
        (compile {} r (a ++ " \t\r" ++ "#" ++ "> it's '@é" ++ b)).result = .ok build := by
  intro a b
  have hcomplete : (scan a).isComplete = true := by decide +kernel
  have heval : ((Registry.builtins Unit {}).toOption.map fun r =>
      (compile {} r (a ++ b)).result.toOption.map fun build => build.tokens) =
      some (some 12) := by
    decide +kernel
  rcases exists_of_toOption_map_eq_some heval with ⟨r, hr, hcompile⟩
  rcases exists_of_toOption_map_eq_some hcompile with ⟨build, hbuild, _⟩
  rcases line_tails_leave_no_trace {} r a b hcomplete (Or.inr ⟨"@state a-\n@run\nlog x", rfl⟩)
    " \t\r" (by decide) "> it's '@é" (by decide) with ⟨hblanks, hcomment⟩
  exact ⟨r, build, hr, hcomplete, hbuild, hblanks.trans hbuild, hcomment.trans hbuild⟩

end BehaviorScript
