import BehaviorScript.Proofs.Declaration
import BehaviorScript.Proofs.Registration
import BehaviorScript.Proofs.Seams

/-!
# Scanning does not look at the case of letters

All letters continue words and take up one byte, and every character that the scan asks for by
itself is none.  Keywords are found by their small letters.  So making the letters of a source
small makes the letters of its tokens small, and nothing else about the scan changes.
-/

namespace BehaviorScript

/-!
## Characters
-/

namespace Text

theorem toLower_cases (c : Char) :
    c.toLower = c ∨ (c.isAlpha = true ∧ c.toLower.isAlpha = true) := by
  by_cases hupper : 'A'.val ≤ c.val ∧ c.val ≤ 'Z'.val
  · have hlower : c.toLower.val = c.val + 32 := by
      unfold Char.toLower
      rw [dif_pos hupper]
      rfl
    have hbounds : 65 ≤ c.val ∧ c.val ≤ 90 := hupper
    have hsmall : 97 ≤ c.toLower.val ∧ c.toLower.val ≤ 122 := by
      rw [hlower]
      grind
    exact Or.inr ⟨(isAlpha_iff c).mpr (Or.inl hupper), (isAlpha_iff _).mpr (Or.inr hsmall)⟩
  · apply Or.inl
    unfold Char.toLower
    rw [dif_neg hupper]

theorem toLower_eq_of_letters {α : Type} {f : Char -> α} {a : α}
    (hf : forall c, c.isAlpha = true -> f c = a) (c : Char) : f c.toLower = f c := by
  rcases toLower_cases c with hsame | ⟨hletter, hsmall⟩
  · rw [hsame]
  · rw [hf c hletter, hf _ hsmall]

theorem toLower_eq_iff {k : Char} (hk : k.isAlpha = false) (c : Char) :
    c.toLower = k <-> c = k := by
  have hdecide := toLower_eq_of_letters (f := fun d => decide (d = k)) (a := false) ?_ c
  · simpa using hdecide
  · intro d hd
    apply decide_eq_false
    rintro rfl
    rw [hk] at hd
    cases hd

theorem utf8Size_toLower (c : Char) : c.toLower.utf8Size = c.utf8Size := by
  apply toLower_eq_of_letters (a := 1)
  intro d hd
  have hascii : d.val ≤ 127 := by
    rcases (isAlpha_iff d).mp hd with hcapital | hsmall
    · exact UInt32.le_trans hcapital.2 (by decide)
    · exact UInt32.le_trans hsmall.2 (by decide)
  exact if_pos hascii

theorem byteSize_map_toLower (cs : List Char) : byteSize (cs.map Char.toLower) = byteSize cs := by
  induction cs with
  | nil => rfl
  | cons c cs ih => rw [List.map_cons, byteSize_cons, byteSize_cons, utf8Size_toLower, ih]

theorem ofList_map_toLower (cs : List Char) :
    String.ofList (cs.map Char.toLower) = foldCase (String.ofList cs) := by
  apply String.toList_inj.mp
  rw [toList_foldCase, String.toList_ofList, String.toList_ofList]

end Text

open Text

theorem isSeparator_toLower (c : Char) : isSeparator c.toLower = isSeparator c := by
  have hspace := toLower_eq_iff (k := ' ') rfl c
  have htab := toLower_eq_iff (k := '\t') rfl c
  have hreturn := toLower_eq_iff (k := '\r') rfl c
  simp only [isSeparator, Bool.beq_eq_decide_eq, hspace, htab, hreturn]

/-!
## Lexemes
-/

namespace Lexeme

theorem isWordChar_toLower (c : Char) : isWordChar c.toLower = isWordChar c := by
  apply toLower_eq_of_letters (a := true)
  intro d hd
  have halphanum : d.isAlphanum = (d.isAlpha || d.isDigit) := rfl
  simp [isWordChar, halphanum, hd]

theorem head?_map_toLower {k : Char} (hk : k.isAlpha = false) (cs : List Char) :
    (cs.map Char.toLower).head? = some k <-> cs.head? = some k := by
  cases cs with
  | nil => rfl
  | cons c cs => simp [toLower_eq_iff hk]

theorem splitWord_map_toLower (cs : List Char) :
    splitWord (cs.map Char.toLower) =
      ((splitWord cs).1.map Char.toLower, (splitWord cs).2.map Char.toLower) := by
  induction cs with
  | nil => rfl
  | cons c cs ih =>
      have hcontinues : (isWordChar c.toLower ||
          (c.toLower == '-' && (cs.map Char.toLower).head? != some '>')) =
          (isWordChar c || (c == '-' && cs.head? != some '>')) := by
        rw [Bool.eq_iff_iff]
        simp only [Bool.or_eq_true, Bool.and_eq_true, beq_iff_eq, bne_iff_ne, ne_eq,
          isWordChar_toLower, toLower_eq_iff (k := '-') rfl, head?_map_toLower (k := '>') rfl]
      rw [List.map_cons, splitWord, splitWord, hcontinues, ih]
      split
      · rfl
      · rfl

theorem splitQuoted_map_toLower {quote : Char} (hquote : quote.isAlpha = false) (cs : List Char) :
    splitQuoted quote (cs.map Char.toLower) =
      (splitQuoted quote cs).map fun (body, rest) =>
        (body.map Char.toLower, rest.map Char.toLower) := by
  induction cs with
  | nil => rfl
  | cons c cs ih =>
      simp only [List.map_cons, splitQuoted, toLower_eq_iff hquote, toLower_eq_iff (k := '\n') rfl,
        ih]
      split
      · rfl
      · split
        · rfl
        · cases splitQuoted quote cs with
          | none => rfl
          | some split => rfl

def foldCase (l : Lexeme) : Lexeme :=
  { l with text := l.text.map Char.toLower, rest := l.rest.map Char.toLower }

theorem width_foldCase (l : Lexeme) : l.foldCase.width = l.width := by
  rw [width, width, foldCase, byteSize_map_toLower]

end Lexeme

theorem Keyword.ofWord?_foldCase (w : String) : ofWord? (foldCase w) = ofWord? w := by
  simp only [ofWord?, sameName, foldCase_foldCase]

theorem Lexeme.next?_map_toLower (cs : List Char) :
    next? (cs.map Char.toLower) = (next? cs).map foldCase := by
  cases cs with
  | nil => rfl
  | cons c cs =>
      simp only [List.map_cons, next?, toLower_eq_iff (k := ':') rfl, toLower_eq_iff (k := '-') rfl,
        toLower_eq_iff (k := '@') rfl, toLower_eq_iff (k := '\'') rfl,
        toLower_eq_iff (k := '"') rfl, head?_map_toLower (k := '>') rfl, isWordChar_toLower,
        splitWord_map_toLower, ofList_map_toLower, Keyword.ofWord?_foldCase, ne_eq,
        List.map_eq_nil_iff]
      split
      · rfl
      · split
        · rw [Option.map_some, foldCase, List.map_tail]
          rfl
        · split
          · cases Keyword.ofWord? (String.ofList (splitWord cs).1) with
            | none => rfl
            | some k => rfl
          · split
            · next hquote =>
                have hc : c.isAlpha = false := by
                  rcases hquote with rfl | rfl
                  · rfl
                  · rfl
                rw [(toLower_eq_iff hc c).mpr rfl, splitQuoted_map_toLower hc]
                cases splitQuoted c cs with
                | none => rfl
                | some split => rfl
            · split
              · rfl
              · rfl

/-!
## Whole sources
-/

def Token.foldCase (t : Token) : Token :=
  { t with text := Text.foldCase t.text }

def Scan.foldCase (s : Scan) : Scan :=
  { s with tokens := s.tokens.map Token.foldCase }

theorem Scan.foldCase_cons (t : Token) (s : Scan) :
    (s.cons t).foldCase = s.foldCase.cons t.foldCase :=
  rfl

theorem Lexeme.toToken_foldCase (l : Lexeme) (offset line : Nat) :
    l.foldCase.toToken offset line = (l.toToken offset line).foldCase := by
  simp only [toToken, foldCase, Token.foldCase, byteSize_map_toLower, ofList_map_toLower]

theorem scanFrom_map_toLower (offset line : Nat) (fresh : Bool) (cs : List Char) :
    scanFrom offset line fresh (cs.map Char.toLower) =
      (scanFrom offset line fresh cs).foldCase := by
  have hbreak (c : Char) : c.toLower = '\n' <-> c = '\n' := toLower_eq_iff rfl c
  have hhash (c : Char) : c.toLower = '#' <-> c = '#' := toLower_eq_iff rfl c
  fun_induction scanFrom offset line fresh cs with
  | case1 offset line fresh =>
      rw [List.map_nil, scanFrom]
      rfl
  | case2 offset line cs scan ih =>
      rw [List.map_cons, scanFrom, if_pos ((hbreak _).mpr rfl), if_pos rfl, ih]
  | case3 offset line fresh cs scan hnot ih =>
      have htext : foldCase "\n" = "\n" := by decide +kernel
      rw [List.map_cons, scanFrom, if_pos ((hbreak _).mpr rfl), if_neg hnot, ih, Scan.foldCase_cons,
        Token.foldCase, htext]
  | case4 offset line fresh c cs hline hsep ih =>
      rw [List.map_cons, scanFrom, if_neg (mt (hbreak c).mp hline),
        if_pos (by rwa [isSeparator_toLower]), ih]
  | case5 offset line fresh cs comment hline hsep ih =>
      have hstop : (fun d => decide (d ≠ '\n')) ∘ Char.toLower = fun d => decide (d ≠ '\n') := by
        funext d
        simp only [Function.comp_apply, ne_eq, hbreak]
      rw [List.map_cons, scanFrom, if_neg (mt (hbreak _).mp hline),
        if_neg (by rwa [isSeparator_toLower]), if_pos ((hhash _).mpr rfl), List.takeWhile_map,
        List.dropWhile_map, hstop]
      simp only [byteSize_map_toLower]
      exact ih
  | case6 offset line fresh c cs hline hsep hcomment hnone =>
      have hnext := Lexeme.next?_map_toLower (c :: cs)
      rw [hnone] at hnext
      rw [List.map_cons, scanFrom_of_next?_eq_none (mt (hbreak c).mp hline)
        (by simpa [isSeparator_toLower] using hsep) (mt (hhash c).mp hcomment) hnext]
      rfl
  | case7 offset line fresh c cs _ _ _ l hl ih =>
      have hnext := Lexeme.next?_map_toLower (c :: cs)
      rw [hl] at hnext
      rw [scanFrom_of_next? hnext, Lexeme.width_foldCase, Lexeme.toToken_foldCase,
        Scan.foldCase_cons, ← ih]
      rfl

theorem scan_foldCase (source : String) : scan (foldCase source) = (scan source).foldCase := by
  rw [scan, toList_foldCase, scanFrom_map_toLower]
  rfl

end BehaviorScript
