import BehaviorScript.Token.Scan

/-!
# Lexemes

A lexeme is taken off the front of a text as it stands there: as its bare text, or
as its text between two equal quotes that it does not contain.  Either way it lies on one
line.  This module reads that back from the scanner, for the modules that follow a scan
through a whole source.
-/

namespace BehaviorScript

namespace Lexeme

/-!
## Words and quoted values
-/

theorem isWordChar_of_mem_splitWord {cs : List Char} {c : Char}
    (h : c ∈ (splitWord cs).1) :
    isWordChar c = true ∨ c = '-' := by
  induction cs with
  | nil => cases h
  | cons d cs ih =>
      rw [splitWord] at h
      split at h
      · next hcont =>
          rcases List.mem_cons.mp h with rfl | hrest
          · simp only [Bool.or_eq_true, Bool.and_eq_true, beq_iff_eq] at hcont
            exact hcont.imp_right And.left
          · exact ih hrest
      · cases h

theorem newline_not_mem_splitWord (cs : List Char) : '\n' ∉ (splitWord cs).1 := by
  intro h
  have hbad := isWordChar_of_mem_splitWord h
  revert hbad
  decide

theorem not_mem_of_splitQuoted {quote : Char} {cs body rest : List Char}
    (h : splitQuoted quote cs = some (body, rest)) :
    quote ∉ body ∧ '\n' ∉ body := by
  induction cs generalizing body with
  | nil => cases h
  | cons c cs ih =>
      rw [splitQuoted] at h
      split at h
      · cases h
        simp
      · next hquote =>
          split at h
          · cases h
          · next hline =>
              rcases Option.map_eq_some_iff.mp h with ⟨⟨b, r⟩, hb, hr⟩
              cases hr
              rcases ih hb with ⟨hq, hn⟩
              constructor
              · intro hmem
                rcases List.mem_cons.mp hmem with heq | hmem
                · exact hquote heq.symm
                · exact hq hmem
              · intro hmem
                rcases List.mem_cons.mp hmem with heq | hmem
                · exact hline heq.symm
                · exact hn hmem

/-!
## How a lexeme is written
-/

inductive Takes (l : Lexeme) : List Char -> Prop where
  | bare :
      l.margin = 0 -> l.kind ≠ .newline -> l.kind ≠ .quoted -> l.text ≠ [] -> '\n' ∉ l.text ->
      Takes l l.text
  | quoted {quote : Char} :
      l.margin = 1 -> l.kind = .quoted -> quote = '\'' ∨ quote = '"' -> quote ∉ l.text ->
      '\n' ∉ l.text ->
      Takes l (quote :: (l.text ++ [quote]))

theorem utf8Size_of_quote {quote : Char} (h : quote = '\'' ∨ quote = '"') :
    quote.utf8Size = 1 := by
  rcases h with rfl | rfl
  · rfl
  · rfl

theorem newline_ne_quote {quote : Char} (h : quote = '\'' ∨ quote = '"') : '\n' ≠ quote := by
  rcases h with rfl | rfl
  · decide
  · decide

theorem takes_of_next? {cs : List Char} {l : Lexeme} (h : next? cs = some l) :
    exists taken, l.Takes taken ∧ cs = taken ++ l.rest := by
  cases cs with
  | nil => cases h
  | cons c cs =>
      have hword := splitWord_append cs
      have hline := newline_not_mem_splitWord cs
      rw [next?] at h
      split at h
      · next hc =>
          cases h
          refine ⟨[c], Takes.bare rfl ?_ ?_ ?_ ?_, rfl⟩
          all_goals simp [hc]
      split at h
      · next hc =>
          cases h
          rcases hc with ⟨rfl, hhead⟩
          refine ⟨['-', '>'], Takes.bare rfl ?_ ?_ ?_ ?_, ?_⟩
          · simp
          · simp
          · simp
          · simp
          · cases cs with
            | nil => cases hhead
            | cons d cs =>
                cases hhead
                rfl
      split at h
      · next hc =>
          rcases Option.map_eq_some_iff.mp h with ⟨k, -, rfl⟩
          refine ⟨c :: (splitWord cs).1, Takes.bare rfl ?_ ?_ ?_ ?_, ?_⟩
          · simp
          · simp
          · simp
          · simp [hc, hline]
          · simp [hword]
      split at h
      · next hc =>
          rcases Option.map_eq_some_iff.mp h with ⟨⟨body, rest⟩, hbody, rfl⟩
          rcases not_mem_of_splitQuoted hbody with ⟨hquote, hbreak⟩
          refine ⟨c :: (body ++ [c]), Takes.quoted rfl rfl hc hquote hbreak, ?_⟩
          simp [splitQuoted_append hbody]
      split at h
      · next hc =>
          cases h
          refine ⟨c :: (splitWord cs).1, Takes.bare rfl ?_ ?_ ?_ ?_, ?_⟩
          · simp
          · simp
          · simp
          · have hne : '\n' ≠ c := by
              rintro rfl
              rcases hc with hc | ⟨hc, -⟩
              · revert hc
                decide
              · cases hc
            simp [hne, hline]
          · simp [hword]
      · cases h

namespace Takes

variable {l : Lexeme} {taken : List Char}

theorem byteSize_eq (h : l.Takes taken) : Text.byteSize taken = l.width := by
  cases h with
  | bare hmargin => simp [width, hmargin]
  | quoted hmargin _ hquote =>
      simp [width, hmargin, utf8Size_of_quote hquote]
      omega

theorem newline_not_mem (h : l.Takes taken) : '\n' ∉ taken := by
  cases h with
  | bare _ _ _ _ hline => exact hline
  | quoted _ _ hquote _ hline => simp [newline_ne_quote hquote, hline]

theorem kind_ne_newline (h : l.Takes taken) : l.kind ≠ .newline := by
  cases h with
  | bare _ hkind => exact hkind
  | quoted _ hkind =>
      rw [hkind]
      simp

end Takes

theorem next?_cons_eq_some {c : Char} {cs : List Char} {l : Lexeme}
    (h : next? (c :: cs) = some l) :
    c ≠ '\n' ∧ isSeparator c = false ∧ c ≠ '#' := by
  refine ⟨?_, ?_, ?_⟩
  · rintro rfl
    simp [next?, isWordChar] at h
  · rw [Bool.eq_false_iff]
    intro hsep
    simp only [isSeparator, Bool.or_eq_true, beq_iff_eq] at hsep
    rcases hsep with (rfl | rfl) | rfl
    all_goals simp [next?, isWordChar] at h
  · rintro rfl
    simp [next?, isWordChar] at h

end Lexeme

/-!
## Scans that begin with a lexeme
-/

theorem scanFrom_of_next? {offset line : Nat} {fresh : Bool} {cs : List Char} {l : Lexeme}
    (h : Lexeme.next? cs = some l) :
    scanFrom offset line fresh cs =
      (scanFrom (offset + l.width) line false l.rest).cons (l.toToken offset line) := by
  cases cs with
  | nil => cases h
  | cons c cs =>
      rcases Lexeme.next?_cons_eq_some h with ⟨hline, hsep, hcomment⟩
      rw [scanFrom, if_neg hline, if_neg (by simp [hsep]), if_neg hcomment]
      split
      · next hnone =>
          rw [h] at hnone
          cases hnone
      · next l' hl' =>
          rw [h] at hl'
          cases hl'
          rfl

theorem scanFrom_of_next?_eq_none {offset line : Nat} {fresh : Bool} {c : Char} {cs : List Char}
    (hline : c ≠ '\n') (hsep : isSeparator c = false) (hcomment : c ≠ '#')
    (h : Lexeme.next? (c :: cs) = none) :
    scanFrom offset line fresh (c :: cs) = ⟨[], .stuck offset line⟩ := by
  rw [scanFrom, if_neg hline, if_neg (by simp [hsep]), if_neg hcomment]
  split
  · rfl
  · next l hl =>
      rw [h] at hl
      cases hl

def Scan.prepend (ts : List Token) (s : Scan) : Scan :=
  { s with tokens := ts ++ s.tokens }

end BehaviorScript
