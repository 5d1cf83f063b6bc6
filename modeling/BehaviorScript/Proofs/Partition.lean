import BehaviorScript.Proofs.Layout
import Mathlib.Data.List.Chain

/-!
# Tokens partition their source

The tokens of a source lie in it one behind the other.  Each is the slice of its place and is on
the line of its place, and what lies between them is white space, quotes of values and
comments.  Line ends are tokens only where they end a line with something on it, so between two
of them the tokens share a line.
-/

namespace BehaviorScript

/-!
## Where a token stands
-/

namespace Token

inductive Stands (cs : List Char) : Token -> Prop where
  | lineEnd {before after : List Char} :
      cs = before ++ '\n' :: after -> Stands cs (lineEnd before)
  | lexeme {before taken after : List Char} {l : Lexeme} :
      cs = before ++ taken ++ after -> l.Takes taken -> Stands cs (l.tokenAfter before)

def IsPlaced (cs : List Char) (t : Token) : Prop :=
  exists before after, cs = before ++ t.text.toList ++ after ∧
    t.start = Text.byteSize before ∧ t.size = Text.byteSize t.text.toList ∧
    t.line = Text.lineAfter before

def IsQuotedBy (quote : Char) (cs : List Char) (t : Token) : Prop :=
  (quote = '\'' ∨ quote = '"') ∧ quote ∉ t.text.toList ∧ '\n' ∉ t.text.toList ∧
    exists before after, cs = before ++ quote :: (t.text.toList ++ quote :: after) ∧
      t.start = Text.byteSize before + 1

def Covers (t : Token) (n : Nat) : Prop :=
  t.start ≤ n ∧ n < t.start + t.size

namespace Stands

variable {cs : List Char} {t : Token}

theorem append (h : t.Stands cs) (more : List Char) : t.Stands (cs ++ more) := by
  cases h with
  | @lineEnd before after hcs =>
      have hmore : cs ++ more = before ++ '\n' :: (after ++ more) := by simp [hcs]
      exact Stands.lineEnd hmore
  | @lexeme before taken after l hcs htaken =>
      have hmore : cs ++ more = before ++ taken ++ (after ++ more) := by simp [hcs]
      exact Stands.lexeme hmore htaken

theorem isPlaced (h : t.Stands cs) : t.IsPlaced cs := by
  cases h with
  | @lineEnd before after hcs =>
      refine ⟨before, after, ?_, rfl, ?_, rfl⟩
      · simpa [Token.lineEnd] using hcs
      · simp [Token.lineEnd]
  | @lexeme before taken after l hcs htaken =>
      cases htaken with
      | bare hmargin =>
          refine ⟨before, after, ?_, ?_, ?_, rfl⟩
          · simpa using hcs
          · simp [hmargin]
          · simp
      | @quoted quote hmargin _ hquote =>
          refine ⟨before ++ [quote], quote :: after, ?_, ?_, ?_, ?_⟩
          · simpa using hcs
          · simp [hmargin, Lexeme.utf8Size_of_quote hquote]
          · simp
          · rw [Text.lineAfter_append (by simpa using Lexeme.newline_ne_quote hquote)]
            rfl

theorem isQuotedBy (h : t.Stands cs) (hkind : t.kind = .quoted) :
    exists quote, t.IsQuotedBy quote cs := by
  cases h with
  | lineEnd => cases hkind
  | @lexeme before taken after l hcs htaken =>
      cases htaken with
      | bare _ _ hbare => exact absurd hkind hbare
      | @quoted quote hmargin _ hquote hfree hline =>
          refine ⟨quote, hquote, ?_, ?_, before, after, ?_, ?_⟩
          · simpa using hfree
          · simpa using hline
          · simpa using hcs
          · simp [hmargin]

theorem kind_of_size_eq_zero (h : t.Stands cs) (hsize : t.size = 0) : t.kind = .quoted := by
  cases h with
  | lineEnd => cases hsize
  | @lexeme before taken after l hcs htaken =>
      cases htaken with
      | bare _ _ _ hne =>
          cases htext : l.text with
          | nil => exact absurd htext hne
          | cons c text =>
              have hpos := c.utf8Size_pos
              rw [Lexeme.size_tokenAfter, htext, Text.byteSize_cons] at hsize
              omega
      | quoted _ hkind => exact hkind

theorem end_le (h : t.Stands cs) : t.start + t.size ≤ Text.byteSize cs := by
  rcases h.isPlaced with ⟨before, after, hcs, hstart, hsize, _⟩
  rw [hcs, hstart, hsize, Text.byteSize_append, Text.byteSize_append]
  exact Nat.le_add_right _ _

theorem start_lt (h : t.Stands cs) : t.start < Text.byteSize cs := by
  by_cases hsize : t.size = 0
  · rcases h.isQuotedBy (h.kind_of_size_eq_zero hsize) with
      ⟨quote, hquote, _, _, before, after, hcs, hstart⟩
    have hone := Lexeme.utf8Size_of_quote hquote
    rw [hcs, hstart]
    simp only [Text.byteSize_append, Text.byteSize_cons, hone]
    omega
  · have hend := h.end_le
    omega

end Stands
end Token

theorem Passed.stands {cs : List Char} {ts : List Token} (h : Passed cs ts) :
    forall t, t ∈ ts -> t.Stands cs := by
  induction h with
  | nil =>
      intro t ht
      cases ht
  | gap _ _ ih => exact fun t ht => (ih t ht).append _
  | lineEnd _ _ ih =>
      intro t ht
      rcases List.mem_append.mp ht with hold | hnew
      · exact (ih t hold).append _
      · rw [List.mem_singleton.mp hnew]
        exact Token.Stands.lineEnd rfl
  | @lexeme before taken ts l _ htaken ih =>
      intro t ht
      rcases List.mem_append.mp ht with hold | hnew
      · exact (ih t hold).append _
      · rw [List.mem_singleton.mp hnew]
        exact Token.Stands.lexeme (List.append_nil _).symm htaken

/-!
## One behind the other
-/

def Token.Precedes (t u : Token) : Prop :=
  t.start < u.start ∧ t.start + t.size ≤ u.start

theorem Passed.precedes {before : List Char} {ts : List Token} (h : Passed before ts)
    {t u : Token} (ht : t ∈ ts) (hu : Text.byteSize before ≤ u.start) :
    t.Precedes u := by
  have hstands := h.stands t ht
  exact ⟨Nat.lt_of_lt_of_le hstands.start_lt hu, Nat.le_trans hstands.end_le hu⟩

theorem Passed.pairwise_precedes {cs : List Char} {ts : List Token} (h : Passed cs ts) :
    ts.Pairwise Token.Precedes := by
  induction h with
  | nil => exact List.Pairwise.nil
  | gap _ _ ih => exact ih
  | @lineEnd before ts hbefore _ ih =>
      rw [List.pairwise_append]
      refine ⟨ih, List.pairwise_singleton _ _, ?_⟩
      intro t ht u hu
      rw [List.mem_singleton.mp hu]
      exact hbefore.precedes ht (Nat.le_refl _)
  | @lexeme before taken ts l hbefore _ ih =>
      rw [List.pairwise_append]
      refine ⟨ih, List.pairwise_singleton _ _, ?_⟩
      intro t ht u hu
      rw [List.mem_singleton.mp hu]
      exact hbefore.precedes ht (Nat.le_add_right _ _)

/-!
## Lines
-/

/--
What may stand next to each other: no two line ends, and two other tokens only on one line.
-/
def Token.MayFollow (t u : Token) : Prop :=
  (t.kind = .newline -> u.kind ≠ .newline) ∧
    (t.kind ≠ .newline -> u.kind ≠ .newline -> t.line = u.line)

theorem Passed.line_of_getLast? {cs : List Char} {ts : List Token} (h : Passed cs ts)
    {t : Token} (ht : ts.getLast? = some t) (hkind : t.kind ≠ .newline) :
    t.line = Text.lineAfter cs := by
  induction h with
  | nil => cases ht
  | @gap before new ts _ hgap ih =>
      cases hgap with
      | separator hsep =>
          have hbreak := (utf8Size_of_isSeparator hsep).2
          rw [Text.lineAfter_append (by simpa using hbreak.symm)]
          exact ih ht
      | comment hbody =>
          rw [Text.lineAfter_append (by simpa using hbody)]
          exact ih ht
      | blankLine hfresh =>
          have hline : t.kind = .newline := by simpa [isFresh, ht] using hfresh
          exact absurd hline hkind
  | lineEnd =>
      rw [List.getLast?_concat] at ht
      cases ht
      exact absurd rfl hkind
  | @lexeme before taken ts l _ htaken ih =>
      rw [List.getLast?_concat] at ht
      cases ht
      rw [Text.lineAfter_append htaken.newline_not_mem]
      rfl

theorem Passed.isChain_mayFollow {cs : List Char} {ts : List Token} (h : Passed cs ts) :
    ts.IsChain Token.MayFollow := by
  induction h with
  | nil => exact List.isChain_nil
  | gap _ _ ih => exact ih
  | @lineEnd before ts _ hopen ih =>
      rw [List.isChain_append]
      refine ⟨ih, List.isChain_singleton _, ?_⟩
      intro t ht u hu
      cases hu
      have hkind : t.kind ≠ .newline := by
        rw [Option.mem_def] at ht
        simpa [isFresh, ht] using hopen
      exact ⟨fun hline => absurd hline hkind, fun _ hother => absurd rfl hother⟩
  | @lexeme before taken ts l hbefore htaken ih =>
      rw [List.isChain_append]
      refine ⟨ih, List.isChain_singleton _, ?_⟩
      intro t ht u hu
      cases hu
      exact ⟨fun _ => htaken.kind_ne_newline, fun hkind _ => hbefore.line_of_getLast? ht hkind⟩

theorem Passed.kind_of_head? {cs : List Char} {ts : List Token} (h : Passed cs ts)
    {t : Token} (ht : ts.head? = some t) :
    t.kind ≠ .newline := by
  induction h with
  | nil => cases ht
  | gap _ _ ih => exact ih ht
  | @lineEnd before ts _ hopen ih =>
      cases ts with
      | nil => cases hopen
      | cons u us => exact ih ht
  | @lexeme before taken ts l _ htaken ih =>
      cases ts with
      | nil =>
          cases ht
          exact htaken.kind_ne_newline
      | cons u us => exact ih ht

/-!
## Between the tokens
-/

/--
The byte is no part of a token: it is white space, a quote of a value, or inside a comment, which
is a stretch of one line from a number sign on that holds no part of a token.
-/
inductive IsSkipped (cs : List Char) (ts : List Token) (n : Nat) : Prop where
  | blank {before after : List Char} {c : Char} :
      cs = before ++ c :: after -> n = Text.byteSize before ->
      c = ' ' ∨ c = '\t' ∨ c = '\r' ∨ c = '\n' -> IsSkipped cs ts n
  | quote {t : Token} {quote : Char} :
      t ∈ ts -> t.kind = .quoted -> t.IsQuotedBy quote cs ->
      n + 1 = t.start ∨ n = t.start + t.size -> IsSkipped cs ts n
  | comment {before body after : List Char} :
      cs = before ++ '#' :: body ++ after -> '\n' ∉ body ->
      Text.byteSize before ≤ n -> n < Text.byteSize (before ++ '#' :: body) ->
      (forall t, t ∈ ts -> t.start + t.size ≤ Text.byteSize before ∨
        Text.byteSize (before ++ '#' :: body) ≤ t.start) ->
      IsSkipped cs ts n

theorem Token.IsQuotedBy.append {quote : Char} {cs : List Char} {t : Token}
    (h : t.IsQuotedBy quote cs) (more : List Char) : t.IsQuotedBy quote (cs ++ more) := by
  rcases h with ⟨hquote, hfree, hline, before, after, hcs, hstart⟩
  refine ⟨hquote, hfree, hline, before, after ++ more, ?_, hstart⟩
  simp [hcs]

theorem IsSkipped.append {cs : List Char} {ts : List Token} {n : Nat} (h : IsSkipped cs ts n)
    (more : List Char) (us : List Token)
    (hus : forall t, t ∈ us -> Text.byteSize cs ≤ t.start) :
    IsSkipped (cs ++ more) (ts ++ us) n := by
  cases h with
  | @blank before after c hcs hn hc =>
      have hmore : cs ++ more = before ++ c :: (after ++ more) := by simp [hcs]
      exact IsSkipped.blank hmore hn hc
  | quote ht hkind hquote hn =>
      exact IsSkipped.quote (List.mem_append_left _ ht) hkind (hquote.append more) hn
  | @comment before body after hcs hbody hle hlt hclear =>
      have hmore : cs ++ more = before ++ '#' :: body ++ (after ++ more) := by simp [hcs]
      refine IsSkipped.comment hmore hbody hle hlt ?_
      intro t ht
      rcases List.mem_append.mp ht with hold | hnew
      · exact hclear t hold
      · right
        have hstart := hus t hnew
        rw [hcs, Text.byteSize_append] at hstart
        exact Nat.le_trans (Nat.le_add_right _ _) hstart

theorem IsSkipped.of_gap {before new : List Char} {ts : List Token} {n : Nat} {fresh : Bool}
    (hgap : Gap fresh new) (hts : forall t, t ∈ ts -> t.start + t.size ≤ Text.byteSize before)
    (hle : Text.byteSize before ≤ n) (hlt : n < Text.byteSize (before ++ new)) :
    IsSkipped (before ++ new) ts n := by
  cases hgap with
  | @separator c hsep =>
      have hsize := (utf8Size_of_isSeparator hsep).1
      rw [Text.byteSize_append, Text.byteSize_cons, hsize] at hlt
      have hn : n = Text.byteSize before := Nat.le_antisymm (Nat.lt_succ_iff.mp hlt) hle
      refine IsSkipped.blank rfl hn ?_
      simp only [isSeparator, Bool.or_eq_true, beq_iff_eq] at hsep
      rcases hsep with (hc | hc) | hc
      all_goals simp [hc]
  | comment hbody =>
      refine IsSkipped.comment (List.append_nil _).symm hbody hle hlt ?_
      exact fun t ht => Or.inl (hts t ht)
  | blankLine =>
      rw [Text.byteSize_append, Text.byteSize_cons, utf8Size_newline] at hlt
      have hn : n = Text.byteSize before := Nat.le_antisymm (Nat.lt_succ_iff.mp hlt) hle
      exact IsSkipped.blank rfl hn (by simp)

theorem IsSkipped.of_lexeme {before taken : List Char} {ts : List Token} {n : Nat} {l : Lexeme}
    (htaken : l.Takes taken) (hmem : l.tokenAfter before ∈ ts)
    (hle : Text.byteSize before ≤ n) (hlt : n < Text.byteSize (before ++ taken))
    (hfree : ¬ (l.tokenAfter before).Covers n) :
    IsSkipped (before ++ taken) ts n := by
  rw [Text.byteSize_append, htaken.byteSize_eq, Lexeme.width] at hlt
  have hstands : (l.tokenAfter before).Stands (before ++ taken) :=
    Token.Stands.lexeme (List.append_nil _).symm htaken
  unfold Token.Covers at hfree
  simp only [Lexeme.start_tokenAfter, Lexeme.size_tokenAfter] at hfree
  cases htaken with
  | bare hmargin =>
      rw [hmargin] at hfree hlt
      omega
  | quoted hmargin hkind =>
      rcases hstands.isQuotedBy hkind with ⟨quote, hquote⟩
      refine IsSkipped.quote hmem hkind hquote ?_
      simp only [Lexeme.start_tokenAfter, Lexeme.size_tokenAfter]
      rw [hmargin] at hfree hlt ⊢
      omega

theorem Passed.isSkipped {cs : List Char} {ts : List Token} (h : Passed cs ts) {n : Nat}
    (hn : n < Text.byteSize cs) (hfree : forall t, t ∈ ts -> ¬ t.Covers n) :
    IsSkipped cs ts n := by
  induction h with
  | nil => cases hn
  | @gap before new ts hbefore hgap ih =>
      by_cases hold : n < Text.byteSize before
      · simpa using (ih hold hfree).append new [] (by simp)
      · exact IsSkipped.of_gap hgap (fun t ht => (hbefore.stands t ht).end_le)
          (Nat.le_of_not_lt hold) hn
  | @lineEnd before ts hbefore _ ih =>
      by_cases hold : n < Text.byteSize before
      · apply (ih hold fun t ht => hfree t (List.mem_append_left _ ht)).append
        intro t ht
        rw [List.mem_singleton.mp ht]
        exact Nat.le_refl _
      · have hcovers : (Token.lineEnd before).Covers n := by
          rw [Text.byteSize_append, Text.byteSize_cons, utf8Size_newline] at hn
          exact ⟨Nat.le_of_not_lt hold, hn⟩
        exact absurd hcovers (hfree _ List.mem_concat_self)
  | @lexeme before taken ts l hbefore htaken ih =>
      by_cases hold : n < Text.byteSize before
      · apply (ih hold fun t ht => hfree t (List.mem_append_left _ ht)).append
        intro t ht
        rw [List.mem_singleton.mp ht]
        exact Nat.le_add_right _ _
      · exact IsSkipped.of_lexeme htaken List.mem_concat_self (Nat.le_of_not_lt hold) hn
          (hfree _ List.mem_concat_self)

/-!
## Whole sources
-/

def Scan.extent (s : Scan) (source : String) : Nat :=
  match s.stuck? with
  | some (offset, _) => offset
  | none => source.utf8ByteSize

/--
The tokens of the scan and what is skipped between them make up the source.
-/
structure Scan.Partitions (source : String) (s : Scan) : Prop where
  ordered : s.tokens.Pairwise Token.Precedes
  placed : forall t, t ∈ s.tokens -> t.IsPlaced source.toList
  sliced : forall t, t ∈ s.tokens -> Token.ofSource source t.kind t.start t.size t.line = t
  inside : forall t, t ∈ s.tokens -> t.start + t.size ≤ s.extent source
  nonempty : forall t, t ∈ s.tokens -> t.kind ≠ .quoted -> t.text ≠ ""
  quoted : forall t, t ∈ s.tokens -> t.kind = .quoted ->
    exists quote, t.IsQuotedBy quote source.toList
  first : forall t, s.tokens.head? = some t -> t.kind ≠ .newline
  adjacent : s.tokens.IsChain Token.MayFollow
  skipped : forall n, n < s.extent source -> (forall t, t ∈ s.tokens -> ¬ t.Covers n) ->
    IsSkipped source.toList s.tokens n
  stuck : forall offset line, s.stuck? = some (offset, line) ->
    exists before c after, source.toList = before ++ c :: after ∧
      offset = Text.byteSize before ∧ line = Text.lineAfter before ∧
      Lexeme.next? (c :: after) = none ∧ ¬ (c = ' ' ∨ c = '\t' ∨ c = '\r' ∨ c = '\n' ∨ c = '#')

theorem Token.IsPlaced.append {cs : List Char} {t : Token} (h : t.IsPlaced cs)
    (more : List Char) : t.IsPlaced (cs ++ more) := by
  rcases h with ⟨before, after, hcs, hplace⟩
  refine ⟨before, after ++ more, ?_, hplace⟩
  simp [hcs]

theorem Token.IsPlaced.ofSource_eq {source : String} {t : Token} (h : t.IsPlaced source.toList) :
    Token.ofSource source t.kind t.start t.size t.line = t := by
  rcases h with ⟨before, after, hsource, hstart, hsize, _⟩
  have hslice : Text.slice source t.start t.size = t.text := by
    rw [Text.slice, hsource, hstart, hsize, Text.slice?_append, Option.getD_some,
      String.ofList_toList]
  rw [Token.ofSource, hslice]

theorem Token.Stands.text_ne_empty {cs : List Char} {t : Token} (h : t.Stands cs)
    (hkind : t.kind ≠ .quoted) : t.text ≠ "" := by
  intro htext
  rcases h.isPlaced with ⟨_, _, _, _, hsize, _⟩
  rw [htext] at hsize
  exact hkind (h.kind_of_size_eq_zero hsize)

theorem ScanEnd.Reached.extent_eq {s : Scan} {source : String} {passed rest : List Char}
    (hsource : source.toList = passed ++ rest) (h : s.finish.Reached passed rest) :
    s.extent source = Text.byteSize passed := by
  unfold Scan.extent Scan.stuck?
  generalize s.finish = finish at h
  cases h with
  | complete =>
      rw [List.append_nil] at hsource
      rw [← Text.byteSize_toList, hsource]
  | stuck => rfl

/--
The tokens of every source partition it: in order, each at its place, and with nothing but
white space, quotes and comments between them up to where the scan ended.
-/
theorem scan_partitions_source (source : String) : (scan source).Partitions source := by
  rcases scan_passes source with ⟨passed, rest, hsource, hpassed, hend⟩
  have hextent := hend.extent_eq hsource
  have hplaced : forall t, t ∈ (scan source).tokens -> t.IsPlaced source.toList := by
    intro t ht
    rw [hsource]
    exact (hpassed.stands t ht).isPlaced.append rest
  exact {
    ordered := hpassed.pairwise_precedes
    placed := hplaced
    sliced := fun t ht => (hplaced t ht).ofSource_eq
    inside := by
      intro t ht
      rw [hextent]
      exact (hpassed.stands t ht).end_le
    nonempty := fun t ht => (hpassed.stands t ht).text_ne_empty
    quoted := by
      intro t ht hkind
      rcases (hpassed.stands t ht).isQuotedBy hkind with ⟨quote, hquote⟩
      rw [hsource]
      exact ⟨quote, hquote.append rest⟩
    first := fun t => hpassed.kind_of_head?
    adjacent := hpassed.isChain_mayFollow
    skipped := by
      intro n hn hfree
      rw [hextent] at hn
      have hskipped := (hpassed.isSkipped hn hfree).append rest [] (by simp)
      rw [hsource]
      simpa using hskipped
    stuck := by
      intro offset line hstuck
      unfold Scan.stuck? at hstuck
      generalize (scan source).finish = finish at hend hstuck
      cases hend with
      | complete => cases hstuck
      | @stuck c after hbreak hsep hcomment hnone =>
          cases hstuck
          refine ⟨passed, c, after, hsource, rfl, rfl, hnone, ?_⟩
          rintro (rfl | rfl | rfl | rfl | rfl)
          · cases hsep
          · cases hsep
          · cases hsep
          · exact hbreak rfl
          · exact hcomment rfl }

end BehaviorScript
