import BehaviorScript.Proofs.LineTails
import BehaviorScript.Proofs.OpenSections
import BehaviorScript.Proofs.PrintedText
import BehaviorScript.Proofs.Registration

/-!
# Every registered action can be called

The names that a registry takes are words of scripts, also those that end in a hyphen or a point: a
hyphen belongs to a word unless it begins an arrow, so that `a-->b` is the word `a-`, an arrow and
the word `b`.  A line that begins with such a name, in any section but a message section, is read as
a call of the action, whatever ends the name: the line, a comment or an arrow.  The registry then
finds the schema that was registered under the name.
-/

namespace BehaviorScript

variable {σ : Type}

/-!
## Names are words
-/

namespace Lexeme

theorem endsWord_of_isStop {more : List Char} (h : IsStop more) : EndsWord more :=
  ⟨splitWord_of_isStop h, fun hhead => (h '>' hhead).2.2 rfl⟩

theorem endsWord_arrow (more : List Char) : EndsWord ('-' :: '>' :: more) := by
  constructor
  · simp [splitWord, isWordChar]
  · simp

end Lexeme

theorem IsFirstOfName.isLaterInName {c : Char} (h : IsFirstOfName c) : IsLaterInName c := by
  unfold IsFirstOfName at h
  unfold IsLaterInName
  tauto

namespace IsNameOfAction

variable {name : String} {more : List Char}

theorem isBareWord (h : IsNameOfAction name) : IsBareWord name := by
  rcases h with ⟨c, cs, hcs, hfirst, hlater⟩
  refine ⟨?_, ?_, ?_⟩
  · rintro rfl
    cases hcs
  · rintro rfl
    cases hcs
    exact absurd ((isFirstOfName_iff '-').mpr hfirst) (by decide)
  · rw [hcs, List.all_eq_true]
    intro d hd
    apply (isLaterInName_iff d).mpr
    rcases List.mem_cons.mp hd with rfl | hd
    · exact hfirst.isLaterInName
    · exact hlater d hd

theorem scanFrom_eq (h : IsNameOfAction name) (hmore : Lexeme.EndsWord more)
    (offset line : Nat) (fresh : Bool) :
    scanFrom offset line fresh (name.toList ++ more) =
      (scanFrom (offset + Text.byteSize name.toList) line false more).cons
        ⟨.word, offset, Text.byteSize name.toList, line, name⟩ := by
  rw [scanFrom_of_next? (Lexeme.next?_word h.isBareWord hmore), Lexeme.toToken,
    String.ofList_toList]
  rfl

end IsNameOfAction

namespace Registry

theorem isNameOfAction_attemptAll {r : Registry σ}
    (h : forall s, s ∈ r.schemas -> forall name, name ∈ s.names -> IsNameOfAction name)
    (tried : List (Schema σ)) :
    forall s, s ∈ (r.attemptAll tried).schemas -> forall name, name ∈ s.names ->
      IsNameOfAction name := by
  induction tried generalizing r with
  | nil => exact h
  | cons s rest ih =>
      show forall t, t ∈ (attemptAll (r.register s).2 rest).schemas -> _
      apply ih
      rcases register_cases r s with ⟨e, hrun⟩ | ⟨hforms, hrun⟩
      · rw [hrun]
        exact h
      · rw [hrun]
        intro t ht
        rcases List.mem_append.mp ht with hold | hnew
        · exact h t hold
        · rw [List.mem_singleton.mp hnew]
          exact hforms

end Registry

/-!
## Lines that call an action
-/

theorem scanFrom_separators {w : List Char} (h : w.all isSeparator = true) (offset line : Nat)
    (fresh : Bool) (more : List Char) :
    scanFrom offset line fresh (w ++ more) =
      scanFrom (offset + Text.byteSize w) line fresh more := by
  induction w generalizing offset with
  | nil => rfl
  | cons c w ih =>
      rcases Bool.and_eq_true_iff.mp h with ⟨hsep, hrest⟩
      rcases utf8Size_of_isSeparator hsep with ⟨hsize, hline⟩
      rw [List.cons_append, scanFrom, if_neg hline, if_pos hsep, ih hrest, Text.byteSize_cons,
        hsize, Nat.add_assoc]

/--
The text is a line that begins with the name, with nothing but blanks or a comment behind it, or
with an arrow and a literal.  On the given line, these are the parameters of the call.
-/
inductive IsCallLine (options : Options) (name : String) (line : Nat) :
    String -> List Param -> Prop where
  | bare {tail : String} :
      IsLineTail tail.toList -> IsCallLine options name line (name ++ tail) []
  | arrow {gap literal tail : String} {l : Lexeme} :
      gap.toList.all isSeparator = true ->
      Lexeme.next? literal.toList = some l -> l.rest = [] -> l.kind.isLiteral = true ->
      IsLineTail tail.toList ->
      IsCallLine options name line (name ++ "->" ++ gap ++ literal ++ tail)
        [{ line := line, name := options.defaultParam, op := .transition,
           value := String.ofList l.text }]

theorem IsCallLine.exists_tokens {options : Options} {name text : String} {line : Nat}
    {params : List Param} (h : IsCallLine options name line text params)
    (hname : IsNameOfAction name) (offset : Nat) :
    exists us, scanFrom offset line true text.toList = ⟨us, .complete line⟩ ∧
      forall rest, Grammar.EndsAction rest ->
        Grammar.IsAction options false us rest
          { line := line, name := name, message := none, params := params } := by
  cases h with
  | bare htail =>
      rw [String.toList_append, hname.scanFrom_eq (Lexeme.endsWord_of_isStop htail.isStop),
        htail.scanFrom_eq]
      refine ⟨_, rfl, fun rest hrest => ?_⟩
      exact .plain (.call rfl .nil) hrest
  | @arrow gap literal tail l hgap hl hend hliteral htail =>
      have htext : (name ++ "->" ++ gap ++ literal ++ tail).toList =
          name.toList ++ '-' :: '>' :: (gap.toList ++ (literal.toList ++ tail.toList)) := by
        simp
      have harrow (cs : List Char) : Lexeme.next? ('-' :: '>' :: cs) =
          some ⟨.operator .transition, 0, ['-', '>'], cs⟩ := by
        simp [Lexeme.next?]
      have hvalue : (l.followedBy tail.toList).rest = tail.toList := by
        rw [Lexeme.followedBy, hend, List.nil_append]
      rw [htext, hname.scanFrom_eq (Lexeme.endsWord_arrow _), scanFrom_of_next? (harrow _),
        scanFrom_separators hgap, scanFrom_of_next? (Lexeme.next?_append_stop htail.isStop hl),
        hvalue, htail.scanFrom_eq]
      refine ⟨_, rfl, fun rest hrest => ?_⟩
      exact .plain (.call rfl (.cons (.arrow rfl hliteral) .nil)) hrest

/-!
## Lines of a section
-/

def IsLineStart (before : String) : Prop :=
  exists above blanks, before = above ++ "\n" ++ blanks ∧ blanks.toList.all isSeparator = true

/--
The text ends at the beginning of a line of a section of this kind: the last keyword is that of the
section.
-/
structure IsInSection (before : String) (kind : SectionKind) : Prop where
  lineStart : IsLineStart before
  opened : exists ts t lines, (scan before).tokens = ts ++ t :: lines ∧
    t.kind = .keyword kind.keyword ∧ forall u, u ∈ lines -> Parser.isKeyword u = false

/--
The two texts make up a script, and between them is an empty line of a section.
-/
structure IsEmptyLine (options : Options) (before after : String) (kind : SectionKind)
    (script : Script) : Prop where
  inSection : IsInSection before kind
  lineEnd : after = "" ∨ exists rest, after = "\n" ++ rest
  scanned : (scan (before ++ after)).isComplete = true
  parsed : Script.ofTokens options (scan (before ++ after)).tokens = .ok script

/--
With the text on that line the script is read as before, and has one more action there.
-/
structure ReadsAs (options : Options) (before text after : String) (kind : SectionKind)
    (script : Script) (a : ActionLine) : Prop where
  scanned : (scan (before ++ text ++ after)).isComplete = true
  parsed : exists above longer,
    Script.ofTokens options (scan before).tokens = .ok above ∧
      Script.ofTokens options (scan (before ++ text ++ after)).tokens = .ok longer ∧
      Script.Gains kind a above script longer

def tokensWithEnd (above : String) : List Token :=
  (scan above).tokens ++
    if isFresh (scan above).tokens then [] else [Token.lineEnd above.toList]

theorem isFresh_tokensWithEnd (above : String) : isFresh (tokensWithEnd above) = true := by
  unfold tokensWithEnd
  split
  · next hfresh => rw [List.append_nil, hfresh]
  · rw [isFresh_append_singleton]
    rfl

theorem scan_blanks_append {blanks : String} (hblanks : blanks.toList.all isSeparator = true)
    (above b : String) :
    scan (above ++ "\n" ++ blanks ++ b) =
      if (scan above).isComplete then
        (scanFrom (Text.byteSize (above ++ "\n" ++ blanks).toList)
          (Text.lineAfter (above ++ "\n" ++ blanks).toList) true b.toList).prepend
            (tokensWithEnd above)
      else scan above := by
  have hrest : scan (blanks ++ b) = scanFrom (0 + Text.byteSize blanks.toList) 1 true b.toList := by
    rw [scan, String.toList_append, scanFrom_separators hblanks]
  have hline : '\n' ∉ blanks.toList := by
    intro hmem
    exact (utf8Size_of_isSeparator (List.all_eq_true.mp hblanks _ hmem)).2 rfl
  have hplace : 0 + Text.byteSize blanks.toList + (Text.byteSize above.toList + 1) =
      Text.byteSize (above ++ "\n" ++ blanks).toList := by
    have hbreak : Text.byteSize "\n".toList = 1 := rfl
    rw [String.toList_append, String.toList_append, Text.byteSize_append, Text.byteSize_append,
      hbreak]
    omega
  have hnumber : 1 + (above.toList.count '\n' + 1) =
      Text.lineAfter (above ++ "\n" ++ blanks).toList := by
    rw [String.toList_append, Text.lineAfter_append hline, String.toList_append, Text.lineAfter]
    simp
  rw [String.append_assoc, scan_append_newline above (blanks ++ b), hrest, ← scanFrom_shift, hplace,
    hnumber]
  rfl

/--
What stands above a line is scanned by itself.  If the scan is stuck there, it is stuck whatever the
line and the lines below are; if not, these are scanned by themselves too.
-/
theorem IsLineStart.scan_append {before : String} (h : IsLineStart before) :
    ((scan before).isComplete = false ∧ forall b, scan (before ++ b) = scan before) ∨
      isFresh (scan before).tokens = true ∧ forall b, scan (before ++ b) =
        (scanFrom (Text.byteSize before.toList) (Text.lineAfter before.toList) true
          b.toList).prepend (scan before).tokens := by
  rcases h with ⟨above, blanks, rfl, hblanks⟩
  have hself := scan_blanks_append hblanks above ""
  rw [String.append_empty, String.toList_empty, scanFrom] at hself
  by_cases hcomplete : (scan above).isComplete = true
  · rw [if_pos hcomplete] at hself
    have htokens : (scan (above ++ "\n" ++ blanks)).tokens = tokensWithEnd above := by
      rw [hself, Scan.prepend, List.append_nil]
    rw [htokens]
    refine Or.inr ⟨isFresh_tokensWithEnd above, fun b => ?_⟩
    rw [scan_blanks_append hblanks, if_pos hcomplete]
  · rw [if_neg hcomplete] at hself
    rw [hself]
    refine Or.inl ⟨Bool.eq_false_iff.mpr hcomplete, fun b => ?_⟩
    rw [scan_blanks_append hblanks, if_neg hcomplete]

theorem IsInSection.exists_lines {before : String} {kind : SectionKind}
    (h : IsInSection before kind) (hfresh : isFresh (scan before).tokens = true) :
    exists ts t lines e, (scan before).tokens = ts ++ t :: (lines ++ [e]) ∧
      t.kind = .keyword kind.keyword ∧ e.kind = .newline ∧
      forall u, u ∈ lines -> Parser.isKeyword u = false := by
  rcases h.opened with ⟨ts, t, lines, htokens, ht, hlines⟩
  rw [htokens] at hfresh
  rcases List.eq_nil_or_concat lines with rfl | ⟨front, e, rfl⟩
  · rw [isFresh_append_singleton, ht] at hfresh
    cases hfresh
  · rw [List.concat_eq_append] at htokens hlines hfresh
    rw [← List.cons_append, ← List.append_assoc, isFresh_append_singleton, beq_iff_eq] at hfresh
    refine ⟨ts, t, front, e, htokens, ht, hfresh, fun u hu => ?_⟩
    exact hlines u (List.mem_append_left _ hu)

theorem scanFrom_unplaced (offset offset' line : Nat) (fresh : Bool) (cs : List Char) :
    (scanFrom offset line fresh cs).unplaced = (scanFrom offset' line fresh cs).unplaced := by
  have hzero (offset : Nat) :
      (scanFrom offset line fresh cs).unplaced = (scanFrom 0 line fresh cs).unplaced := by
    have hshift := scanFrom_shift offset 0 0 line fresh cs
    rw [Nat.zero_add, Nat.add_zero] at hshift
    rw [hshift, Scan.unplaced_shift]
  rw [hzero, hzero offset']

theorem scanFrom_filled_line {offset line : Nat} {text after : List Char} {us : List Token}
    (htext : scanFrom offset line true text = ⟨us, .complete line⟩) (hus : isFresh us = false)
    (hafter : after = [] ∨ exists rest, after = '\n' :: rest) :
    let below := scanFrom offset line true after
    exists ends, Grammar.EndsAction (ends ++ below.tokens) ∧
      Parser.skipNewlines (ends ++ below.tokens) = Parser.skipNewlines below.tokens ∧
      (scanFrom offset line true (text ++ after)).unplaced =
        (below.prepend (us ++ ends)).unplaced := by
  intro below
  rcases hafter with rfl | ⟨rest, rfl⟩
  · have hbelow : below = ⟨[], .complete line⟩ := scanFrom.eq_1 _ _ _
    refine ⟨[], ?_, rfl, ?_⟩
    · rw [hbelow]
      exact Or.inl rfl
    · rw [hbelow, List.append_nil, htext, Scan.prepend, List.append_nil, List.append_nil]
  · have hbreak (offset : Nat) (fresh : Bool) : scanFrom offset line fresh ('\n' :: rest) =
        (scanFrom (offset + 1) (line + 1) true rest).prepend
          (if fresh then [] else [⟨.newline, offset, 1, line, "\n"⟩]) := by
      rw [scanFrom, if_pos rfl]
      cases fresh with
      | true => rfl
      | false => rfl
    let ends : List Token := [⟨.newline, offset + Text.byteSize text, 1, line, "\n"⟩]
    have hbelow : below = scanFrom (offset + 1) (line + 1) true rest := hbreak offset true
    have hfull : scanFrom offset line true (text ++ '\n' :: rest) =
        (scanFrom (offset + Text.byteSize text + 1) (line + 1) true rest).prepend (us ++ ends) := by
      rw [scanFrom_append_newline, htext, Scan.freshAfter_true, hus, ← Scan.prepend_prepend]
      exact congrArg (Scan.prepend us) (hbreak _ false)
    refine ⟨ends, Or.inr (Or.inl rfl), rfl, ?_⟩
    rw [hfull, hbelow]
    exact Scan.unplaced_prepend _ (scanFrom_unplaced _ _ _ _ _)

theorem Scan.isComplete_unplaced (s : Scan) : s.unplaced.isComplete = s.isComplete := by
  rcases s with ⟨ts, finish⟩
  cases finish with
  | complete line => rfl
  | stuck offset line => rfl

theorem Grammar.IsAction.isFresh_eq_false {options : Options} {inOn : Bool} {us rest : List Token}
    {a : ActionLine} (h : IsAction options inOn us rest a) : isFresh us = false := by
  rcases List.eq_nil_or_concat us with rfl | ⟨front, last, rfl⟩
  · rcases h.next?_eq [] with ⟨kind, hnext, _⟩
    cases hnext
  · rw [List.concat_eq_append] at h ⊢
    rw [isFresh_append_singleton, beq_eq_false_iff_ne]
    exact (h.areInner last (by simp)).2

theorem IsEmptyLine.readsAs {options : Options} {before after text : String} {kind : SectionKind}
    {script : Script} {us : List Token} {a : ActionLine}
    (h : IsEmptyLine options before after kind script)
    (htext : scanFrom (Text.byteSize before.toList) (Text.lineAfter before.toList) true
      text.toList = ⟨us, .complete (Text.lineAfter before.toList)⟩)
    (ha : forall rest, Grammar.EndsAction rest ->
      Grammar.IsAction options (kind == .on) us rest a) :
    ReadsAs options before text after kind script a := by
  have hscan := h.scanned
  have hparse := h.parsed
  rcases h.inSection.lineStart.scan_append with ⟨hstuck, hsame⟩ | ⟨hfresh, happend⟩
  · rw [hsame, hstuck] at hscan
    cases hscan
  rcases h.inSection.exists_lines hfresh with ⟨ts, t, lines, e, htokens, ht, he, hlines⟩
  have hafter : after.toList = [] ∨ exists rest, after.toList = '\n' :: rest := by
    rcases h.lineEnd with rfl | ⟨rest, rfl⟩
    · exact Or.inl rfl
    · exact Or.inr ⟨rest.toList, by simp⟩
  rcases scanFrom_filled_line htext (ha [] (Or.inl rfl)).isFresh_eq_false hafter with
    ⟨ends, hends, hskip, hunplaced⟩
  have hplain : (scan (before ++ after)).tokens = ts ++ t :: (lines ++ e ::
      (scanFrom (Text.byteSize before.toList) (Text.lineAfter before.toList) true
        after.toList).tokens) := by
    rw [happend, Scan.prepend, htokens]
    simp
  rw [hplain] at hparse
  -- the tokens below the line are taken from the shorter script: in the longer one they have other
  -- places, and the parser does not look at these
  rcases Script.ofTokens_gains ht he hlines hparse (ha _ hends) hskip with
    ⟨above, longer, habove, hlonger, hgains⟩
  have hsame := Scan.unplaced_prepend (scan before).tokens hunplaced
  rw [← String.toList_append, ← happend, ← String.append_assoc] at hsame
  constructor
  · rw [← Scan.isComplete_unplaced, hsame, Scan.isComplete_unplaced]
    rw [happend] at hscan
    exact hscan
  · refine ⟨above, longer, ?_, ?_, hgains⟩
    · rw [htokens]
      exact habove
    · have htexts : unplaced (scan (before ++ text ++ after)).tokens = unplaced _ :=
        congrArg Scan.tokens hsame
      rw [← Script.ofTokens_unplaced, htexts, Script.ofTokens_unplaced, ← hlonger, Scan.prepend,
        Scan.prepend, htokens]
      simp

/--
Every name that a registration accepts is one word of a script, from its first character to its
last.  On an empty line of any section but a message section, whatever the script around it is, the
name by itself is a call of the action, and so is the name with a comment or with an arrow and a
literal right behind it.  Of all schemas the call finds the one that has the name.
-/
theorem registered_names_can_be_called (σ : Type) :
    (forall (r r' : Registry σ) (s : Schema σ) (name : String),
      r.register s = (.ok (), r') -> name ∈ s.names -> forall lexer : Lexer,
        lexer.scan name =
          (⟨[⟨.word, 0, Text.byteSize name.toList, 1, name⟩], none⟩, .complete 1)) ∧
      forall (tried : List (Schema σ)) (s : Schema σ) (name : String),
        s ∈ (Registry.empty.attemptAll tried).schemas -> name ∈ s.names ->
        forall (options : Options) (before after : String) (kind : SectionKind) (script : Script),
          IsEmptyLine options before after kind script -> kind ≠ .on ->
          forall (text : String) (params : List Param),
            IsCallLine options name (Text.lineAfter before.toList) text params ->
            ReadsAs options before text after kind script
                ⟨Text.lineAfter before.toList, name, none, params⟩ ∧
              (Registry.empty.attemptAll tried).find? name = some s := by
  constructor
  · intro r r' s name hr hname lexer
    have hform := (Registry.register_eq_ok hr).1 name hname
    have hscan : scan name =
        ⟨[⟨.word, 0, Text.byteSize name.toList, 1, name⟩], .complete 1⟩ := by
      have hword := hform.scanFrom_eq (Lexeme.endsWord_of_isStop IsLineTail.nil.isStop) 0 1 true
      rw [List.append_nil, scanFrom] at hword
      exact hword
    rw [Lexer.scan_eq, hscan]
    rfl
  · intro tried s name hs hname options before after kind script hempty hkind text params htext
    have hform : IsNameOfAction name :=
      Registry.isNameOfAction_attemptAll (r := Registry.empty) (by simp [Registry.empty]) tried s hs
        name hname
    have hconsistent : (Registry.empty.attemptAll tried).IsConsistent :=
      Registry.isConsistent_empty.attemptAll tried
    have hcalled : s.isCalled name = true :=
      List.any_eq_true.mpr ⟨name, hname, Text.sameName_iff.mpr rfl⟩
    rcases htext.exists_tokens hform (Text.byteSize before.toList) with ⟨us, htokens, haction⟩
    have hplain : (kind == .on) = false := beq_eq_false_iff_ne.mpr hkind
    constructor
    · apply hempty.readsAs htokens
      rw [hplain]
      exact haction
    · exact hconsistent.find?_eq_some_iff.mpr ⟨hs, hcalled⟩

theorem registered_names_can_be_called_hyphen :
    let before := "@machine m->b\n@state b\n@enter\nlog x\n@run\n->b # up\n\t"
    let after := "\n  $pause 2\n@on k: ->b"
    let schema : Schema Unit := Schema.ofAction "a-" fun c => ⟨.done, c, []⟩
    exists script, IsEmptyLine {} before after .run script ∧
      (forall lexer : Lexer,
        lexer.scan "a-" = (⟨[⟨.word, 0, 2, 1, "a-"⟩], none⟩, .complete 1)) ∧
      ReadsAs {} before "a-->'b c'\r" after .run script
        ⟨7, "a-", none, [{ line := 7, name := "$default", op := .transition, value := "b c" }]⟩ ∧
      ReadsAs {} before "a-#> b" after .run script ⟨7, "a-", none, []⟩ ∧
      (Registry.empty.attemptAll [schema]).find? "a-" = some schema := by
  intro before after schema
  have hok : (Registry.empty.register schema).1.isOk = true := by decide +kernel
  have hregister : Registry.empty.register schema = (.ok (), Registry.empty.appended schema) := by
    rcases Registry.register_cases Registry.empty schema with ⟨e, herror⟩ | ⟨_, hrun⟩
    · rw [herror] at hok
      cases hok
    · exact hrun
  have hmem : schema ∈ (Registry.empty.attemptAll [schema]).schemas := by
    show schema ∈ (Registry.empty.register schema).2.schemas
    rw [hregister]
    exact List.mem_singleton_self _
  have heval : (Script.ofTokens {} (scan (before ++ after)).tokens).toOption.map
      (fun script => script.states.length) = some 1 := by
    decide +kernel
  rcases exists_of_toOption_map_eq_some heval with ⟨script, hscript, _⟩
  have hempty : IsEmptyLine {} before after .run script := {
    inSection := {
      lineStart := ⟨"@machine m->b\n@state b\n@enter\nlog x\n@run\n->b # up", "\t", rfl, by decide⟩
      opened := ⟨(scan before).tokens.take 13, ⟨.keyword .run, 36, 4, 5, "@run"⟩,
        (scan before).tokens.drop 14, by decide +kernel, rfl, by decide +kernel⟩ }
    lineEnd := Or.inr ⟨"  $pause 2\n@on k: ->b", rfl⟩
    scanned := by decide +kernel
    parsed := hscript }
  have hline : Text.lineAfter before.toList = 7 := by decide +kernel
  rcases registered_names_can_be_called Unit with ⟨hwords, hcalls⟩
  have hword := hwords Registry.empty _ schema "a-" hregister (by decide)
  have hcall := hcalls [schema] schema "a-" hmem (by decide) {} before after .run script hempty
    (by decide)
  rw [hline] at hcall
  have harrow : IsCallLine {} "a-" 7 "a-->'b c'\r" _ :=
    @IsCallLine.arrow {} "a-" 7 "" "'b c'" "\r" ⟨.quoted, 1, ['b', ' ', 'c'], []⟩
      (by decide) (by decide) rfl rfl (.separator (by decide) .nil)
  have hcomment : IsCallLine {} "a-" 7 "a-#> b" [] :=
    @IsCallLine.bare {} "a-" 7 "#> b" (.comment (by decide))
  exact ⟨script, hempty, hword, (hcall _ _ harrow).1, (hcall _ _ hcomment).1,
    (hcall _ _ hcomment).2⟩

end BehaviorScript
