import BehaviorScript.CommandLine.Report
import BehaviorScript.Proofs.Partition
import BehaviorScript.Proofs.Stages

/-!
# Diagnostics point at lines of the source

A scan counts line feeds, and a report cuts the source at them and drops carriage
returns.  The two agree at every place that has a character behind it: the line with the
counted number is the line around that place.  Every diagnostic is on the line of a token,
or of the place where the scan got stuck, or on the first line if there is neither, so a
report of a source that is not empty always finds a line to quote.
-/

namespace BehaviorScript

/-!
## Lines of a text
-/

namespace Text

/--
How a line ends, and what comes after it: a line feed, a carriage return and a line feed, or the
end of the text.  A carriage return right before a line feed is no part of the line.
-/
inductive LineEnding (line : List Char) : List Char -> List Char -> Prop where
  | feed {after : List Char} : line.getLast? ≠ some '\r' -> LineEnding line ['\n'] after
  | returnFeed {after : List Char} : LineEnding line ['\r', '\n'] after
  | missing : LineEnding line [] []

def IsLineAt (cs : List Char) (offset : Nat) (line : List Char) : Prop :=
  exists before ending after, cs = before ++ line ++ ending ++ after ∧
    (before = [] ∨ before.getLast? = some '\n') ∧ '\n' ∉ line ∧ LineEnding line ending after ∧
    byteSize before ≤ offset ∧ offset < byteSize (before ++ line ++ ending)

end Text

namespace CommandLine

theorem splitLines_ne_nil (cs : List Char) : splitLines cs ≠ [] := by
  cases cs with
  | nil => simp [splitLines]
  | cons c cs =>
      rw [splitLines]
      split
      · simp
      · split
        · simp
        · simp

theorem splitLines_cons_of_ne {c : Char} (hc : c ≠ '\n') {cs line : List Char}
    {rest : List (List Char)} (h : splitLines cs = line :: rest) :
    splitLines (c :: cs) = (c :: line) :: rest := by
  rw [splitLines, if_neg hc, h]

theorem splitLines_of_not_mem {cs : List Char} (h : '\n' ∉ cs) : splitLines cs = [cs] := by
  induction cs with
  | nil => rfl
  | cons c cs ih =>
      rw [List.mem_cons, not_or] at h
      rcases h with ⟨hc, hcs⟩
      exact splitLines_cons_of_ne (Ne.symm hc) (ih hcs)

theorem splitLines_append_newline (cs ds : List Char) :
    splitLines (cs ++ '\n' :: ds) = splitLines cs ++ splitLines ds := by
  induction cs with
  | nil => simp [splitLines]
  | cons c cs ih =>
      by_cases hc : c = '\n'
      · simp [splitLines, hc, ih]
      · cases hsplit : splitLines cs with
        | nil => exact absurd hsplit (splitLines_ne_nil cs)
        | cons line rest =>
            rw [hsplit] at ih
            rw [List.cons_append, splitLines_cons_of_ne hc ih, splitLines_cons_of_ne hc hsplit]
            rfl

theorem length_splitLines (cs : List Char) : (splitLines cs).length = Text.lineAfter cs := by
  induction cs with
  | nil => rfl
  | cons c cs ih =>
      by_cases hc : c = '\n'
      · simp [splitLines, hc, ih, Text.lineAfter, Nat.add_comm]
      · cases hsplit : splitLines cs with
        | nil => exact absurd hsplit (splitLines_ne_nil cs)
        | cons line rest =>
            rw [splitLines_cons_of_ne hc hsplit, List.length_cons, ← List.length_cons, ← hsplit, ih]
            simp [Text.lineAfter, hc]

theorem sourceLines_of_not_mem {cs : List Char} (h : '\n' ∉ cs) (hne : cs ≠ []) :
    sourceLines cs = [cs] := by
  simp [sourceLines, splitLines_of_not_mem h, hne]

theorem sourceLines_append_newline (cs ds : List Char) :
    sourceLines (cs ++ '\n' :: ds) = (splitLines cs).map dropReturn ++ sourceLines ds := by
  have hne := splitLines_ne_nil ds
  simp only [sourceLines]
  rw [splitLines_append_newline, List.dropLast_append_of_ne_nil hne,
    List.getLast?_append_of_ne_nil _ hne, List.map_append, List.append_assoc]

theorem getElem?_sourceLines_append {before : List Char}
    (h : before = [] ∨ before.getLast? = some '\n') (cs : List Char) :
    (sourceLines (before ++ cs))[before.count '\n']? = (sourceLines cs)[0]? := by
  rcases h with rfl | hlast
  · rfl
  · rcases List.getLast?_eq_some_iff.mp hlast with ⟨init, rfl⟩
    have hlength : ((splitLines init).map dropReturn).length = (init ++ ['\n']).count '\n' := by
      rw [List.length_map, length_splitLines, Text.lineAfter]
      simp [Nat.add_comm]
    rw [List.append_assoc, List.singleton_append, sourceLines_append_newline, ← hlength,
      List.getElem?_append_right (Nat.le_refl _), Nat.sub_self]

theorem getElem?_sourceLines_zero {body : List Char} (hbody : '\n' ∉ body) (after : List Char) :
    (sourceLines (body ++ '\n' :: after))[0]? = some (dropReturn body) := by
  rw [sourceLines_append_newline, splitLines_of_not_mem hbody]
  rfl

end CommandLine

namespace Text

/-!
## The line around a place
-/

theorem exists_lineStart (cs : List Char) :
    exists before column, cs = before ++ column ∧
      (before = [] ∨ before.getLast? = some '\n') ∧ '\n' ∉ column := by
  induction cs using List.reverseRecOn with
  | nil => exact ⟨[], [], rfl, Or.inl rfl, List.not_mem_nil⟩
  | append_singleton cs c ih =>
      by_cases hc : c = '\n'
      · exact ⟨cs ++ [c], [], by simp, Or.inr (by simp [hc]), List.not_mem_nil⟩
      · rcases ih with ⟨before, column, rfl, hbefore, hcolumn⟩
        refine ⟨before, column ++ [c], by simp, hbefore, ?_⟩
        simpa [hcolumn] using Ne.symm hc

theorem exists_lineEnd (cs : List Char) :
    exists body rest, cs = body ++ rest ∧ '\n' ∉ body ∧
      (rest = [] ∨ exists after, rest = '\n' :: after) := by
  induction cs with
  | nil => exact ⟨[], [], rfl, List.not_mem_nil, Or.inl rfl⟩
  | cons c cs ih =>
      by_cases hc : c = '\n'
      · exact ⟨[], c :: cs, rfl, List.not_mem_nil, Or.inr ⟨cs, by rw [hc]⟩⟩
      · rcases ih with ⟨body, rest, rfl, hbody, hrest⟩
        refine ⟨c :: body, rest, rfl, ?_, hrest⟩
        simpa [hbody] using Ne.symm hc

theorem isLineAt_dropReturn {before body after : List Char} {offset : Nat}
    (hbefore : before = [] ∨ before.getLast? = some '\n') (hbody : '\n' ∉ body)
    (hle : byteSize before ≤ offset) (hlt : offset < byteSize (before ++ body ++ ['\n'])) :
    IsLineAt (before ++ body ++ '\n' :: after) offset (CommandLine.dropReturn body) := by
  unfold CommandLine.dropReturn
  split
  · next hreturn =>
      rcases List.getLast?_eq_some_iff.mp hreturn with ⟨line, rfl⟩
      rw [List.dropLast_concat]
      refine ⟨before, ['\r', '\n'], after, by simp, hbefore, ?_, LineEnding.returnFeed, hle, ?_⟩
      · exact fun hmem => hbody (List.mem_append_left _ hmem)
      · simpa using hlt
  · next hfeed =>
      exact ⟨before, ['\n'], after, by simp, hbefore, hbody, LineEnding.feed hfeed, hle, hlt⟩

theorem exists_isLineAt (before : List Char) (c : Char) (after : List Char) :
    exists line, (CommandLine.sourceLines (before ++ c :: after))[before.count '\n']? = some line ∧
      IsLineAt (before ++ c :: after) (byteSize before) line := by
  rcases exists_lineStart before with ⟨start, column, rfl, hstart, hcolumn⟩
  have hcount : (start ++ column).count '\n' = start.count '\n' := by
    rw [List.count_append, List.count_eq_zero_of_not_mem hcolumn, Nat.add_zero]
  have hle : byteSize start ≤ byteSize (start ++ column) := by
    rw [byteSize_append]
    exact Nat.le_add_right _ _
  rw [hcount, List.append_assoc, CommandLine.getElem?_sourceLines_append hstart]
  rcases exists_lineEnd (c :: after) with ⟨body, rest, hbody, hfree, rfl | ⟨tail, rfl⟩⟩
  -- the last line has no line feed behind it, and the character at the place is on it
  · have hline : '\n' ∉ column ++ c :: after := by
      rw [hbody, List.append_nil, List.mem_append, not_or]
      exact ⟨hcolumn, hfree⟩
    refine ⟨column ++ c :: after, ?_, start, [], [], by simp, hstart, hline, LineEnding.missing,
      hle, ?_⟩
    · rw [CommandLine.sourceLines_of_not_mem hline (by simp)]
      rfl
    · have hpos := c.utf8Size_pos
      simp only [byteSize_append, byteSize_cons, byteSize_nil]
      omega
  · have hline : '\n' ∉ column ++ body := by
      rw [List.mem_append, not_or]
      exact ⟨hcolumn, hfree⟩
    rw [hbody, ← List.append_assoc column]
    refine ⟨_, CommandLine.getElem?_sourceLines_zero hline tail, ?_⟩
    rw [← List.append_assoc start]
    apply isLineAt_dropReturn hstart hline hle
    simp only [byteSize_append, byteSize_cons, utf8Size_newline]
    omega

end Text

/-!
## Places that diagnostics point at
-/

/--
The places that a scan tells of: where its tokens start, where it got stuck, and the start of the
source if there is neither.
-/
inductive Scan.HasPlace (s : Scan) : Nat -> Nat -> Prop where
  | token {t : Token} : t ∈ s.tokens -> HasPlace s t.start t.line
  | stuck {offset line : Nat} : s.stuck? = some (offset, line) -> HasPlace s offset line
  | start : s.tokens = [] -> s.stuck? = none -> HasPlace s 0 1

theorem Scan.hasPlace_of_mem_lines {s : Scan} {line : Nat} (h : line ∈ s.tokens.map Token.line) :
    exists offset, s.HasPlace offset line := by
  rcases List.mem_map.mp h with ⟨t, ht, rfl⟩
  exact ⟨t.start, HasPlace.token ht⟩

theorem Token.IsPlaced.exists_cons {cs : List Char} {t : Token} (h : t.IsPlaced cs)
    (hlt : t.start < Text.byteSize cs) :
    exists before c after, cs = before ++ c :: after ∧ t.start = Text.byteSize before ∧
      t.line = Text.lineAfter before := by
  rcases h with ⟨before, after, hcs, hstart, _, hline⟩
  cases hrest : t.text.toList ++ after with
  | nil =>
      rw [hcs, List.append_assoc, hrest, List.append_nil, hstart] at hlt
      exact absurd hlt (Nat.lt_irrefl _)
  | cons c rest =>
      rw [List.append_assoc, hrest] at hcs
      exact ⟨before, c, rest, hcs, hstart, hline⟩

theorem Scan.HasPlace.exists_cons {source : String} {offset line : Nat}
    (h : (scan source).HasPlace offset line) (hsource : source ≠ "") :
    exists before c after, source.toList = before ++ c :: after ∧
      offset = Text.byteSize before ∧ line = Text.lineAfter before := by
  rcases scan_passes source with ⟨passed, rest, hsplit, hpassed, hend⟩
  cases h with
  | @token t ht =>
      have hstands := (hpassed.stands t ht).append rest
      rw [hsplit]
      exact hstands.isPlaced.exists_cons hstands.start_lt
  | stuck hstuck =>
      unfold Scan.stuck? at hstuck
      generalize (scan source).finish = finish at hend hstuck
      cases hend with
      | complete => cases hstuck
      | stuck =>
          cases hstuck
          exact ⟨passed, _, _, hsplit, rfl, rfl⟩
  | start =>
      cases hcs : source.toList with
      | nil => exact absurd (String.toList_eq_nil_iff.mp hcs) hsource
      | cons c cs => exact ⟨[], c, cs, rfl, rfl, rfl⟩

theorem Compilation.Ends.hasPlace {σ : Type} {options : Options} {registry : Registry σ}
    {source : String} {c : Compilation σ} {e : CompileError}
    (h : Ends options registry source c) (hresult : c.result = .error e) :
    exists offset, (scan source).HasPlace offset e.line := by
  cases h with
  | @stuck offset line hfinish =>
      cases hresult
      have hstuck : (scan source).stuck? = some (offset, line) := by
        simp [Scan.stuck?, hfinish]
      exact ⟨offset, Scan.HasPlace.stuck hstuck⟩
  | unparsed hfinish hparse =>
      cases hresult
      rcases (Script.ofTokens_eq_error hparse).2 with ⟨hnil, hline⟩ | hmem
      · have hstuck : (scan source).stuck? = none := by
          simp [Scan.stuck?, hfinish]
        rw [hline]
        exact ⟨0, Scan.HasPlace.start hnil hstuck⟩
      · exact Scan.hasPlace_of_mem_lines hmem
  | unresolved _ hparse hresolve =>
      cases hresult
      have hlines := (Script.ofTokens_eq_ok_iff.mp hparse).lines_subset
      exact Scan.hasPlace_of_mem_lines (hlines (Script.resolve_eq_error hresolve).2)
  | unbuilt _ hparse hresolve hbuild =>
      cases hresult
      have hlines := (Script.ofTokens_eq_ok_iff.mp hparse).lines_subset
      have hbuilt := Script.build_eq_error hbuild fun a x ha hx =>
        Script.isNumbered_of_resolve hresolve ha hx
      rw [Script.lineNumbers_of_resolve hresolve] at hbuilt
      exact Scan.hasPlace_of_mem_lines (hlines hbuilt.2)
  | built => cases hresult

/--
A diagnostic of a source that is not empty is on the line of a token, of the place where the scan
got stuck, or on the first line if there is neither.  The report finds that line in the
source, and it is the one on which all these places lie.
-/
theorem diagnostic_on_line_of_source {σ : Type} (options : Options) (registry : Registry σ)
    (workspace : Workspace) (source : String) (e : CompileError) (hsource : source ≠ "")
    (hresult : (Compilation.run options registry workspace source).1.result = .error e) :
    (exists offset, (scan source).HasPlace offset e.line) ∧
      1 ≤ e.line ∧ e.line ≤ 1 + source.toList.count '\n' ∧
      exists line, (CommandLine.sourceLines source.toList)[e.line - 1]? = some line ∧
        forall offset, (scan source).HasPlace offset e.line ->
          Text.IsLineAt source.toList offset line := by
  have hends := Compilation.run_ends options registry workspace source
  rcases hends.hasPlace hresult with ⟨offset, hplace⟩
  have hline : forall offset, (scan source).HasPlace offset e.line ->
      exists line, (CommandLine.sourceLines source.toList)[e.line - 1]? = some line ∧
        Text.IsLineAt source.toList offset line := by
    intro offset hplace
    rcases hplace.exists_cons hsource with ⟨before, c, after, hcs, rfl, hnumber⟩
    rw [hcs, hnumber, Text.lineAfter, Nat.add_sub_cancel_left]
    exact Text.exists_isLineAt before c after
  rcases hplace.exists_cons hsource with ⟨before, c, after, hcs, -, hnumber⟩
  rcases hline offset hplace with ⟨line, hlookup, -⟩
  refine ⟨⟨offset, hplace⟩, ?_, ?_, line, hlookup, ?_⟩
  · rw [hnumber]
    exact Nat.le_add_right _ _
  · rw [hnumber, hcs, List.count_append]
    exact Nat.add_le_add_left (Nat.le_add_right _ _) _
  · intro other hother
    rcases hline other hother with ⟨line', hlookup', hat⟩
    rw [hlookup] at hlookup'
    cases hlookup'
    exact hat

theorem diagnostic_on_line_of_source_stop :
    (compile {} (Registry.empty : Registry Unit) "#\r\n\r\n@machine m stop\r\n").result =
        .error (.unknownAction 3 "stop") ∧
      (scan "#\r\n\r\n@machine m stop\r\n").HasPlace 16 3 ∧
      (CommandLine.sourceLines "#\r\n\r\n@machine m stop\r\n".toList)[2]? =
        some "@machine m stop".toList ∧
      Text.IsLineAt "#\r\n\r\n@machine m stop\r\n".toList 16 "@machine m stop".toList := by
  have heval : (compile {} (Registry.empty : Registry Unit)
      "#\r\n\r\n@machine m stop\r\n").result.map (fun _ => ()) =
        .error (.unknownAction 3 "stop") := by
    decide +kernel
  have htoken : (⟨.word, 16, 4, 3, "stop"⟩ : Token) ∈
      (scan "#\r\n\r\n@machine m stop\r\n").tokens := by
    decide +kernel
  have hline : (CommandLine.sourceLines "#\r\n\r\n@machine m stop\r\n".toList)[2]? =
      some "@machine m stop".toList := by
    decide +kernel
  have hresult := except_map_eq_error heval
  have hplace := Scan.HasPlace.token htoken
  rcases diagnostic_on_line_of_source {} (Registry.empty : Registry Unit) {} _ _
    (by decide) hresult with ⟨-, -, -, line, hlookup, hat⟩
  cases hline.symm.trans hlookup
  exact ⟨hresult, hplace, hline, hat 16 hplace⟩

end BehaviorScript
