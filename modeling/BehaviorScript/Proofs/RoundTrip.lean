import BehaviorScript.Proofs.Basic
import BehaviorScript.Proofs.Parsing
import BehaviorScript.Proofs.PrintedText
import Mathlib.Data.List.Nodup

/-!
# Printed scripts are read again

The tokens of a printed script derive the script from the grammar, line by line, and the
parser gives what the grammar derives.  So scanning and parsing take back what printing
wrote, with the lines that it was printed on.
-/

namespace BehaviorScript

namespace Grammar

variable {options : Options} {n : Nat} {ts rest : List Token}

/-!
## Parameters and actions
-/

theorem isParam_of_matches {x : Param} (hx : x.IsPrintable options)
    (h : List.Forall₂ (Piece.Matches n) (x.pieces options) ts)
    (hrest : next? rest ≠ some (.operator .assign)) :
    IsParam options ts rest (x.atLine n) := by
  rcases x with ⟨line, name, op, value, resolved⟩
  have hresolved : resolved = none := hx.resolved
  subst hresolved
  unfold Param.pieces at h
  by_cases hname : name = options.defaultParam
  · subst hname
    cases op with
    | assign =>
        simp only [if_true, List.forall₂_cons_left_iff, List.forall₂_nil_left_iff] at h
        rcases h with ⟨t, _, ht, rfl, rfl⟩
        have hparam : IsParam options [t] rest _ := IsParam.quoted ht.kind hrest
        rw [ht.line, ht.text] at hparam
        exact hparam
    | transition =>
        simp only [if_true, List.forall₂_cons_left_iff, List.forall₂_nil_left_iff] at h
        rcases h with ⟨arrow, _, harrow, ⟨t, _, ht, rfl, rfl⟩, rfl⟩
        have hparam : IsParam options [arrow, t] rest _ :=
          IsParam.arrow harrow.kind (by rw [ht.kind]; rfl)
        rw [harrow.line, ht.text] at hparam
        exact hparam
  · simp only [if_neg hname, List.forall₂_cons_left_iff, List.forall₂_nil_left_iff] at h
    rcases h with ⟨label, _, hlabel, ⟨operator, _, hop, ⟨t, _, ht, rfl, rfl⟩, rfl⟩, rfl⟩
    have hparam : IsParam options [label, operator, t] rest _ :=
      IsParam.labeled hlabel.kind hop.kind (by rw [ht.kind]; rfl)
    rw [hlabel.line, hlabel.text, ht.text] at hparam
    exact hparam

theorem next?_of_params {params : List Param}
    (h : List.Forall₂ (Piece.Matches n) (params.flatMap (Param.pieces options)) ts)
    (hrest : next? rest = some .newline) :
    next? (ts ++ rest) ≠ some (.operator .assign) := by
  cases params with
  | nil =>
      cases h
      rw [List.nil_append, hrest]
      simp
  | cons x params =>
      rw [List.flatMap_cons] at h
      rcases exists_of_forall₂_append h with ⟨us, vs, rfl, hus, _⟩
      unfold Param.pieces at hus
      split at hus
      · split at hus
        · cases hus with
          | cons ht _ => simp [next?, ht.kind, Piece.kind]
        · cases hus with
          | cons ht _ => simp [next?, ht.kind, Piece.kind]
      · cases hus with
        | cons ht _ => simp [next?, ht.kind, Piece.kind]

theorem areParams_of_matches {params : List Param}
    (hparams : forall x, x ∈ params -> x.IsPrintable options)
    (h : List.Forall₂ (Piece.Matches n) (params.flatMap (Param.pieces options)) ts)
    (hrest : next? rest = some .newline) :
    AreParams options ts rest (params.map (Param.atLine n)) := by
  induction params generalizing ts with
  | nil =>
      cases h
      exact AreParams.nil
  | cons x params ih =>
      rw [List.flatMap_cons] at h
      rcases exists_of_forall₂_append h with ⟨us, vs, rfl, hus, hvs⟩
      have hfirst := isParam_of_matches (hparams x List.mem_cons_self) hus
        (next?_of_params hvs hrest)
      exact AreParams.cons hfirst (ih (fun y hy => hparams y (List.mem_cons_of_mem _ hy)) hvs)

theorem isCommand_of_matches {inOn : Bool} {a : ActionLine} (ha : a.IsPrintable options inOn)
    (h : List.Forall₂ (Piece.Matches n) (a.commandPieces options) ts)
    (hrest : next? rest = some .newline) :
    IsCommand options ts rest n a.name (a.params.map (Param.atLine n)) := by
  unfold ActionLine.commandPieces at h
  split at h
  · next target harrow =>
      rcases ActionLine.arrow?_eq_some harrow with ⟨hname, x, hparams, hx, hop, rfl⟩
      have hresolved := (ha.params x (hparams ▸ List.mem_cons_self)).resolved
      simp only [List.forall₂_cons_left_iff, List.forall₂_nil_left_iff] at h
      rcases h with ⟨arrow, _, harrow, ⟨t, _, ht, rfl, rfl⟩, rfl⟩
      have hcommand : IsCommand options [arrow, t] rest _ _ _ :=
        IsCommand.arrow harrow.kind (by rw [ht.kind]; rfl)
      rw [harrow.line, ht.line, ht.text] at hcommand
      have hparam : x.atLine n =
          { line := n, name := options.defaultParam, op := .transition, value := x.value } := by
        rw [Param.atLine, hx, hop, hresolved]
      rw [hname, hparams, List.map_singleton, hparam]
      exact hcommand
  · cases h with
    | cons hname hparams =>
        have hcommand := IsCommand.call hname.kind (areParams_of_matches ha.params hparams hrest)
        rw [hname.line, hname.text] at hcommand
        exact hcommand

theorem isAction_of_matches {inOn : Bool} {a : ActionLine} (ha : a.IsPrintable options inOn)
    (h : List.Forall₂ (Piece.Matches n) (a.pieces options) ts)
    (hrest : next? rest = some .newline) :
    IsAction options inOn ts rest (a.atLine n) := by
  have hends : EndsAction rest := Or.inr (Or.inl hrest)
  have hmessage := ha.message
  rcases exists_of_forall₂_append h with ⟨us, vs, rfl, hus, hvs⟩
  have hcommand := isCommand_of_matches ha hvs hrest
  unfold ActionLine.keyPieces at hus
  unfold ActionLine.atLine
  cases hkey : a.message with
  | none =>
      rw [hkey] at hus hmessage
      cases hus
      cases hmessage
      exact IsAction.plain hcommand hends
  | some key =>
      rw [hkey] at hus hmessage
      cases hmessage
      simp only [List.forall₂_cons_left_iff, List.forall₂_nil_left_iff] at hus
      rcases hus with ⟨t, _, ht, ⟨colon, _, hcolon, rfl, rfl⟩, rfl⟩
      have haction : IsAction options true (t :: colon :: vs) rest _ :=
        IsAction.keyed (by rw [ht.kind]; rfl) hcolon.kind hcommand hends
      rw [ht.line, ht.text] at haction
      exact haction

/-!
## Sections and states
-/

theorem next?_of_spelled {lines : List (List Piece)} (h : Spelled n lines ts)
    (hrest : next? rest = some .newline) :
    next? (ts ++ rest) = some .newline := by
  cases h with
  | nil => exact hrest
  | cons hnl _ _ => simp [next?, hnl]

theorem spelled_append {lines lines' : List (List Piece)} (h : Spelled n (lines ++ lines') ts) :
    exists us vs, ts = us ++ vs ∧ Spelled n lines us ∧ Spelled (n + lines.length) lines' vs := by
  induction lines generalizing n ts with
  | nil => exact ⟨[], ts, rfl, Spelled.nil, h⟩
  | cons ps lines ih =>
      cases h with
      | @cons _ nl _ _ us' _ hnl hts hrest =>
          rcases ih hrest with ⟨us, vs, rfl, hus, hvs⟩
          refine ⟨nl :: us' ++ us, vs, by simp, Spelled.cons hnl hts hus, ?_⟩
          rw [List.length_cons, Nat.add_comm lines.length 1, ← Nat.add_assoc]
          exact hvs

theorem areNewlines_singleton {nl : Token} (h : nl.kind = .newline) : AreNewlines [nl] := by
  intro t ht
  rw [List.mem_singleton.mp ht]
  exact h

theorem areActions_of_spelled {inOn : Bool} {as : List ActionLine}
    (has : forall a, a ∈ as -> a.IsPrintable options inOn)
    (h : Spelled n (as.map (ActionLine.pieces options)) ts)
    (hrest : next? rest = some .newline) :
    AreActions options inOn ts rest (ActionLine.atLines (n + 1) as) := by
  induction as generalizing n ts with
  | nil =>
      cases h
      exact AreActions.nil
  | cons a as ih =>
      cases h with
      | cons hnl hts hus =>
          have hfirst := isAction_of_matches (has a List.mem_cons_self) hts
            (next?_of_spelled hus hrest)
          exact AreActions.cons (areNewlines_singleton hnl) hfirst
            (ih (fun b hb => has b (List.mem_cons_of_mem _ hb)) hus)

theorem areSections_of_spelled {sections : List (SectionKind × Block)}
    (hsections : forall entry, entry ∈ sections -> forall a, a ∈ entry.2.actions ->
      a.IsPrintable options (entry.1 == .on))
    (h : Spelled n (sections.flatMap fun (kind, block) =>
      StateBlock.sectionLines options kind block) ts)
    (hrest : next? rest = some .newline) :
    AreSections options ts rest (StateBlock.sectionsAt (n + 1) sections) := by
  induction sections generalizing n ts with
  | nil =>
      cases h
      exact AreSections.nil
  | cons first sections ih =>
      rcases first with ⟨kind, block⟩
      rw [List.flatMap_cons] at h
      rcases spelled_append h with ⟨us, vs, rfl, hus, hvs⟩
      cases hus with
      | @cons _ nl _ _ _ ws hnl hkeyword hactions =>
          simp only [List.forall₂_cons_left_iff, List.forall₂_nil_left_iff] at hkeyword
          rcases hkeyword with ⟨t, _, ht, rfl, rfl⟩
          have hfirst := areActions_of_spelled (hsections (kind, block) List.mem_cons_self)
            hactions (next?_of_spelled hvs hrest)
          have hlater := ih
            (fun entry hentry => hsections entry (List.mem_cons_of_mem _ hentry)) hvs
          have hheight : n + (StateBlock.sectionLines options kind block).length + 1 =
              n + 1 + (block.actions.length + 1) := by
            rw [StateBlock.sectionLines, List.length_cons, List.length_map]
            omega
          rw [hheight] at hlater
          have hcons := AreSections.cons (areNewlines_singleton hnl) ht.kind hfirst hlater
          rw [ht.line] at hcons
          exact hcons

theorem map_fst_sectionsAt (m : Nat) (sections : List (SectionKind × Block)) :
    (StateBlock.sectionsAt m sections).map Prod.fst = sections.map Prod.fst := by
  induction sections generalizing m with
  | nil => rfl
  | cons first sections ih =>
      rcases first with ⟨kind, block⟩
      simp only [StateBlock.sectionsAt, List.map_cons, ih]

theorem nodup_map_fst_sections (b : StateBlock) : (b.sections.map Prod.fst).Nodup := by
  have hkinds : b.sections.map Prod.fst =
      [SectionKind.enter, .exit, .run, .on].filter fun kind => (b.get? kind).isSome := by
    unfold StateBlock.sections
    generalize [SectionKind.enter, .exit, .run, .on] = kinds
    induction kinds with
    | nil => rfl
    | cons kind kinds ih =>
        cases hget : b.get? kind with
        | none => simp [hget, ih]
        | some block => simp [hget, ih]
  rw [hkinds]
  apply List.Nodup.filter
  decide

theorem isState_of_spelled {b : StateBlock} (hb : b.IsPrintable options)
    (h : Spelled n (b.lines options) ts) (hrest : next? rest = some .newline) :
    exists nl us, ts = nl :: us ∧ nl.kind = .newline ∧
      IsState options us rest (b.atLine (n + 1)) := by
  cases h with
  | @cons _ nl _ _ _ ws hnl hname hsections =>
      simp only [List.forall₂_cons_left_iff, List.forall₂_nil_left_iff] at hname
      rcases hname with ⟨t, _, ht, ⟨name, _, hname, rfl, rfl⟩, rfl⟩
      have hderived := areSections_of_spelled hb.actions hsections hrest
      have hstate := IsState.mk ht.kind areNewlines_nil hname.kind hderived
        (by rw [map_fst_sectionsAt]; exact nodup_map_fst_sections b)
      rw [ht.line, hname.text] at hstate
      exact ⟨nl, _, rfl, hnl, hstate⟩

theorem areStates_of_spelled {states : List StateBlock}
    (hstates : forall b, b ∈ states -> b.IsPrintable options)
    (h : Spelled n (states.flatMap (StateBlock.lines options)) ts)
    (hrest : next? rest = some .newline) :
    AreStates options ts rest (StateBlock.atLines options (n + 1) states) := by
  induction states generalizing n ts with
  | nil =>
      cases h
      exact AreStates.nil
  | cons b states ih =>
      rw [List.flatMap_cons] at h
      rcases spelled_append h with ⟨us, vs, rfl, hus, hvs⟩
      rcases isState_of_spelled (hstates b List.mem_cons_self) hus (next?_of_spelled hvs hrest) with
        ⟨nl, ws, rfl, hnl, hstate⟩
      have hlater := ih (fun c hc => hstates c (List.mem_cons_of_mem _ hc)) hvs
      rw [Nat.add_right_comm] at hlater
      exact AreStates.cons (areNewlines_singleton hnl) hstate hlater

theorem isFile_of_printed {s : Script} (hs : s.IsPrintable options) {us : List Token}
    {nl : Token}
    (hfirst : List.Forall₂ (Piece.Matches 1)
      (.keyword .machine :: .word s.name :: s.action.pieces options) ts)
    (hstates : Spelled 1 (s.states.flatMap (StateBlock.lines options)) us)
    (hnl : nl.kind = .newline) :
    IsFile options (ts ++ us ++ [nl]) (s.numbered options) := by
  have hend : next? [nl] = some .newline := by simp [next?, hnl]
  simp only [List.forall₂_cons_left_iff] at hfirst
  rcases hfirst with ⟨t, _, ht, ⟨name, vs, hname, haction, rfl⟩, rfl⟩
  have hfile := IsFile.mk areNewlines_nil ht.kind areNewlines_nil hname.kind
    (isAction_of_matches hs.action haction (next?_of_spelled hstates hend))
    (areStates_of_spelled hs.states hstates hend) (areNewlines_singleton hnl)
  rw [ht.line, hname.text] at hfile
  exact hfile

end Grammar

/-!
## Lines make no difference
-/

theorem ActionLine.atLine_atLine (m n : Nat) (a : ActionLine) :
    (a.atLine n).atLine m = a.atLine m := by
  simp [atLine, Param.atLine]

theorem ActionLine.map_atLine_atLines (m n : Nat) (as : List ActionLine) :
    (atLines n as).map (atLine m) = as.map (atLine m) := by
  induction as generalizing n with
  | nil => rfl
  | cons a as ih => rw [atLines, List.map_cons, List.map_cons, atLine_atLine, ih]

theorem StateBlock.lookup_sectionsAt (n : Nat) (kind : SectionKind)
    (sections : List (SectionKind × Block)) :
    ((sectionsAt n sections).lookup kind).map Block.eraseLines =
      (sections.lookup kind).map Block.eraseLines := by
  induction sections generalizing n with
  | nil => rfl
  | cons first sections ih =>
      rcases first with ⟨kind', block⟩
      rw [sectionsAt, List.lookup_cons, List.lookup_cons]
      split
      · simp [Block.eraseLines, ActionLine.map_atLine_atLines]
      · exact ih _

theorem StateBlock.lookup_sections (b : StateBlock) (kind : SectionKind) :
    b.sections.lookup kind = b.get? kind := by
  have hlookup : forall kinds : List SectionKind,
      (kinds.filterMap fun k => (b.get? k).map fun block => (k, block)).lookup kind =
        if kind ∈ kinds then b.get? kind else none := by
    intro kinds
    induction kinds with
    | nil => rfl
    | cons k kinds ih =>
        by_cases hk : kind = k
        · subst hk
          cases hget : b.get? kind with
          | none => simp [hget, ih]
          | some block => simp [hget]
        · cases hget : b.get? k with
          | none => simp [hget, ih, hk]
          | some block =>
              have hne : (kind == k) = false := by simpa using hk
              simp [hget, ih, hk, List.lookup_cons, hne]
  rw [sections, hlookup, if_pos]
  cases kind <;> decide

theorem StateBlock.eraseLines_atLine (n : Nat) (b : StateBlock) :
    (b.atLine n).eraseLines = b.eraseLines := by
  simp only [eraseLines, atLine, Grammar.stateOf, lookup_sectionsAt, lookup_sections]
  rfl

theorem Script.eraseLines_numbered (options : Options) (s : Script) :
    (s.numbered options).eraseLines = s.eraseLines := by
  have hstates : forall n, (StateBlock.atLines options n s.states).map StateBlock.eraseLines =
      s.states.map StateBlock.eraseLines := by
    induction s.states with
    | nil => exact fun n => rfl
    | cons b states ih =>
        intro n
        rw [StateBlock.atLines, List.map_cons, List.map_cons, StateBlock.eraseLines_atLine, ih]
  rw [eraseLines, numbered, eraseLines]
  simp only [hstates, ActionLine.atLine_atLine]

/--
A printable script that is printed, scanned and parsed comes back with the lines that it was
printed on, and is otherwise the same.
-/
theorem parse_scan_print (options : Options) (quote : String -> Char) (s : Script)
    (hquote : IsQuoting quote) (hs : s.IsPrintable options) :
    (scan (s.print options quote)).isComplete = true ∧
      Script.ofTokens options (scan (s.print options quote)).tokens = .ok (s.numbered options) ∧
      (s.numbered options).eraseLines = s.eraseLines := by
  rcases Script.scan_print hs hquote with ⟨ts, us, nl, hfirst, hstates, hnl, hscan⟩
  refine ⟨?_, ?_, s.eraseLines_numbered options⟩
  · rw [hscan]
    rfl
  · rw [hscan, Script.ofTokens_eq_ok_iff]
    exact Grammar.isFile_of_printed hs hfirst hstates hnl

theorem parse_scan_print_two_states :
    exists s : Script,
      s.print {} quoteFor =
        "@machine m -> \"b c\"\n@state a-\n@run\nlog message : \"it's\"\n@on\n" ++
          "'say \"hi\"' : loop\n@state b\n" ∧
      s.IsPrintable {} ∧
      (scan (s.print {} quoteFor)).isComplete = true ∧
      Script.ofTokens {} (scan (s.print {} quoteFor)).tokens = .ok (s.numbered {}) ∧
      (s.numbered {}).eraseLines = s.eraseLines := by
  have hs : Script.IsPrintable {}
      { line := 7
        name := "m"
        action := ⟨7, "$trans", none, [⟨7, "$default", .transition, "b c", none⟩]⟩
        states :=
          [{ line := 8
             name := "a-"
             run := some ⟨9, [⟨9, "log", none, [⟨9, "message", .assign, "it's", none⟩]⟩]⟩
             on := some ⟨9, [⟨9, "loop", some "say \"hi\"", []⟩]⟩ },
           { line := 8, name := "b" }] } := by
    decide +kernel
  refine ⟨_, ?_, hs, parse_scan_print {} quoteFor _ isQuoting_quoteFor hs⟩
  decide +kernel

end BehaviorScript
