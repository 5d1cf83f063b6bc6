import BehaviorScript.Proofs.Basic
import BehaviorScript.Proofs.Parsing

/-!
# What the parser rejects

A parse that fails gives a diagnostic about the arrangement of the tokens, on the line of
one of them.  One that succeeds leaves the lines of its tokens in the script, and no other
lines, so whatever is reported later about the script is on the line of a token too.
-/

namespace BehaviorScript

/-!
## Stages
-/

inductive Stage where
  | lexed
  | parsed
  | resolved
  | generated
  deriving DecidableEq, Repr

def ErrorCode.stage : ErrorCode -> Stage
  | lexerStuck => .lexed
  | malformed => .parsed
  | duplicateSection => .parsed
  | duplicateState => .resolved
  | stateNotFoundForTransition => .resolved
  | duplicateMessage => .generated
  | actionNotFound => .generated
  | propertyNotFound => .generated
  | noDefaultProperty => .generated
  | invalidValue => .generated
  | propertyKindMismatch => .generated
  | actionBindFailed => .generated

/-!
## The lines of a script
-/

def ActionLine.lineNumbers (a : ActionLine) : List Nat :=
  a.line :: a.params.map Param.line

def StateBlock.lineNumbers (s : StateBlock) : List Nat :=
  s.line :: s.actions.flatMap ActionLine.lineNumbers

def Script.lineNumbers (s : Script) : List Nat :=
  s.action.lineNumbers ++ s.states.flatMap StateBlock.lineNumbers

namespace Grammar

variable {options : Options}

theorem IsParam.line_mem {ts rest : List Token} {x : Param} (h : IsParam options ts rest x) :
    x.line ∈ ts.map Token.line := by
  cases h with
  | labeled => simp
  | word => simp
  | quoted => simp
  | arrow => simp

theorem AreParams.lines_subset {ts rest : List Token} {xs : List Param}
    (h : AreParams options ts rest xs) : xs.map Param.line ⊆ ts.map Token.line := by
  induction h with
  | nil => simp
  | cons hx _ ih =>
      rw [List.map_cons, List.map_append]
      exact List.cons_subset.mpr ⟨List.mem_append_left _ hx.line_mem,
        List.subset_append_of_subset_right _ ih⟩

theorem IsCommand.lines_subset {ts rest : List Token} {line : Nat} {name : String}
    {params : List Param} (h : IsCommand options ts rest line name params) :
    line :: params.map Param.line ⊆ ts.map Token.line := by
  cases h with
  | arrow => simp
  | call _ hparams => exact List.cons_subset_cons _ hparams.lines_subset

theorem IsAction.lines_subset {inOn : Bool} {ts rest : List Token} {a : ActionLine}
    (h : IsAction options inOn ts rest a) : a.lineNumbers ⊆ ts.map Token.line := by
  cases h with
  | keyed _ _ hcommand =>
      have hparams := (List.cons_subset.mp hcommand.lines_subset).2
      refine List.cons_subset_cons _ ?_
      exact List.subset_cons_of_subset _ hparams
  | plain hcommand => exact hcommand.lines_subset

theorem AreActions.lines_subset {inOn : Bool} {ts rest : List Token} {as : List ActionLine}
    (h : AreActions options inOn ts rest as) :
    as.flatMap ActionLine.lineNumbers ⊆ ts.map Token.line := by
  induction h with
  | nil => simp
  | cons _ haction _ ih =>
      rw [List.flatMap_cons, List.map_append, List.map_append]
      apply List.append_subset.mpr
      constructor
      · apply List.subset_append_of_subset_left
        exact List.subset_append_of_subset_right _ haction.lines_subset
      · exact List.subset_append_of_subset_right _ ih

theorem AreSections.lines_subset {us rest : List Token} {sections : List (SectionKind × Block)}
    (h : AreSections options us rest sections) {kind : SectionKind} {block : Block}
    (hmem : (kind, block) ∈ sections) :
    block.actions.flatMap ActionLine.lineNumbers ⊆ us.map Token.line := by
  induction h with
  | nil => cases hmem
  | cons _ _ hactions _ ih =>
      rw [List.map_append, List.map_append, List.map_cons]
      rcases List.mem_cons.mp hmem with heq | hrest
      · cases heq
        apply List.subset_append_of_subset_left
        apply List.subset_append_of_subset_right
        exact List.subset_cons_of_subset _ hactions.lines_subset
      · exact List.subset_append_of_subset_right _ (ih hrest)

theorem IsState.lines_subset {us rest : List Token} {s : StateBlock}
    (h : IsState options us rest s) : s.lineNumbers ⊆ us.map Token.line := by
  cases h with
  | @mk t name nl ts _ sections _ _ _ hsections _ =>
      intro n hn
      rcases List.mem_cons.mp hn with rfl | hn
      · simp [stateOf]
      · rcases List.mem_flatMap.mp hn with ⟨a, ha, hn⟩
        rcases List.mem_flatMap.mp ha with ⟨block, hblock, ha⟩
        have hsection : exists kind, (kind, block) ∈ sections := by
          simp only [StateBlock.blocks, stateOf, List.mem_filterMap, List.mem_cons,
            List.not_mem_nil, or_false, id_eq, exists_eq_right] at hblock
          rcases hblock with hblock | hblock | hblock | hblock
          · exact ⟨.enter, mem_of_lookup_eq_some hblock.symm⟩
          · exact ⟨.exit, mem_of_lookup_eq_some hblock.symm⟩
          · exact ⟨.run, mem_of_lookup_eq_some hblock.symm⟩
          · exact ⟨.on, mem_of_lookup_eq_some hblock.symm⟩
        rcases hsection with ⟨kind, hkind⟩
        have hmem := hsections.lines_subset hkind (List.mem_flatMap.mpr ⟨a, ha, hn⟩)
        rw [List.map_append, List.map_cons]
        exact List.mem_append_right _ (List.mem_cons_of_mem _ hmem)

theorem AreStates.lines_subset {us rest : List Token} {ss : List StateBlock}
    (h : AreStates options us rest ss) :
    ss.flatMap StateBlock.lineNumbers ⊆ us.map Token.line := by
  induction h with
  | nil => simp
  | cons _ hstate _ ih =>
      rw [List.flatMap_cons, List.map_append, List.map_append]
      apply List.append_subset.mpr
      constructor
      · apply List.subset_append_of_subset_left
        exact List.subset_append_of_subset_right _ hstate.lines_subset
      · exact List.subset_append_of_subset_right _ ih

theorem IsFile.lines_subset {ts : List Token} {script : Script} (h : IsFile options ts script) :
    script.lineNumbers ⊆ ts.map Token.line := by
  cases h with
  | mk _ _ _ _ haction hstates _ =>
      intro n hn
      rcases List.mem_append.mp hn with hn | hn
      · have hmem := haction.lines_subset hn
        simp only [List.map_append, List.map_cons, List.mem_append, List.mem_cons]
        exact Or.inl (Or.inl (Or.inr (Or.inr hmem)))
      · have hmem := hstates.lines_subset hn
        simp only [List.map_append, List.map_cons, List.mem_append, List.mem_cons]
        exact Or.inl (Or.inr hmem)

end Grammar

/-!
## The parser
-/

namespace Parser

variable {p : Parser}

def IsLine (p : Parser) (ts : List Token) (n : Nat) : Prop :=
  n = p.endLine ∨ n ∈ ts.map Token.line

/--
The failure is about the arrangement of tokens, and on one of their lines.
-/
structure Blames (p : Parser) (ts : List Token) (f : ParseFailure) : Prop where
  stage : f.error.code.stage = .parsed
  line : p.IsLine ts f.error.line

theorem isLine_lineAt (ts : List Token) : p.IsLine ts (p.lineAt ts) := by
  cases ts with
  | nil => exact Or.inl rfl
  | cons t ts => exact Or.inr List.mem_cons_self

theorem isLine_head (t : Token) (ts : List Token) : p.IsLine (t :: ts) t.line :=
  Or.inr List.mem_cons_self

theorem IsLine.mono {ts us : List Token} {n : Nat} (h : p.IsLine us n) (hsub : us ⊆ ts) :
    p.IsLine ts n := by
  rcases h with hend | hmem
  · exact Or.inl hend
  · exact Or.inr (List.map_subset _ hsub hmem)

theorem Blames.mono {ts us : List Token} {f : ParseFailure} (h : p.Blames us f)
    (hsub : us ⊆ ts) : p.Blames ts f :=
  ⟨h.stage, h.line.mono hsub⟩

theorem blames_malformed {ts rest : List Token} {n : Nat} {fault : ParseFault}
    (hn : p.IsLine ts n) : p.Blames ts ⟨.malformed n fault, rest⟩ :=
  ⟨rfl, hn⟩

theorem blames_of_unexpected {α : Type} {fault : Found -> ParseFault} {ts : List Token}
    {f : ParseFailure} (h : (p.unexpected fault ts : Parsed α) = .error f) : p.Blames ts f := by
  cases h
  exact blames_malformed (isLine_lineAt ts)

theorem skipNewlines_subset (ts : List Token) : skipNewlines ts ⊆ ts :=
  (List.dropWhile_sublist _).subset

theorem blames_of_literal {fault : Found -> ParseFault} {ts : List Token} {f : ParseFailure}
    (h : p.literal fault ts = .error f) : p.Blames ts f := by
  unfold literal at h
  split at h
  · exact blames_of_unexpected h
  · split at h
    · cases h
    · exact blames_of_unexpected h

theorem blames_of_word {fault : Found -> ParseFault} {ts : List Token} {f : ParseFailure}
    (h : p.word fault ts = .error f) : p.Blames ts f := by
  unfold word at h
  split at h
  · exact blames_of_unexpected h
  · split at h
    · cases h
    · exact blames_of_unexpected h

theorem blames_of_param {ts : List Token} {f : ParseFailure} (h : p.param ts = .error f) :
    p.Blames ts f := by
  cases ts with
  | nil =>
      cases h
      exact blames_malformed (Or.inl rfl)
  | cons t ts =>
      rw [param] at h
      split at h
      · exact (blames_of_literal (except_map_eq_error h)).mono (List.subset_cons_self _ _)
      · refine (blames_of_literal (except_map_eq_error h)).mono ?_
        exact List.subset_cons_of_subset _ (List.tail_sublist _).subset
      · cases h
        exact blames_malformed (isLine_head t ts)
      · cases h
      · cases h
      · cases h
        exact blames_malformed (isLine_head t ts)
      · cases h
        exact blames_malformed (isLine_head t ts)
      · cases h
        exact blames_malformed (isLine_head t ts)

theorem rest_subset_of_param {ts rest : List Token} {x : Param}
    (h : p.param ts = .ok (x, rest)) : rest ⊆ ts := by
  rcases Grammar.isParam_of_param h with ⟨us, rfl, _⟩
  exact List.subset_append_right _ _

theorem blames_of_params {ts : List Token} {f : ParseFailure} (h : p.params ts = .error f) :
    p.Blames ts f := by
  fun_induction params p ts with
  | case1 => cases h
  | case2 ts _ e he =>
      cases h
      exact blames_of_param he
  | case3 ts _ x rest hx ih =>
      exact (ih (except_map_eq_error h)).mono (rest_subset_of_param hx)

theorem blames_of_messageKey {inOn : Bool} {ts : List Token} {f : ParseFailure}
    (h : p.messageKey inOn ts = .error f) : p.Blames ts f := by
  unfold messageKey at h
  split at h
  · next key colon rest =>
      split at h
      · split at h
        · cases h
        · cases h
          exact blames_malformed (isLine_head key _)
      · split at h
        · cases h
          exact blames_malformed (isLine_head key _)
        · cases h
  · split at h
    · cases h
      exact blames_malformed (isLine_lineAt ts)
    · cases h

theorem blames_of_command {line : Nat} {ts us : List Token} {f : ParseFailure}
    (h : p.command line ts = .error f) (hline : p.IsLine us line) (hsub : ts ⊆ us) :
    p.Blames us f := by
  cases ts with
  | nil =>
      cases h
      exact blames_malformed hline
  | cons t ts =>
      have htail : ts ⊆ us := (List.cons_subset.mp hsub).2
      rw [command] at h
      split at h
      · exact (blames_of_literal (except_map_eq_error h)).mono htail
      · exact (blames_of_params (except_map_eq_error h)).mono htail
      · cases h
        exact blames_malformed hline

theorem rest_subset_of_messageKey {inOn : Bool} {ts rest : List Token} {key : Option String}
    (h : p.messageKey inOn ts = .ok (key, rest)) : rest ⊆ ts := by
  rcases Grammar.messageKey_eq_ok h with ⟨_, _, rfl⟩ | ⟨key, colon, _, _, _, _, rfl⟩
  · exact List.Subset.refl _
  · exact List.subset_cons_of_subset _ (List.subset_cons_self _ _)

theorem blames_of_action {inOn : Bool} {ts : List Token} {f : ParseFailure}
    (h : p.action inOn ts = .error f) : p.Blames ts f := by
  unfold action at h
  split at h
  · next e he =>
      cases h
      exact blames_of_messageKey he
  · next message afterKey hkey =>
      have hsub := rest_subset_of_messageKey hkey
      split at h
      · next e he =>
          cases h
          exact blames_of_command he (isLine_lineAt ts) hsub
      · next name params rest hcommand =>
          split at h
          · cases h
          · rcases Grammar.isCommand_of_command hcommand with ⟨us, rfl, _⟩
            have hrest := List.Subset.trans (List.subset_append_right _ _) hsub
            exact (blames_of_unexpected h).mono hrest

theorem blames_of_actions {inOn : Bool} {ts : List Token} {f : ParseFailure}
    (h : p.actions inOn ts = .error f) : p.Blames ts f := by
  fun_induction actions p inOn ts with
  | case1 => cases h
  | case2 ts _ e he =>
      cases h
      exact (blames_of_action he).mono (skipNewlines_subset ts)
  | case3 ts _ a rest ha ih =>
      rcases Grammar.isAction_of_action ha with ⟨us, hus, _⟩
      have hsub : rest ⊆ skipNewlines ts := by
        rw [hus]
        exact List.subset_append_right _ _
      have hrest := List.Subset.trans hsub (skipNewlines_subset ts)
      exact (ih (except_map_eq_error h)).mono hrest

theorem blames_of_sections {state : StateBlock} {ts : List Token} {f : ParseFailure}
    (h : p.sections state ts = .error f) : p.Blames ts f := by
  fun_induction sections p state ts with
  | case1 => cases h
  | case2 => cases h
  | case3 state ts t rest hskip k _ kind _ _ =>
      cases h
      have hline : p.Blames (t :: rest) ⟨.duplicateSection t.line state.name kind, t :: rest⟩ :=
        ⟨rfl, isLine_head t rest⟩
      exact hline.mono (hskip ▸ skipNewlines_subset ts)
  | case4 state ts t rest hskip k _ kind _ _ e he =>
      cases h
      have hsub : t :: rest ⊆ ts := hskip ▸ skipNewlines_subset ts
      exact (blames_of_actions he).mono (List.cons_subset.mp hsub).2
  | case5 state ts t us hskip k _ kind _ _ xs rest hactions ih =>
      rcases Grammar.areActions_of_actions hactions with ⟨vs, nl, rfl, _⟩
      have hsub : t :: (vs ++ (nl ++ rest)) ⊆ ts := hskip ▸ skipNewlines_subset ts
      apply (ih h).mono
      intro u hu
      apply hsub
      simp [hu]
  | case6 state ts t rest hskip =>
      exact (blames_of_unexpected h).mono (hskip ▸ skipNewlines_subset ts)

theorem blames_of_stateBody {line : Nat} {ts : List Token} {f : ParseFailure}
    (h : p.stateBody line ts = .error f) : p.Blames ts f := by
  unfold stateBody at h
  split at h
  · next e he =>
      cases h
      exact (blames_of_word he).mono (skipNewlines_subset ts)
  · next name rest hname =>
      have hsub : name :: rest ⊆ ts := (word_eq_ok hname).1 ▸ skipNewlines_subset ts
      exact (blames_of_sections h).mono (List.cons_subset.mp hsub).2

theorem blames_of_states {ts : List Token} {f : ParseFailure} (h : p.states ts = .error f) :
    p.Blames ts f := by
  fun_induction states p ts with
  | case1 => cases h
  | case2 ts t us hskip _ e he =>
      cases h
      have hsub : t :: us ⊆ ts := hskip ▸ skipNewlines_subset ts
      exact (blames_of_stateBody he).mono (List.cons_subset.mp hsub).2
  | case3 ts t us hskip ht s rest hs ih =>
      rcases Grammar.isState_of_stateBody ht hs with ⟨vs, nl, hvs, _⟩
      have hsub : t :: us ⊆ ts := hskip ▸ skipNewlines_subset ts
      apply (ih (except_map_eq_error h)).mono
      intro u hu
      apply hsub
      rw [hvs]
      simp [hu]
  | case4 ts t us hskip =>
      exact (blames_of_unexpected h).mono (hskip ▸ skipNewlines_subset ts)

theorem blames_of_machineBody {line : Nat} {ts : List Token} {f : ParseFailure}
    (h : p.machineBody line ts = .error f) : p.Blames ts f := by
  unfold machineBody at h
  split at h
  · next e he =>
      cases h
      exact (blames_of_word he).mono (skipNewlines_subset ts)
  · next name afterName hname =>
      have hsub : name :: afterName ⊆ ts := (word_eq_ok hname).1 ▸ skipNewlines_subset ts
      have htail : afterName ⊆ ts := (List.cons_subset.mp hsub).2
      split at h
      · exact (blames_of_unexpected h).mono htail
      · split at h
        · next e he =>
            cases h
            exact (blames_of_action he).mono htail
        · next action afterAction haction =>
            rcases Grammar.isAction_of_action haction with ⟨us, rfl, _⟩
            have hrest := List.Subset.trans (List.subset_append_right us afterAction) htail
            exact (blames_of_states (except_map_eq_error h)).mono hrest

theorem blames_of_machine {ts : List Token} {f : ParseFailure} (h : p.machine ts = .error f) :
    p.Blames ts f := by
  have hsub := skipNewlines_subset ts
  unfold machine at h
  split at h
  · exact (blames_of_unexpected h).mono (List.nil_subset _)
  · next t rest hskip =>
      rw [hskip] at hsub
      split at h
      · exact (blames_of_machineBody h).mono (List.cons_subset.mp hsub).2
      · exact (blames_of_unexpected h).mono hsub

end Parser

theorem Script.ofTokens_eq_error {options : Options} {ts : List Token} {e : CompileError}
    (h : Script.ofTokens options ts = .error e) :
    e.code.stage = .parsed ∧ ((ts = [] ∧ e.line = 1) ∨ e.line ∈ ts.map Token.line) := by
  unfold Script.ofTokens at h
  split at h
  · next failure hparse =>
      cases h
      have hblames := Parser.blames_of_machine hparse
      refine ⟨hblames.stage, ?_⟩
      rcases hblames.line with hend | hmem
      · cases hlast : ts.getLast? with
        | none =>
            rw [hlast] at hend
            exact Or.inl ⟨List.getLast?_eq_none_iff.mp hlast, hend⟩
        | some t =>
            rw [hlast] at hend
            rw [hend]
            exact Or.inr (List.mem_map_of_mem (List.mem_of_getLast? hlast))
      · exact Or.inr hmem
  · cases h

end BehaviorScript
