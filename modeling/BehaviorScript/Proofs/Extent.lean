import BehaviorScript.Proofs.Basic
import BehaviorScript.Proofs.Parsing
import BehaviorScript.Token.Scan

/-!
# What a source leaves in its script

Every token takes a character of the source and every line of a script takes a token, so
a section is never longer than the source.  The lines of a message section are exactly
those with a key.
-/

namespace BehaviorScript

theorem length_tokens_scanFrom_le (offset line : Nat) (fresh : Bool) (cs : List Char) :
    (scanFrom offset line fresh cs).tokens.length ≤ cs.length := by
  fun_induction scanFrom offset line fresh cs with
  | case1 => simp
  | case2 offset line cs scan ih => exact Nat.le_succ_of_le ih
  | case3 offset line fresh cs scan hfresh ih => exact Nat.succ_le_succ ih
  | case4 offset line fresh c cs hc hsep ih => exact Nat.le_succ_of_le ih
  | case5 offset line fresh cs _ _ comment ih =>
      have hle := length_dropWhile_le (fun x => decide (x ≠ '\n')) cs
      exact Nat.le_succ_of_le (Nat.le_trans ih hle)
  | case6 => simp
  | case7 offset line fresh c cs _ _ _ l hl ih =>
      have hlt := Lexeme.length_rest_lt hl
      exact Nat.lt_of_le_of_lt ih hlt

theorem length_tokens_scan_le (source : String) :
    (scan source).tokens.length ≤ source.length := by
  rw [← String.length_toList]
  exact length_tokens_scanFrom_le 0 1 true source.toList

namespace Grammar

variable {options : Options}

theorem IsAction.length_pos {inOn : Bool} {ts rest : List Token} {a : ActionLine}
    (h : IsAction options inOn ts rest a) : 0 < ts.length := by
  cases h with
  | keyed => simp
  | plain hcommand => cases hcommand <;> simp

theorem AreActions.length_le {inOn : Bool} {ts rest : List Token} {as : List ActionLine}
    (h : AreActions options inOn ts rest as) : as.length ≤ ts.length := by
  induction h with
  | nil => simp
  | cons _ haction _ ih =>
      have hpos := haction.length_pos
      simp only [List.length_append, List.length_cons]
      omega

theorem AreActions.keyed {ts rest : List Token} {as : List ActionLine}
    (h : AreActions options true ts rest as) {a : ActionLine} (ha : a ∈ as) :
    exists key, a.message = some key := by
  induction h with
  | nil => cases ha
  | cons _ haction _ ih =>
      rcases List.mem_cons.mp ha with rfl | hrest
      · cases haction with
        | keyed => exact ⟨_, rfl⟩
      · exact ih hrest

theorem AreSections.exists_of_mem {us rest : List Token} {sections : List (SectionKind × Block)}
    (h : AreSections options us rest sections) {kind : SectionKind} {block : Block}
    (hmem : (kind, block) ∈ sections) :
    exists ts rest', AreActions options (kind == .on) ts rest' block.actions ∧
      ts.length ≤ us.length := by
  induction h with
  | nil => cases hmem
  | cons _ _ hactions _ ih =>
      rcases List.mem_cons.mp hmem with heq | hrest
      · cases heq
        refine ⟨_, _, hactions, ?_⟩
        simp only [List.length_append, List.length_cons]
        omega
      · rcases ih hrest with ⟨ts, rest', hts, hle⟩
        refine ⟨ts, rest', hts, ?_⟩
        simp only [List.length_append, List.length_cons]
        omega

theorem IsState.exists_of_get? {us rest : List Token} {s : StateBlock}
    (h : IsState options us rest s) {kind : SectionKind} {block : Block}
    (hblock : s.get? kind = some block) :
    exists ts rest', AreActions options (kind == .on) ts rest' block.actions ∧
      ts.length ≤ us.length := by
  cases h with
  | @mk t name nl ts _ sections _ _ _ hsections _ =>
      have hlookup : sections.lookup kind = some block := by
        cases kind <;> exact hblock
      rcases hsections.exists_of_mem (mem_of_lookup_eq_some hlookup) with ⟨vs, rest', hvs, hle⟩
      refine ⟨vs, rest', hvs, ?_⟩
      simp only [List.cons_append, List.length_append, List.length_cons]
      omega

theorem AreStates.exists_of_mem {us rest : List Token} {ss : List StateBlock}
    (h : AreStates options us rest ss) {s : StateBlock} (hmem : s ∈ ss) :
    exists ts rest', IsState options ts rest' s ∧ ts.length ≤ us.length := by
  induction h with
  | nil => cases hmem
  | cons _ hstate _ ih =>
      rcases List.mem_cons.mp hmem with rfl | hrest
      · refine ⟨_, _, hstate, ?_⟩
        simp only [List.length_append]
        omega
      · rcases ih hrest with ⟨ts, rest', hts, hle⟩
        refine ⟨ts, rest', hts, ?_⟩
        simp only [List.length_append]
        omega

end Grammar

theorem Script.section_of_ofTokens {options : Options} {ts : List Token} {script : Script}
    (h : Script.ofTokens options ts = .ok script) {s : StateBlock} (hs : s ∈ script.states)
    (kind : SectionKind) :
    (Block.actionsOf (s.get? kind)).length ≤ ts.length ∧
      (kind = .on -> forall a, a ∈ Block.actionsOf (s.get? kind) ->
        exists key, a.message = some key) := by
  cases hblock : s.get? kind with
  | none => simp [Block.actionsOf]
  | some block =>
      rw [Script.ofTokens_eq_ok_iff] at h
      cases h with
      | mk _ _ _ _ _ hstates _ =>
          rcases hstates.exists_of_mem hs with ⟨us, rest, hstate, hus⟩
          rcases hstate.exists_of_get? hblock with ⟨vs, rest', hactions, hvs⟩
          have hlength := hactions.length_le
          constructor
          · simp only [Block.actionsOf, List.length_append, List.length_cons]
            omega
          · intro hkind a ha
            subst hkind
            exact hactions.keyed ha

end BehaviorScript
