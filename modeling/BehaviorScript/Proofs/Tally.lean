import BehaviorScript.Proofs.Basic
import BehaviorScript.Proofs.Parsing
import Mathlib.Data.List.Nodup
import Mathlib.Data.List.Perm.Basic

/-!
# Counting in tokens

The arrows of a script, its states, their names and their message keys can be found in the tokens
without parsing them: states by their keyword, names after it, and keys at the beginnings of lines.
Parsing finds the same.  This is shown along the grammar, with one law for each of its judgments.
-/

namespace BehaviorScript

/-!
## Counting tokens
-/

namespace Token

def isArrow (t : Token) : Bool :=
  t.kind == .operator .transition

def opensState (t : Token) : Bool :=
  t.kind == .keyword .state

end Token

def afterStates : List Token -> List (List Token)
  | [] => []
  | t :: rest => if t.opensState then rest :: afterStates rest else afterStates rest

def nextName? (ts : List Token) : Option String :=
  (ts.find? fun t => t.kind != .newline).map Token.text

/--
The keys of message sections up to the next `@state`.  A key is what a line of such a section begins
with, where the keyword of a section begins a line as well.
-/
def keysFrom (inOn fresh : Bool) : List Token -> List String
  | [] => []
  | t :: rest =>
      match t.kind with
      | .keyword .state => []
      | .keyword k => keysFrom (k == .on) true rest
      | .newline => keysFrom inOn true rest
      | _ =>
          if inOn && fresh then t.text :: keysFrom inOn false rest else keysFrom inOn false rest

def writtenKeys (ts : List Token) : List String :=
  keysFrom false true ts

theorem length_afterStates (ts : List Token) :
    (afterStates ts).length = ts.countP Token.opensState := by
  induction ts with
  | nil => rfl
  | cons t rest ih =>
      rw [afterStates, List.countP_cons]
      cases t.opensState with
      | true => simp [ih]
      | false => simp [ih]

/-!
## Lines

A line holds neither keywords nor line ends, so of all keys only the first can be on it.
-/

def AreInner (ts : List Token) : Prop :=
  forall t, t ∈ ts -> (forall k, t.kind ≠ .keyword k) ∧ t.kind ≠ .newline

theorem areInner_cons {t : Token} {ts : List Token} (hkeyword : forall k, t.kind ≠ .keyword k)
    (hnewline : t.kind ≠ .newline) (h : AreInner ts) : AreInner (t :: ts) := by
  intro u hu
  rcases List.mem_cons.mp hu with rfl | hu
  · exact ⟨hkeyword, hnewline⟩
  · exact h u hu

theorem areInner_nil : AreInner [] := by
  intro t ht
  cases ht

theorem AreInner.append {ts us : List Token} (hts : AreInner ts) (hus : AreInner us) :
    AreInner (ts ++ us) := by
  intro t ht
  rcases List.mem_append.mp ht with ht | ht
  · exact hts t ht
  · exact hus t ht

theorem areInner_of_isLiteral {t : Token} {ts : List Token} (hliteral : t.kind.isLiteral = true)
    (h : AreInner ts) : AreInner (t :: ts) := by
  apply areInner_cons _ _ h
  · intro k hk
    simp [hk, TokenKind.isLiteral] at hliteral
  · intro hk
    simp [hk, TokenKind.isLiteral] at hliteral

theorem areInner_of_operator {t : Token} {ts : List Token} {op : Operator}
    (hop : t.kind = .operator op) (h : AreInner ts) : AreInner (t :: ts) := by
  apply areInner_cons _ _ h
  · intro k hk
    rw [hop] at hk
    cases hk
  · intro hk
    rw [hop] at hk
    cases hk

theorem countP_isArrow_of_isLiteral {t : Token} (h : t.kind.isLiteral = true)
    (ts : List Token) : (t :: ts).countP Token.isArrow = ts.countP Token.isArrow := by
  apply List.countP_cons_of_neg
  intro harrow
  rw [eq_of_beq harrow] at h
  cases h

theorem countP_isArrow_of_operator {t : Token} {op : Operator} (h : t.kind = .operator op)
    (ts : List Token) :
    (t :: ts).countP Token.isArrow =
      ts.countP Token.isArrow + if op == .transition then 1 else 0 := by
  rw [List.countP_cons, Token.isArrow, h]
  cases op <;> rfl

theorem isLiteral_of_word {t : Token} (h : t.kind = .word) : t.kind.isLiteral = true := by
  rw [h]
  rfl

theorem isLiteral_of_quoted {t : Token} (h : t.kind = .quoted) : t.kind.isLiteral = true := by
  rw [h]
  rfl

namespace Grammar

variable {options : Options}

theorem IsParam.areInner {ts rest : List Token} {x : Param} (h : IsParam options ts rest x) :
    AreInner ts := by
  cases h with
  | labeled hlabel hop hvalue =>
      apply areInner_of_isLiteral (isLiteral_of_word hlabel)
      exact areInner_of_operator hop (areInner_of_isLiteral hvalue areInner_nil)
  | word hword => exact areInner_of_isLiteral (isLiteral_of_word hword) areInner_nil
  | quoted hquoted => exact areInner_of_isLiteral (isLiteral_of_quoted hquoted) areInner_nil
  | arrow harrow htarget =>
      exact areInner_of_operator harrow (areInner_of_isLiteral htarget areInner_nil)

theorem IsParam.countP_isArrow {ts rest : List Token} {x : Param}
    (h : IsParam options ts rest x) : ts.countP Token.isArrow = Param.countArrows [x] := by
  cases h with
  | labeled hlabel hop hvalue =>
      rw [countP_isArrow_of_isLiteral (isLiteral_of_word hlabel),
        countP_isArrow_of_operator hop, countP_isArrow_of_isLiteral hvalue, Param.countArrows,
        List.countP_cons]
      rfl
  | word hword => exact countP_isArrow_of_isLiteral (isLiteral_of_word hword) _
  | quoted hquoted => exact countP_isArrow_of_isLiteral (isLiteral_of_quoted hquoted) _
  | arrow harrow htarget =>
      rw [countP_isArrow_of_operator harrow, countP_isArrow_of_isLiteral htarget]
      rfl

theorem AreParams.areInner {ts rest : List Token} {xs : List Param}
    (h : AreParams options ts rest xs) : AreInner ts := by
  induction h with
  | nil => exact areInner_nil
  | cons hparam _ ih => exact hparam.areInner.append ih

theorem AreParams.countP_isArrow {ts rest : List Token} {xs : List Param}
    (h : AreParams options ts rest xs) : ts.countP Token.isArrow = Param.countArrows xs := by
  induction h with
  | nil => rfl
  | @cons ts us rest x xs hparam _ ih =>
      rw [List.countP_append, hparam.countP_isArrow, ih]
      exact (Param.countArrows_append [x] xs).symm

theorem IsCommand.areInner {ts rest : List Token} {line : Nat} {name : String}
    {xs : List Param} (h : IsCommand options ts rest line name xs) : AreInner ts := by
  cases h with
  | arrow harrow htarget =>
      exact areInner_of_operator harrow (areInner_of_isLiteral htarget areInner_nil)
  | call hname hparams =>
      exact areInner_of_isLiteral (isLiteral_of_word hname) hparams.areInner

theorem IsCommand.countP_isArrow {ts rest : List Token} {line : Nat} {name : String}
    {xs : List Param} (h : IsCommand options ts rest line name xs) :
    ts.countP Token.isArrow = Param.countArrows xs := by
  cases h with
  | arrow harrow htarget =>
      rw [countP_isArrow_of_operator harrow, countP_isArrow_of_isLiteral htarget]
      rfl
  | call hname hparams =>
      rw [countP_isArrow_of_isLiteral (isLiteral_of_word hname), hparams.countP_isArrow]

theorem IsAction.areInner {inOn : Bool} {ts rest : List Token} {a : ActionLine}
    (h : IsAction options inOn ts rest a) : AreInner ts := by
  cases h with
  | keyed hkey hcolon hcommand =>
      exact areInner_of_isLiteral hkey (areInner_of_operator hcolon hcommand.areInner)
  | plain hcommand => exact hcommand.areInner

theorem IsAction.countP_isArrow {inOn : Bool} {ts rest : List Token} {a : ActionLine}
    (h : IsAction options inOn ts rest a) :
    ts.countP Token.isArrow = Param.countArrows a.params := by
  cases h with
  | keyed hkey hcolon hcommand =>
      rw [countP_isArrow_of_isLiteral hkey, countP_isArrow_of_operator hcolon,
        hcommand.countP_isArrow]
      rfl
  | plain hcommand => exact hcommand.countP_isArrow

theorem IsAction.endsAction {inOn : Bool} {ts rest : List Token} {a : ActionLine}
    (h : IsAction options inOn ts rest a) : EndsAction rest := by
  cases h with
  | keyed _ _ _ hends => exact hends
  | plain _ hends => exact hends

end Grammar

/-!
## Keys at the beginnings of lines
-/

theorem keysFrom_newline {t : Token} (h : t.kind = .newline) (inOn fresh : Bool)
    (ts : List Token) : keysFrom inOn fresh (t :: ts) = keysFrom inOn true ts := by
  rw [keysFrom, h]

theorem keysFrom_state {t : Token} (h : t.kind = .keyword .state) (inOn fresh : Bool)
    (ts : List Token) : keysFrom inOn fresh (t :: ts) = [] := by
  rw [keysFrom, h]

theorem keysFrom_section {t : Token} {kind : SectionKind} (h : t.kind = .keyword kind.keyword)
    (inOn fresh : Bool) (ts : List Token) :
    keysFrom inOn fresh (t :: ts) = keysFrom (kind == .on) true ts := by
  rw [keysFrom, h]
  cases kind <;> rfl

theorem keysFrom_inner {t : Token} {us : List Token} (h : AreInner (t :: us)) (inOn fresh : Bool)
    (ts : List Token) :
    keysFrom inOn fresh (t :: ts) =
      if inOn && fresh then t.text :: keysFrom inOn false ts else keysFrom inOn false ts := by
  rcases h t List.mem_cons_self with ⟨hkeyword, hnewline⟩
  rw [keysFrom]
  cases hkind : t.kind with
  | keyword k => exact absurd hkind (hkeyword k)
  | newline => exact absurd hkind hnewline
  | word => rfl
  | quoted => rfl
  | operator op => rfl

theorem keysFrom_newlines {nl : List Token} (h : Grammar.AreNewlines nl) (inOn : Bool)
    (ts : List Token) : keysFrom inOn true (nl ++ ts) = keysFrom inOn true ts := by
  induction nl with
  | nil => rfl
  | cons t rest ih =>
      rw [List.cons_append, keysFrom_newline (h t List.mem_cons_self)]
      exact ih fun u hu => h u (List.mem_cons_of_mem _ hu)

theorem keysFrom_areInner {us : List Token} (h : AreInner us) (inOn : Bool) (ts : List Token) :
    keysFrom inOn false (us ++ ts) = keysFrom inOn false ts := by
  induction us with
  | nil => rfl
  | cons u rest ih =>
      rw [List.cons_append, keysFrom_inner h, Bool.and_false]
      exact ih fun t ht => h t (List.mem_cons_of_mem _ ht)

theorem keysFrom_outside (fresh : Bool) (ts : List Token) :
    keysFrom false fresh ts = keysFrom false true ts := by
  cases ts with
  | nil => rfl
  | cons t rest => rfl

theorem keysFrom_endsAction {rest : List Token} (h : Grammar.EndsAction rest) (inOn : Bool) :
    keysFrom inOn false rest = keysFrom inOn true rest := by
  cases rest with
  | nil => rfl
  | cons t rest =>
      have hkind : t.kind = .newline ∨ exists k, t.kind = .keyword k := by
        simpa [Grammar.EndsAction, Grammar.next?] using h
      rcases hkind with hnewline | ⟨k, hk⟩
      · rw [keysFrom_newline hnewline, keysFrom_newline hnewline]
      · rw [keysFrom, keysFrom, hk]
        cases k <;> rfl

namespace Grammar

variable {options : Options}

theorem IsAction.keysFrom_append {inOn : Bool} {ts rest : List Token} {a : ActionLine}
    (h : IsAction options inOn ts rest a) :
    keysFrom inOn true (ts ++ rest) =
      (if inOn then [a.message.getD ""] else []) ++ keysFrom inOn true rest := by
  have hinner := h.areInner
  have hends := keysFrom_endsAction h.endsAction
  cases h with
  | @keyed key colon ts rest line name params hkey hcolon hcommand =>
      have hrest := areInner_of_operator hcolon hcommand.areInner
      rw [List.cons_append, keysFrom_inner hinner, keysFrom_areInner hrest, hends]
      rfl
  | plain hcommand =>
      -- no key is looked for here, so the action may as well stand in the middle of a line
      rw [← keysFrom_outside false, keysFrom_areInner hinner, hends]
      rfl

theorem AreActions.keysFrom_append {inOn : Bool} {ts rest : List Token} {as : List ActionLine}
    (h : AreActions options inOn ts rest as) :
    keysFrom inOn true (ts ++ rest) =
      (if inOn then as.map (fun a => a.message.getD "") else []) ++ keysFrom inOn true rest := by
  induction h with
  | nil =>
      cases inOn <;> rfl
  | cons hnl haction _ ih =>
      rw [List.append_assoc, List.append_assoc, keysFrom_newlines hnl, haction.keysFrom_append, ih]
      cases inOn <;> rfl

def EndsKeys (rest : List Token) : Prop :=
  forall inOn, keysFrom inOn true rest = []

theorem AreNewlines.endsKeys {nl rest : List Token} (h : AreNewlines nl) (hrest : EndsKeys rest) :
    EndsKeys (nl ++ rest) := by
  intro inOn
  rw [keysFrom_newlines h]
  exact hrest inOn

theorem AreSections.keysFrom_append {ts rest : List Token} {sections : List (SectionKind × Block)}
    (h : AreSections options ts rest sections) (hrest : EndsKeys rest) (inOn : Bool) :
    keysFrom inOn true (ts ++ rest) = sections.flatMap fun x =>
      if x.1 == .on then x.2.actions.map (fun a => a.message.getD "") else [] := by
  induction h generalizing inOn with
  | nil => exact hrest inOn
  | @cons nl ts us rest t kind actions sections hnl hkind hactions _ ih =>
      have hassoc : nl ++ t :: ts ++ us ++ rest = nl ++ t :: (ts ++ (us ++ rest)) := by
        simp
      rw [hassoc, keysFrom_newlines hnl, keysFrom_section hkind, hactions.keysFrom_append,
        ih hrest, List.flatMap_cons]

end Grammar

/-!
## States

The sections of a state are at most one of each kind, so taking them by their kind leaves out none.
-/

theorem filterMap_lookup_perm {α β : Type} [DecidableEq α] {entries : List (α × β)} {keys : List α}
    (hentries : (entries.map Prod.fst).Nodup) (hkeys : keys.Nodup)
    (hall : forall k, k ∈ entries.map Prod.fst -> k ∈ keys) :
    (keys.filterMap fun k => entries.lookup k).Perm (entries.map Prod.snd) := by
  induction entries generalizing keys with
  | nil => simp
  | cons entry rest ih =>
      rcases entry with ⟨k, v⟩
      rw [List.map_cons, List.nodup_cons] at hentries
      -- the key of the entry is taken out of the keys, and the others never find this entry
      have hk : k ∈ keys := hall k List.mem_cons_self
      have hrest : ((keys.erase k).filterMap fun other => ((k, v) :: rest).lookup other) =
          (keys.erase k).filterMap fun other => rest.lookup other := by
        apply List.filterMap_congr
        intro other hother
        have hne : other ≠ k := (hkeys.mem_erase_iff.mp hother).1
        rw [List.lookup_cons, beq_eq_false_iff_ne.mpr hne]
      have hothers : forall other, other ∈ rest.map Prod.fst -> other ∈ keys.erase k := by
        intro other hother
        rw [hkeys.mem_erase_iff]
        constructor
        · intro heq
          rw [heq] at hother
          exact hentries.1 hother
        · exact hall other (List.mem_cons_of_mem _ hother)
      have hstep := (List.perm_cons_erase hk).filterMap fun other => ((k, v) :: rest).lookup other
      rw [List.filterMap_cons, List.lookup_cons_self, hrest] at hstep
      exact hstep.trans ((ih hentries.2 (hkeys.erase k) hothers).cons v)

theorem flatMap_lookup {α β γ : Type} [DecidableEq α] {entries : List (α × β)}
    (h : (entries.map Prod.fst).Nodup) (key : α) (f : β -> List γ) :
    (entries.flatMap fun x => if x.1 == key then f x.2 else []) =
      ((entries.lookup key).map f).getD [] := by
  induction entries with
  | nil => rfl
  | cons entry rest ih =>
      rcases entry with ⟨k, v⟩
      rw [List.map_cons, List.nodup_cons] at h
      rw [List.flatMap_cons, ih h.2]
      by_cases heq : key = k
      · have hnone : rest.lookup key = none := by
          rw [List.lookup_eq_none_iff]
          intro entry hentry
          rw [bne_iff_ne, heq]
          intro hk
          exact h.1 (List.mem_map.mpr ⟨entry, hentry, hk.symm⟩)
        simp [heq, heq ▸ hnone]
      · have hne : (key == k) = false := beq_eq_false_iff_ne.mpr heq
        have hne' : (k == key) = false := beq_eq_false_iff_ne.mpr (Ne.symm heq)
        simp [List.lookup_cons, hne, hne']

structure StateBlock.IsWrittenIn (s : StateBlock) (ts : List Token) : Prop where
  name : nextName? ts = some s.name
  keys : writtenKeys ts = (Block.actionsOf s.on).map fun a => a.message.getD ""

theorem afterStates_append {us : List Token} (h : forall u, u ∈ us -> u.opensState = false)
    (ts : List Token) : afterStates (us ++ ts) = afterStates ts := by
  induction us with
  | nil => rfl
  | cons u rest ih =>
      rw [List.cons_append, afterStates, h u List.mem_cons_self]
      exact ih fun t ht => h t (List.mem_cons_of_mem _ ht)

theorem AreInner.afterStates_append {us : List Token} (h : AreInner us) (ts : List Token) :
    afterStates (us ++ ts) = afterStates ts := by
  apply BehaviorScript.afterStates_append
  intro u hu
  exact beq_eq_false_iff_ne.mpr ((h u hu).1 .state)

theorem nextName?_append {nl : List Token} (h : Grammar.AreNewlines nl) {name : Token}
    (hname : name.kind = .word) (ts : List Token) :
    nextName? (nl ++ name :: ts) = some name.text := by
  induction nl with
  | nil => simp [nextName?, hname]
  | cons t rest ih =>
      have ht : (t.kind != .newline) = false := by
        simp [h t List.mem_cons_self]
      rw [nextName?, List.cons_append, List.find?_cons_of_neg (by simp [ht])]
      exact ih fun u hu => h u (List.mem_cons_of_mem _ hu)

namespace Grammar

variable {options : Options}

theorem AreNewlines.afterStates_append {nl : List Token} (h : AreNewlines nl) (ts : List Token) :
    afterStates (nl ++ ts) = afterStates ts := by
  apply BehaviorScript.afterStates_append
  intro t ht
  rw [Token.opensState, h t ht]
  rfl

theorem AreActions.afterStates_append {inOn : Bool} {ts rest : List Token} {as : List ActionLine}
    (h : AreActions options inOn ts rest as) (us : List Token) :
    afterStates (ts ++ us) = afterStates us := by
  induction h with
  | nil => rfl
  | cons hnl haction _ ih =>
      rw [List.append_assoc, List.append_assoc, hnl.afterStates_append,
        haction.areInner.afterStates_append, ih]

theorem AreSections.afterStates_append {ts rest : List Token}
    {sections : List (SectionKind × Block)} (h : AreSections options ts rest sections)
    (us : List Token) : afterStates (ts ++ us) = afterStates us := by
  induction h with
  | nil => rfl
  | @cons nl ts vs rest t kind actions sections hnl hkind hactions _ ih =>
      have hassoc : nl ++ t :: ts ++ vs ++ us = nl ++ t :: (ts ++ (vs ++ us)) := by
        simp
      have ht : t.opensState = false := by
        rw [Token.opensState, hkind]
        cases kind <;> rfl
      rw [hassoc, hnl.afterStates_append, afterStates, ht]
      exact (hactions.afterStates_append _).trans ih

theorem IsState.afterStates_append {ts rest : List Token} {s : StateBlock}
    (h : IsState options ts rest s) (hrest : EndsKeys rest) :
    exists tail, afterStates (ts ++ rest) = tail :: afterStates rest ∧ s.IsWrittenIn tail := by
  cases h with
  | @mk t name nl ts rest sections ht hnl hname hsections hkinds =>
      have hinner : AreInner [name] :=
        areInner_of_isLiteral (isLiteral_of_word hname) areInner_nil
      have hbody : afterStates (nl ++ name :: (ts ++ rest)) = afterStates rest := by
        rw [hnl.afterStates_append]
        exact (hinner.afterStates_append _).trans (hsections.afterStates_append _)
      have hassoc : t :: nl ++ name :: ts ++ rest = t :: (nl ++ name :: (ts ++ rest)) := by
        simp
      have hopens : t.opensState = true := by
        rw [Token.opensState, ht]
        rfl
      refine ⟨nl ++ name :: (ts ++ rest), ?_, nextName?_append hnl hname _, ?_⟩
      · rw [hassoc, afterStates, hopens, hbody]
        rfl
      · rw [writtenKeys, keysFrom_newlines hnl, keysFrom_inner hinner, Bool.false_and,
          if_neg Bool.false_ne_true, keysFrom_outside, hsections.keysFrom_append hrest,
          flatMap_lookup hkinds .on fun b => b.actions.map fun a => a.message.getD ""]
        cases hon : sections.lookup .on <;> simp [stateOf, hon, Block.actionsOf]

theorem AreStates.endsKeys {ts rest : List Token} {ss : List StateBlock}
    (h : AreStates options ts rest ss) (hrest : EndsKeys rest) : EndsKeys (ts ++ rest) := by
  cases h with
  | nil => exact hrest
  | cons hnl hstate =>
      rw [List.append_assoc, List.append_assoc]
      apply hnl.endsKeys
      cases hstate with
      | mk ht => exact fun inOn => keysFrom_state ht inOn true _

theorem AreStates.areWritten {ts rest : List Token} {ss : List StateBlock}
    (h : AreStates options ts rest ss) (hrest : EndsKeys rest) (hlast : afterStates rest = []) :
    List.Forall₂ StateBlock.IsWrittenIn ss (afterStates (ts ++ rest)) := by
  induction h with
  | nil =>
      rw [List.nil_append, hlast]
      exact List.Forall₂.nil
  | cons hnl hstate hstates ih =>
      rcases hstate.afterStates_append (hstates.endsKeys hrest) with ⟨tail, htail, hwritten⟩
      rw [List.append_assoc, List.append_assoc, hnl.afterStates_append, htail]
      exact List.Forall₂.cons hwritten (ih hrest hlast)

theorem IsFile.areWritten {ts : List Token} {script : Script} (h : IsFile options ts script) :
    List.Forall₂ StateBlock.IsWrittenIn script.states (afterStates ts) := by
  cases h with
  | @mk nl₁ nl₂ nl₃ ts us t name action states hnl₁ ht hnl₂ hname haction hstates hnl₃ =>
      have hassoc : nl₁ ++ t :: nl₂ ++ name :: ts ++ us ++ nl₃ =
          nl₁ ++ t :: (nl₂ ++ name :: (ts ++ (us ++ nl₃))) := by
        simp
      have hfirst : t.opensState = false := by
        rw [Token.opensState, ht]
        rfl
      have hline : AreInner (name :: ts) :=
        areInner_of_isLiteral (isLiteral_of_word hname) haction.areInner
      have hends : EndsKeys nl₃ := by
        intro inOn
        have hnil := keysFrom_newlines hnl₃ inOn []
        rwa [List.append_nil] at hnil
      have hlast : afterStates nl₃ = [] := by
        have hnil := hnl₃.afterStates_append []
        rwa [List.append_nil] at hnil
      rw [hassoc, hnl₁.afterStates_append, afterStates, hfirst]
      have hskip := (hnl₂.afterStates_append _).trans (hline.afterStates_append (us ++ nl₃))
      have hstates' := hstates.areWritten hends hlast
      rw [← hskip] at hstates'
      exact hstates'

/-!
## Arrows
-/

theorem AreNewlines.countP_isArrow {nl : List Token} (h : AreNewlines nl) :
    nl.countP Token.isArrow = 0 := by
  rw [List.countP_eq_zero]
  intro t ht
  rw [Token.isArrow, h t ht]
  simp

theorem AreActions.countP_isArrow {inOn : Bool} {ts rest : List Token} {as : List ActionLine}
    (h : AreActions options inOn ts rest as) :
    ts.countP Token.isArrow = Param.countArrows (as.flatMap ActionLine.params) := by
  induction h with
  | nil => rfl
  | cons hnl haction _ ih =>
      rw [List.countP_append, List.countP_append, hnl.countP_isArrow, haction.countP_isArrow, ih,
        List.flatMap_cons, Param.countArrows_append, Nat.zero_add]

theorem countP_isArrow_of_keyword {t : Token} {k : Keyword} (h : t.kind = .keyword k)
    (ts : List Token) : (t :: ts).countP Token.isArrow = ts.countP Token.isArrow := by
  apply List.countP_cons_of_neg
  simp [Token.isArrow, h]

theorem AreSections.countP_isArrow {ts rest : List Token} {sections : List (SectionKind × Block)}
    (h : AreSections options ts rest sections) :
    ts.countP Token.isArrow =
      Param.countArrows
        (((sections.map Prod.snd).flatMap Block.actions).flatMap ActionLine.params) := by
  induction h with
  | nil => rfl
  | cons hnl hkind hactions _ ih =>
      rw [List.countP_append, List.countP_append, hnl.countP_isArrow,
        countP_isArrow_of_keyword hkind, hactions.countP_isArrow, ih, List.map_cons,
        List.flatMap_cons, List.flatMap_append, Param.countArrows_append, Nat.zero_add]

/--
The sections that a state has are those that were written, in another order.
-/
theorem stateOf_blocks_perm {sections : List (SectionKind × Block)}
    (h : (sections.map Prod.fst).Nodup) (line : Nat) (name : String) :
    (stateOf line name sections).blocks.Perm (sections.map Prod.snd) := by
  have hkinds : [SectionKind.enter, .exit, .run, .on].Nodup := by decide
  have hall : forall kind, kind ∈ sections.map Prod.fst ->
      kind ∈ [SectionKind.enter, .exit, .run, .on] := by
    intro kind _
    cases kind <;> decide
  exact filterMap_lookup_perm h hkinds hall

theorem IsState.countP_isArrow {ts rest : List Token} {s : StateBlock}
    (h : IsState options ts rest s) :
    ts.countP Token.isArrow = Param.countArrows (s.actions.flatMap ActionLine.params) := by
  cases h with
  | @mk t name nl ts rest sections ht hnl hname hsections hkinds =>
      have hperm := ((stateOf_blocks_perm hkinds t.line name.text).flatMap_right
        Block.actions).flatMap_right ActionLine.params
      rw [List.countP_append, countP_isArrow_of_keyword ht, hnl.countP_isArrow,
        countP_isArrow_of_isLiteral (isLiteral_of_word hname), hsections.countP_isArrow,
        Nat.zero_add]
      exact (hperm.countP_eq _).symm

theorem AreStates.countP_isArrow {ts rest : List Token} {ss : List StateBlock}
    (h : AreStates options ts rest ss) :
    ts.countP Token.isArrow =
      Param.countArrows ((ss.flatMap StateBlock.actions).flatMap ActionLine.params) := by
  induction h with
  | nil => rfl
  | cons hnl hstate _ ih =>
      rw [List.countP_append, List.countP_append, hnl.countP_isArrow, hstate.countP_isArrow, ih,
        List.flatMap_cons, List.flatMap_append, Param.countArrows_append, Nat.zero_add]

theorem IsFile.countP_isArrow {ts : List Token} {script : Script} (h : IsFile options ts script) :
    ts.countP Token.isArrow = Param.countArrows script.params := by
  cases h with
  | mk hnl₁ ht hnl₂ hname haction hstates hnl₃ =>
      simp only [List.countP_append, countP_isArrow_of_keyword ht,
        countP_isArrow_of_isLiteral (isLiteral_of_word hname), hnl₁.countP_isArrow,
        hnl₂.countP_isArrow, hnl₃.countP_isArrow, haction.countP_isArrow, hstates.countP_isArrow,
        Nat.zero_add, Nat.add_zero]
      exact (Param.countArrows_append _ _).symm

end Grammar

end BehaviorScript
