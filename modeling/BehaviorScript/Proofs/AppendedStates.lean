import BehaviorScript.Proofs.Parsing
import BehaviorScript.Proofs.Realization
import BehaviorScript.Proofs.Seams

/-!
# States can be added at the end

A script may be continued by further states.  The states that were there are read as before, because
what follows a state matters only where its last action ends.  They keep their numbers, because
new names come after theirs.  So every line compiles to the same action, and the longer
script is compiled to the machine of the shorter one with more states behind its own.
-/

namespace BehaviorScript
namespace Grammar

/-!
## What follows may be replaced

The judgments look at the tokens that follow only to see whether an operator is next and whether
the action is over.
-/

/--
What follows may be the second list as well as the first: they begin in the same way, or the second
ends the action.
-/
def MayReplace (rest rest' : List Token) : Prop :=
  next? rest' = next? rest ∨ EndsAction rest'

theorem MayReplace.append_left {rest rest' : List Token} (h : MayReplace rest rest')
    (ts : List Token) : MayReplace (ts ++ rest) (ts ++ rest') := by
  cases ts with
  | nil => exact h
  | cons t ts => exact Or.inl rfl

theorem endsAction_iff {rest : List Token} :
    EndsAction rest <-> next? rest = none ∨ next? rest = some .newline ∨
      exists k, next? rest = some (.keyword k) := by
  simp [EndsAction, next?]

theorem EndsAction.next?_ne_operator {rest : List Token} (h : EndsAction rest) (k : Operator) :
    next? rest ≠ some (.operator k) := by
  rcases endsAction_iff.mp h with hnext | hnext | ⟨_, hnext⟩ <;> simp [hnext]

theorem MayReplace.next?_ne_operator {rest rest' : List Token} (h : MayReplace rest rest')
    {k : Operator} (hnext : next? rest ≠ some (.operator k)) :
    next? rest' ≠ some (.operator k) := by
  rcases h with hsame | hend
  · rw [hsame]
    exact hnext
  · exact hend.next?_ne_operator k

theorem MayReplace.endsAction {rest rest' : List Token} (h : MayReplace rest rest')
    (hend : EndsAction rest) : EndsAction rest' := by
  rcases h with hsame | hend'
  · rw [endsAction_iff, hsame]
    exact endsAction_iff.mp hend
  · exact hend'

variable {options : Options} {ts rest rest' : List Token}

theorem IsParam.replace {x : Param} (h : IsParam options ts rest x)
    (hrest : MayReplace rest rest') : IsParam options ts rest' x := by
  cases h with
  | labeled hlabel hop hvalue => exact labeled hlabel hop hvalue
  | word hkind hnext => exact word hkind fun k => hrest.next?_ne_operator (hnext k)
  | quoted hkind hnext => exact quoted hkind (hrest.next?_ne_operator hnext)
  | arrow harrow htarget => exact arrow harrow htarget

theorem AreParams.replace {xs : List Param} (h : AreParams options ts rest xs)
    (hrest : MayReplace rest rest') : AreParams options ts rest' xs := by
  induction h with
  | nil => exact nil
  | @cons ts us rest x xs hx _ ih => exact cons (hx.replace (hrest.append_left us)) (ih hrest)

theorem IsCommand.replace {line : Nat} {name : String} {params : List Param}
    (h : IsCommand options ts rest line name params) (hrest : MayReplace rest rest') :
    IsCommand options ts rest' line name params := by
  cases h with
  | arrow harrow htarget => exact arrow harrow htarget
  | call hname hparams => exact call hname (hparams.replace hrest)

theorem IsAction.replace {inOn : Bool} {a : ActionLine} (h : IsAction options inOn ts rest a)
    (hrest : MayReplace rest rest') : IsAction options inOn ts rest' a := by
  cases h with
  | keyed hkey hcolon hcommand hend =>
      exact keyed hkey hcolon (hcommand.replace hrest) (hrest.endsAction hend)
  | plain hcommand hend => exact plain (hcommand.replace hrest) (hrest.endsAction hend)

theorem AreActions.replace {inOn : Bool} {as : List ActionLine}
    (h : AreActions options inOn ts rest as) (hrest : MayReplace rest rest') :
    AreActions options inOn ts rest' as := by
  induction h with
  | nil => exact nil
  | @cons nl ts us rest a as hnl ha _ ih =>
      exact cons hnl (ha.replace (hrest.append_left us)) (ih hrest)

theorem AreSections.replace {sections : List (SectionKind × Block)}
    (h : AreSections options ts rest sections) (hrest : MayReplace rest rest') :
    AreSections options ts rest' sections := by
  induction h with
  | nil => exact nil
  | @cons nl ts us rest t kind actions sections hnl hkind hactions _ ih =>
      exact cons hnl hkind (hactions.replace (hrest.append_left us)) (ih hrest)

theorem IsState.replace {s : StateBlock} (h : IsState options ts rest s)
    (hrest : MayReplace rest rest') : IsState options ts rest' s := by
  cases h with
  | mk ht hnl hname hsections hnodup => exact mk ht hnl hname (hsections.replace hrest) hnodup

theorem AreStates.replace {ss : List StateBlock} (h : AreStates options ts rest ss)
    (hrest : MayReplace rest rest') : AreStates options ts rest' ss := by
  induction h with
  | nil => exact nil
  | @cons nl ts us rest s ss hnl hs _ ih =>
      exact cons hnl (hs.replace (hrest.append_left us)) (ih hrest)

/-!
## Files with states behind them
-/

def AreOnlyStates (options : Options) (ts : List Token) (ss : List StateBlock) : Prop :=
  exists us nl, ts = us ++ nl ∧ AreNewlines nl ∧ AreStates options us nl ss

theorem endsAction_append {nl rest : List Token} (hnl : AreNewlines nl)
    (hrest : EndsBlock rest) : EndsAction (nl ++ rest) := by
  cases nl with
  | nil =>
      rcases hrest with hnone | hkeyword
      · exact Or.inl hnone
      · exact Or.inr (Or.inr hkeyword)
  | cons t nl =>
      apply Or.inr
      apply Or.inl
      simp [next?, hnl t List.mem_cons_self]

/--
When a file is continued by a state, all that is added to its script is more states.
-/
theorem IsFile.append {nl more : List Token} {script script' : Script}
    (h : IsFile options ts script) (hnl : AreNewlines nl)
    (hmore : next? more = some (.keyword .state))
    (h' : IsFile options (ts ++ nl ++ more) script') :
    exists blocks, AreOnlyStates options more blocks ∧
      script' = { script with states := script.states ++ blocks } := by
  cases h with
  | @mk nl₁ nl₂ nl₃ ts us t name action states hnl₁ ht hnl₂ hname haction hstates hnl₃ =>
      have hend : EndsState more := Or.inr ⟨.state, hmore, rfl⟩
      have hbetween := hnl₃.append hnl
      have hreplace : MayReplace nl₃ (nl₃ ++ nl ++ more) :=
        Or.inr (endsAction_append hbetween hend.endsBlock)
      let p : Parser := { options := options, endLine := 0 }
      have haction' : IsAction p.options false ts (us ++ (nl₃ ++ nl ++ more)) action :=
        haction.replace (hreplace.append_left us)
      have hstates' : AreStates p.options us (nl₃ ++ nl ++ more) states :=
        hstates.replace hreplace
      have hparsed := machine_of_isAction hnl₁ ht hnl₂ hname haction'
      rw [states_append hstates' hbetween hend rfl] at hparsed
      have hfile : p.machine (nl₁ ++ t :: nl₂ ++ name :: ts ++ (us ++ (nl₃ ++ nl ++ more))) =
          .ok (script', []) := by
        simpa using machine_of_isFile (p := p) h'
      rw [hfile] at hparsed
      rcases except_map_eq_ok hparsed.symm with ⟨⟨all, r⟩, hall, hscript⟩
      rcases except_map_eq_ok hall with ⟨⟨blocks, r'⟩, hblocks, hsplit⟩
      cases hsplit
      cases hscript
      rcases areStates_of_states hblocks with ⟨_, hmore⟩
      exact ⟨blocks, hmore, rfl⟩

end Grammar

/-!
## Tables with more names

A name that is in the table keeps its number when other names are put behind it, so a line that can
be resolved is resolved in the same way.
-/

section MoreNames

variable {t t' : NameTable} (ht : forall name i, t.find? name = some i -> t'.find? name = some i)

include ht

theorem Param.resolve_of_append {x y : Param} {count : Nat}
    (h : x.resolve t = .ok (y, count)) : x.resolve t' = .ok (y, count) := by
  have hcount := count_of_resolve h
  rcases resolve_cases h with ⟨hop, rfl⟩ | ⟨hop, i, hi, rfl⟩
  · simp [resolve, hop, hcount, countArrows]
  · simp [resolve, hop, ht _ _ hi, hcount, countArrows]

theorem ActionLine.CompilesTo.eq_of_append {σ : Type} {options : Options} {registry : Registry σ}
    {a : ActionLine} {x y : Action σ}
    (hx : a.CompilesTo options registry t x) (hy : a.CompilesTo options registry t' y) : x = y := by
  rcases hx with ⟨resolved, _, hresolve, hbuild⟩
  rcases hy with ⟨resolved', _, hresolve', hbuild'⟩
  rcases resolve_eq_ok hresolve with ⟨params, hparams, rfl⟩
  rcases resolve_eq_ok hresolve' with ⟨params', hparams', rfl⟩
  have hsame : params = params' := by
    apply eq_of_forall₂ _ hparams hparams'
    intro z z₁ z₂ h₁ h₂
    rw [Param.resolve_of_append ht h₁] at h₂
    exact (Prod.mk.inj (Except.ok.inj h₂)).1
  rw [← hsame, hbuild] at hbuild'
  exact Except.ok.inj hbuild'

end MoreNames

/-!
## Machines with more states
-/

variable {σ : Type}

theorem State.Realizes.eq {R R' : ActionLine -> Action σ -> Prop}
    (hagree : forall a x y, R a x -> R' a y -> x = y) {block : StateBlock} {s s' : State σ}
    (h : s.Realizes R block) (h' : s'.Realizes R' block) : s = s' := by
  have hname : s.name = s'.name := h.name.trans h'.name.symm
  have hrun := eq_of_forall₂ hagree h.run h'.run
  have henter := eq_of_forall₂ hagree h.enter h'.enter
  have hexit := eq_of_forall₂ hagree h.exit h'.exit
  have hon : s.on = s'.on := by
    apply eq_of_forall₂ _ h.on h'.on
    rintro a x y ⟨hkey, hx⟩ ⟨hkey', hy⟩
    exact Prod.ext (hkey.trans hkey'.symm) (hagree a x.2 y.2 hx hy)
  cases s
  cases s'
  simp_all

/--
The second machine is the first with more states behind its own.  A number stands for the same state
in both, and a name for the same number.
-/
structure Machine.IsContinuedBy (m : Machine σ) (later : List (State σ)) (m' : Machine σ) :
    Prop where
  name : m'.name = m.name
  enter : m'.enter = m.enter
  states : m'.states = m.states ++ later
  numbers : forall id s, m.state? id = some s -> m'.state? id = some s
  names : forall name id, m.stateId? name = some id -> m'.stateId? name = some id

theorem Machine.isContinuedBy_of_states {m m' : Machine σ} {later : List (State σ)}
    (hname : m'.name = m.name) (henter : m'.enter = m.enter)
    (hstates : m'.states = m.states ++ later) : m.IsContinuedBy later m' where
  name := hname
  enter := henter
  states := hstates
  numbers := by
    intro id s hs
    rw [state?] at hs ⊢
    split at hs
    · next hid =>
        rw [if_pos hid, hstates, List.getElem?_append_left (List.getElem?_eq_some_iff.mp hs).1]
        exact hs
    · cases hs
  names := by
    intro name id hid
    rw [stateId?, Option.map_eq_some_iff] at hid
    rcases hid with ⟨i, hi, rfl⟩
    rw [stateId?, hstates, List.findIdx?_append, hi]
    rfl

def Machine.nameTable (m : Machine σ) : NameTable :=
  ⟨(m.states.map fun s => Text.foldCase s.name).zipIdx⟩

theorem Compiled.nameTable_eq {options : Options} {registry : Registry σ} {source : String}
    {script : Script} {table : NameTable} {m : Machine σ}
    (h : Compiled options registry source script table m) : m.nameTable = table := by
  have hnames : script.states.map (fun b => Text.foldCase b.name) =
      m.states.map fun s => Text.foldCase s.name :=
    map_eq_map_of_forall₂ (fun _ _ hs => by rw [hs.name]) h.realizes.states
  rw [Machine.nameTable, ← hnames, h.table_eq, NameTable.ofStates]

def tokensBehind (before text : String) : List Token :=
  ((scan text).shift (Text.byteSize before.toList + 1) (before.toList.count '\n' + 1)).tokens

theorem next?_tokensBehind (before text : String) :
    Grammar.next? (tokensBehind before text) = Grammar.next? (scan text).tokens := by
  rw [tokensBehind, Scan.shift, Grammar.next?, Grammar.next?, List.head?_map, Option.map_map]
  rfl

theorem tokens_append_newline {before : String} (text : String)
    (h : (scan before).isComplete = true) :
    exists nl, Grammar.AreNewlines nl ∧
      (scan (before ++ "\n" ++ text)).tokens =
        (scan before).tokens ++ nl ++ tokensBehind before text := by
  rw [scan_append_newline, if_pos h]
  refine ⟨_, ?_, rfl⟩
  split
  · exact Grammar.areNewlines_nil
  · intro t ht
    rw [List.mem_singleton.mp ht]
    rfl

/--
Adding states at the end of a script changes nothing about what was there.  When the script compiles
with and without them, the longer script is compiled to the machine of the shorter one with more
states behind its own, and these carry out the blocks of the text that was added.
-/
theorem appended_states_come_behind (options : Options) (registry : Registry σ)
    (script added : String) (old new : Build σ)
    (hold : (compile options registry script).result = .ok old)
    (hnew : (compile options registry (script ++ "\n" ++ added)).result = .ok new)
    (hfirst : Grammar.next? (scan added).tokens = some (.keyword .state)) :
    exists blocks later, old.machine.IsContinuedBy later new.machine ∧
      Grammar.AreOnlyStates options (tokensBehind script added) blocks ∧
      List.Forall₂ (State.Realizes (ActionLine.CompilesTo options registry new.machine.nameTable))
        blocks later := by
  rcases compiled_of_compile_eq_ok hold with ⟨tree, table, hcompiled⟩
  rcases compiled_of_compile_eq_ok hnew with ⟨tree', table', hcompiled'⟩
  rcases tokens_append_newline added hcompiled.scanned with ⟨nl, hnl, htokens⟩
  have hfile := Script.ofTokens_eq_ok_iff.mp hcompiled.parsed
  have hfile' := Script.ofTokens_eq_ok_iff.mp hcompiled'.parsed
  rw [htokens] at hfile'
  rw [← next?_tokensBehind script] at hfirst
  rcases hfile.append hnl hfirst hfile' with ⟨blocks, hblocks, rfl⟩
  have hnames : forall name i, table.find? name = some i -> table'.find? name = some i := by
    intro name i hi
    rw [hcompiled.table_eq] at hi
    rw [hcompiled'.table_eq]
    exact NameTable.find?_ofStates_append hi blocks
  have hagree : forall a x y, ActionLine.CompilesTo options registry table a x ->
      ActionLine.CompilesTo options registry table' a y -> x = y :=
    fun _ _ _ => ActionLine.CompilesTo.eq_of_append hnames
  have hrealizes := hcompiled.realizes
  have hrealizes' := hcompiled'.realizes
  rcases exists_of_forall₂_append hrealizes'.states with ⟨first, later, hstates, hsame, hlater⟩
  have hkept : old.machine.states = first :=
    eq_of_forall₂ (fun _ _ _ h h' => h.eq hagree h') hrealizes.states hsame
  rw [← hkept] at hstates
  rw [hcompiled'.nameTable_eq]
  refine ⟨blocks, later, ?_, hblocks, hlater⟩
  apply Machine.isContinuedBy_of_states
  · exact hrealizes'.name.trans hrealizes.name.symm
  · exact (hagree _ _ _ hrealizes.enter hrealizes'.enter).symm
  · exact hstates

theorem appended_states_come_behind_one :
    let script := "@machine m->b\n@state b\n@run\n->b # again"
    let added := "@state a\n@on\nk:->b"
    exists (r : Registry Unit) (old new : Build Unit),
      Registry.builtins Unit {} = .ok r ∧
        (compile {} r script).result = .ok old ∧
        (compile {} r (script ++ "\n" ++ added)).result = .ok new ∧
        (new.machine.states.map fun s => (s.name, s.on.map Prod.fst)) =
          [("b", []), ("a", ["k"])] ∧
        exists blocks later, old.machine.IsContinuedBy later new.machine ∧
          Grammar.AreOnlyStates {} (tokensBehind script added) blocks ∧
          List.Forall₂ (State.Realizes (ActionLine.CompilesTo {} r new.machine.nameTable))
            blocks later := by
  intro script added
  have heval : ((Registry.builtins Unit {}).toOption.map fun r =>
      ((compile {} r script).result.toOption.map Build.states,
        (compile {} r (script ++ "\n" ++ added)).result.toOption.map fun b =>
          b.machine.states.map fun s => (s.name, s.on.map Prod.fst))) =
      some (some 1, some [("b", []), ("a", ["k"])]) := by
    decide +kernel
  rcases exists_of_toOption_map_eq_some heval with ⟨r, hr, hcompile⟩
  rcases Prod.mk.inj hcompile with ⟨hscript, hadded⟩
  rcases exists_of_toOption_map_eq_some hscript with ⟨old, hold, _⟩
  rcases exists_of_toOption_map_eq_some hadded with ⟨new, hnew, hstates⟩
  have hfirst : Grammar.next? (scan added).tokens = some (.keyword .state) := by decide +kernel
  exact ⟨r, old, new, hr, hold, hnew, hstates,
    appended_states_come_behind {} r script added old new hold hnew hfirst⟩

end BehaviorScript
