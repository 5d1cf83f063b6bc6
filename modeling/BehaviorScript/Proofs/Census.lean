import BehaviorScript.Proofs.ByteOrder
import BehaviorScript.Proofs.Realization
import BehaviorScript.Proofs.Tally
import Mathlib.Algebra.GroupWithZero.Nat

/-!
# Counts are conserved

The numbers that a compilation shows come from four stages: tokens from the scan, states from the
parser, transitions from resolving, and actions from building.  No stage drops, doubles or merges
anything, so all of them agree with what can be counted in the tokens.
-/

namespace BehaviorScript

/-!
## What the stages count
-/

theorem ActionLine.forall₂_params_of_resolve {table : NameTable} {a b : ActionLine} {count : Nat}
    (h : a.resolve table = .ok (b, count)) :
    List.Forall₂ (fun x y => x.resolve table = .ok (y, Param.countArrows [x])) a.params
      b.params := by
  rcases resolve_eq_ok h with ⟨params, hparams, rfl⟩
  exact hparams

namespace Script

variable {table : NameTable} {script resolved : Script} {count : Nat}

theorem forall₂_actions_of_resolveWith (h : script.resolveWith table = .ok (resolved, count)) :
    List.Forall₂ (fun a b => a.resolve table = .ok (b, Param.countArrows a.params))
      script.actions resolved.actions :=
  List.rel_flatMap (resolveWith_eq_ok h).2.1 fun _ _ hs => (StateBlock.resolve_eq_ok hs).actions

theorem forall₂_params_of_resolveWith (h : script.resolveWith table = .ok (resolved, count)) :
    List.Forall₂ (fun x y => x.resolve table = .ok (y, Param.countArrows [x])) script.params
      resolved.params := by
  apply List.rel_append (ActionLine.forall₂_params_of_resolve (resolveWith_eq_ok h).1)
  exact List.rel_flatMap (forall₂_actions_of_resolveWith h) fun _ _ ha =>
    ActionLine.forall₂_params_of_resolve ha

end Script

/-!
## Rows

A row repeats what its state has, and a state has what was written for it.
-/

def StateRow.total (row : StateRow) : Nat :=
  row.enterActions + row.runActions + row.exitActions + row.messages.length

structure StateRow.IsWrittenIn (row : StateRow) (ts : List Token) : Prop where
  name : nextName? ts = some row.name
  keys : row.messages.Perm (writtenKeys ts)
  increasing : row.messages.Pairwise fun a b => Text.bytes a < Text.bytes b

theorem State.Realizes.total_row {σ : Type} {R : ActionLine -> Action σ -> Prop}
    {block : StateBlock} {s : State σ} (h : s.Realizes R block) (id : Int32) :
    (s.row id).total = block.actions.length := by
  have hkeys : s.messageKeys.length = s.on.length := by
    rw [s.messageKeys_perm.length_eq, List.length_map]
  have henter := h.enter.length_eq
  have hexit := h.exit.length_eq
  have hrun := h.run.length_eq
  have hon := h.on.length_eq
  simp only [StateRow.total, State.row, StateBlock.actions_eq, List.length_append, hkeys]
  omega

theorem State.Realizes.isWrittenIn_row {σ : Type} {R : ActionLine -> Action σ -> Prop}
    {block : StateBlock} {s : State σ} (h : s.Realizes R block) {ts : List Token}
    (hts : block.IsWrittenIn ts) (id : Int32) : (s.row id).IsWrittenIn ts where
  name := by
    rw [hts.name, ← h.name]
    rfl
  keys := by
    have hkeys : writtenKeys ts = s.on.map Prod.fst := by
      rw [hts.keys]
      exact map_eq_map_of_forall₂ (fun _ _ hx => hx.1.symm) h.on
    rw [hkeys]
    exact s.messageKeys_perm
  increasing := messageKeys_increasing h.keys

theorem Machine.length_rows {σ : Type} (m : Machine σ) : m.rows.length = m.states.length := by
  rw [rows, List.length_map, List.length_zipIdx]

theorem Machine.getElem?_rows {σ : Type} (m : Machine σ) (k : Nat) :
    m.rows[k]? = m.states[k]?.map fun s => s.row (Int32.ofNat k) := by
  simp [rows, Option.map_map, Function.comp_def]

theorem Machine.Realizes.total_rows {σ : Type} {R : ActionLine -> Action σ -> Prop}
    {script : Script} {m : Machine σ} (h : m.Realizes R script) :
    (m.rows.map StateRow.total).sum = script.actions.length := by
  have hrows : m.rows.map StateRow.total = m.states.map fun s => (s.row 0).total := by
    calc
      m.rows.map StateRow.total = (m.states.zipIdx.map Prod.fst).map fun s => (s.row 0).total := by
        rw [rows, List.map_map, List.map_map]
        rfl
      _ = m.states.map fun s => (s.row 0).total := by rw [List.zipIdx_map_fst]
  have hstates : script.states.map (fun s => s.actions.length) =
      m.states.map fun s => (s.row 0).total :=
    map_eq_map_of_forall₂ (fun _ _ hs => (hs.total_row 0).symm) h.states
  rw [hrows, ← hstates, Script.actions, List.length_flatMap]

/--
The numbers of a build and its rows are those that can be counted in the tokens: as many of the
rows, of the states that were parsed and of the states of the machine as there are `@state`, in
their order, and as many transitions as arrows.
-/
structure Build.Conserves {σ : Type} (b : Build σ) (ts : List Token) : Prop where
  tokens : b.tokens = ts.length
  transitions : b.transitions = ts.countP Token.isArrow
  parsed : b.stages.lookup "parse" = some (ts.countP Token.opensState)
  states : b.machine.states.length = ts.countP Token.opensState
  rows : b.machine.rows.length = ts.countP Token.opensState
  row : forall (k : Nat) (row : StateRow), b.machine.rows[k]? = some row ->
    row.id.toInt = k ∧ exists us, (afterStates ts)[k]? = some us ∧ row.IsWrittenIn us
  actions : b.actions = (b.machine.rows.map StateRow.total).sum

/--
No stage of a compilation loses or doubles anything.
-/
theorem counts_are_conserved {σ : Type} (options : Options) (registry : Registry σ)
    (source : String) (b : Build σ) (hcompile : (compile options registry source).result = .ok b)
    (hbound : b.machine.states.length ≤ 2 ^ 31) :
    b.Conserves (scan source).tokens := by
  rcases numbers_of_compile_eq_ok hcompile with
    ⟨script, table, resolved, hcompiled, hresolve, htokens, hstates, hactions⟩
  have hfile := Script.ofTokens_eq_ok_iff.mp hcompiled.parsed
  have hrealizes := hcompiled.realizes
  have hlength : b.machine.states.length = (scan source).tokens.countP Token.opensState := by
    rw [← length_afterStates, ← hfile.areWritten.length_eq, hcompiled.length_states]
  have hparsed : b.states = (scan source).tokens.countP Token.opensState := by
    rw [hstates, ← (Script.resolveWith_eq_ok hresolve).2.1.length_eq, ← hcompiled.length_states,
      hlength]
  constructor
  case tokens => exact htokens
  case transitions =>
    rw [(Script.resolveWith_eq_ok hresolve).2.2, hfile.countP_isArrow]
  case parsed =>
    rw [← hparsed]
    rfl
  case states => exact hlength
  case rows => rw [Machine.length_rows, hlength]
  case row =>
    intro k row hrow
    rw [Machine.getElem?_rows, Option.map_eq_some_iff] at hrow
    rcases hrow with ⟨s, hs, rfl⟩
    have hk : k < 2 ^ 31 := Nat.lt_of_lt_of_le (List.getElem?_eq_some_iff.mp hs).1 hbound
    have hrel := rel_getElem?_of_forall₂ hrealizes.states k
    rw [hs] at hrel
    generalize hfound : script.states[k]? = found at hrel
    cases hrel with
    | some hrow =>
        rcases exists_of_forall₂_getElem? hfile.areWritten hfound with ⟨ts, hts, hblock⟩
        exact ⟨Int32.toInt_ofNat_of_lt hk, ts, hts, hrow.isWrittenIn_row hblock _⟩
  case actions =>
    rw [hactions, hrealizes.total_rows]
    exact (Script.forall₂_actions_of_resolveWith hresolve).length_eq.symm

def censusSource : String :=
  "@machine m->b\n@state b\n@on\nz:->a\nk:log x\n@run\nyield\n@state\na\n@enter\nlog y"

theorem counts_are_conserved_two_states :
    exists (r : Registry Unit) (b : Build Unit),
      Registry.builtins Unit {} = .ok r ∧
        (compile {} r censusSource).result = .ok b ∧
        (b.machine.states.map fun s => (s.name, s.on.map Prod.fst)) =
          [("b", ["z", "k"]), ("a", [])] ∧
        b.Conserves (scan censusSource).tokens := by
  have heval : ((Registry.builtins Unit {}).toOption.map fun r =>
      (compile {} r censusSource).result.toOption.map fun b =>
        b.machine.states.map fun s => (s.name, s.on.map Prod.fst)) =
      some (some [("b", ["z", "k"]), ("a", [])]) := by
    decide +kernel
  rcases exists_of_toOption_map_eq_some heval with ⟨r, hr, hcompile⟩
  rcases exists_of_toOption_map_eq_some hcompile with ⟨b, hb, hstates⟩
  have htwo : b.machine.states.length = 2 := by
    simpa using congrArg List.length hstates
  have hbound : b.machine.states.length ≤ 2 ^ 31 := by
    rw [htwo]
    decide
  exact ⟨r, b, hr, hb, hstates, counts_are_conserved {} r censusSource b hb hbound⟩

end BehaviorScript
