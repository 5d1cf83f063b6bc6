import BehaviorScript.Proofs.Builtins
import BehaviorScript.Proofs.Realization
import Mathlib.Algebra.Group.Nat.Defs

/-!
# Destinations that a script binds

An action of the host may answer with any destination it likes.  The actions considered
here only pass on the destinations that a script bound for them, and leave the position
and the error of the context to the machine.  Resolving puts only numbers of states into
a script, so the actions that such schemas build for it go to states of the script only.
-/

namespace BehaviorScript

variable {σ : Type}

/-!
## Actions that leave the bookkeeping to the machine
-/

/--
The action does not touch the position or the error of the context, and raises no fault.
-/
structure Action.IsQuiet (x : Action σ) : Prop where
  position : forall c, (x c).context.position = c.position
  error : forall c, (x c).context.lastError = c.lastError
  raised : forall c fault id, Event.raised fault id ∉ (x c).events

/--
Every action that the schema builds is quiet, and goes only to states that were bound for it.
-/
structure Schema.IsTame (s : Schema σ) : Prop where
  quiet : forall bs x, s.build bs = .ok x -> Action.IsQuiet x
  bound : forall bs x c destination, s.build bs = .ok x ->
    (x c).value = .transition destination ->
    exists property, (property, Binding.state destination) ∈ bs.entries

def Registry.IsTame (r : Registry σ) : Prop :=
  forall s, s ∈ r.schemas -> s.IsTame

def TickResult.IsWithin (n : Nat) (result : TickResult) : Prop :=
  forall destination, result = .transition destination -> destination.toNat < n

structure Action.IsConfined (n : Nat) (x : Action σ) : Prop where
  quiet : Action.IsQuiet x
  inside : forall c, (x c).value.IsWithin n

/-!
## Lines of a script

Binding passes on only what resolving put into a line, and that is a number of the table.
-/

theorem ActionLine.state_of_bindingFor {a : ActionLine} {p : Property} {x : Param}
    {destination : UInt64} (h : a.bindingFor p x = .ok (.state destination)) :
    exists i, x.op = .transition ∧ x.resolved = some i ∧ destination = i.toUInt64 := by
  unfold bindingFor at h
  split at h
  · next hop _ =>
      cases hresolved : x.resolved with
      | none => simp [hresolved] at h
      | some i =>
          simp only [hresolved, Except.ok.injEq, Binding.state.injEq] at h
          exact ⟨i, hop, rfl, h.symm⟩
  · split at h <;> simp at h
  · simp at h

theorem ActionLine.state_mem_of_bindParams {a : ActionLine} {options : Options}
    {schema : Schema σ} {params : List Param} {bs bs' : Bindings} {property : String}
    {destination : UInt64}
    (h : a.bindParams options schema bs params = .ok bs')
    (hmem : (property, Binding.state destination) ∈ bs'.entries) :
    (property, Binding.state destination) ∈ bs.entries ∨
      exists x i, x ∈ params ∧ x.op = .transition ∧ x.resolved = some i ∧
        destination = i.toUInt64 := by
  induction params generalizing bs with
  | nil =>
      cases h
      exact Or.inl hmem
  | cons x rest ih =>
      rcases bindParams_cons_eq_ok h with ⟨p, b, _, hb, hrest⟩
      rcases ih hrest with hold | ⟨y, i, hy, hy'⟩
      · rcases Table.mem_put hold with hnew | hbefore
        · cases hnew
          rcases state_of_bindingFor hb with ⟨i, hop, hresolved, hi⟩
          exact Or.inr ⟨x, i, List.mem_cons_self, hop, hresolved, hi⟩
        · exact Or.inl hbefore
      · exact Or.inr ⟨y, i, List.mem_cons_of_mem _ hy, hy'⟩

theorem Param.resolved_lt {states : List StateBlock} {x y : Param} {count i : Nat}
    (h : x.resolve (.ofStates states) = .ok (y, count)) (hop : y.op = .transition)
    (hi : y.resolved = some i) : i < states.length := by
  rcases resolve_cases h with ⟨hassign, rfl⟩ | ⟨_, index, hfind, rfl⟩
  · rw [hassign] at hop
    cases hop
  · cases hi
    rcases NameTable.exists_of_find?_ofStates hfind with ⟨s, hs, _⟩
    exact (List.getElem?_eq_some_iff.mp hs).1

theorem ActionLine.CompilesTo.isConfined {options : Options} {registry : Registry σ}
    {states : List StateBlock} {a : ActionLine} {x : Action σ}
    (htame : registry.IsTame) (hsize : states.length ≤ 2 ^ 31)
    (h : a.CompilesTo options registry (.ofStates states) x) :
    x.IsConfined states.length := by
  rcases h with ⟨resolved, _, hresolve, hbuild⟩
  rcases resolve_eq_ok hresolve with ⟨params, hparams, rfl⟩
  rcases build_eq_ok hbuild with ⟨schema, bs, hfind, hbind, hx⟩
  have hschema : schema.IsTame := htame schema (Registry.mem_schemas_of_find? hfind)
  refine ⟨hschema.quiet bs x hx, ?_⟩
  intro c destination hvalue
  rcases hschema.bound bs x c destination hx hvalue with ⟨property, hmem⟩
  rcases state_mem_of_bindParams hbind hmem with hnone | ⟨z, i, hz, hop, hi, rfl⟩
  · cases hnone
  · rcases exists_of_forall₂_mem hparams hz with ⟨w, _, hw⟩
    have hlt := Param.resolved_lt hw hop hi
    rw [UInt64.toNat_ofNat_of_lt' (by simp only [UInt64.size]; omega)]
    exact hlt

/-!
## The built-in actions
-/

theorem Action.isQuiet_done (result : TickResult) :
    Action.IsQuiet (Activity.done result : Action σ) where
  position _ := rfl
  error _ := rfl
  raised _ _ _ hmem := by cases hmem

theorem Action.isQuiet_writeLog (message : String) :
    Action.IsQuiet (Builtin.writeLog message : Action σ) where
  position _ := rfl
  error _ := rfl
  raised _ _ _ hmem := by simp [Builtin.writeLog] at hmem

theorem Builtin.isTame_goto (options : Options) : (goto σ options).IsTame where
  quiet := by
    intro bs x hx
    rcases except_map_eq_ok hx with ⟨destination, _, rfl⟩
    exact Action.isQuiet_done _
  bound := by
    intro bs x c destination hx hvalue
    rcases except_map_eq_ok hx with ⟨index, hindex, rfl⟩
    cases hvalue
    exact ⟨_, mem_of_lookup_eq_some (Bindings.get?_of_transition hindex)⟩

theorem Builtin.isTame_answer (name : String) {result : TickResult}
    (hresult : forall destination, result ≠ .transition destination) :
    (answer σ name result).IsTame where
  quiet := by
    intro bs x hx
    cases hx
    exact Action.isQuiet_done result
  bound := by
    intro bs x c destination hx hvalue
    cases hx
    exact absurd hvalue (hresult destination)

theorem Builtin.isTame_log : (log σ).IsTame where
  quiet := by
    intro bs x hx
    rcases except_map_eq_ok hx with ⟨message, _, rfl⟩
    exact Action.isQuiet_writeLog message
  bound := by
    intro bs x c destination hx hvalue
    rcases except_map_eq_ok hx with ⟨message, _, rfl⟩
    cases hvalue

theorem Registry.isTame_builtins {options : Options} {r : Registry σ}
    (h : Registry.builtins σ options = .ok r) : r.IsTame := by
  intro s hs
  rw [schemas_of_builtins h] at hs
  simp only [Builtin.schemas, List.mem_cons, List.not_mem_nil, or_false] at hs
  rcases hs with rfl | rfl | rfl | rfl | rfl
  · exact Builtin.isTame_goto options
  · exact Builtin.isTame_answer "yield" fun _ hno => by cases hno
  · exact Builtin.isTame_answer "done" fun _ hno => by cases hno
  · exact Builtin.isTame_answer "loop" fun _ hno => by cases hno
  · exact Builtin.isTame_log

end BehaviorScript
