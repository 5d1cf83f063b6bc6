import BehaviorScript.Proofs.Builtins
import BehaviorScript.Proofs.Interpreter
import BehaviorScript.Proofs.Realization

/-!
# Compiled lines do what they say

With the built-in actions alone, a line of a script compiles to the action that carries
out the command of the line.  Resolving finds for a name the place of the state with that
name, and binding keeps for a property the last of the parameters given for it.
-/

namespace BehaviorScript

variable {σ : Type}

def Script.answer (s : Script) : Command -> TickResult
  | .goto target => .transition (s.number target).toUInt64
  | .yield => .yield
  | .loop => .loop
  | .done => .done
  | .log _ => .done

def Script.carryOut (s : Script) (command : Command) : Action σ :=
  fun c =>
    ⟨s.answer command, c, command.messages.map fun message => .logged message c.position.stateId⟩

/--
The line calls a built-in action, `x` carries out its command, and the command leads to a state
of the script if it leads anywhere.
-/
structure ActionLine.Means (options : Options) (s : Script) (a : ActionLine) (x : Action σ) :
    Prop where
  command : a.command? options = some (a.command options)
  action : x = s.carryOut (a.command options)
  known : forall target, a.command options = .goto target -> s.number target < s.states.length

/-!
## Numbers of states
-/

theorem Script.number_of_find? {s : Script} {name : String} {i : Nat}
    (h : (NameTable.ofStates s.states).find? name = some i) :
    s.number name = i ∧ i < s.states.length := by
  rw [NameTable.find?_ofStates] at h
  rcases List.findIdx?_eq_some_iff_findIdx_eq.mp h with ⟨hlt, heq⟩
  exact ⟨heq, hlt⟩

theorem Param.resolve_eq_ok {table : NameTable} {x y : Param} {count : Nat}
    (h : x.resolve table = .ok (y, count)) :
    y.name = x.name ∧ y.value = x.value ∧
      forall i, y.op = .transition -> y.resolved = some i -> table.find? y.value = some i := by
  rcases resolve_cases h with ⟨hop, rfl⟩ | ⟨_, index, hfind, rfl⟩
  · refine ⟨rfl, rfl, ?_⟩
    intro i htransition
    rw [hop] at htransition
    cases htransition
  · refine ⟨rfl, rfl, ?_⟩
    intro i _ hi
    cases hi
    exact hfind

/-!
## Binding the only property
-/

namespace ActionLine

theorem given?_congr {options : Options} {property : String} {params params' : List Param}
    {R : Param -> Param -> Prop} (hR : forall x y, R x y -> y.name = x.name ∧ y.value = x.value)
    (h : List.Forall₂ R params params') :
    given? options property params' = given? options property params := by
  unfold given?
  generalize (none : Option String) = found
  induction h generalizing found with
  | nil => rfl
  | cons hxy _ ih =>
      rcases hR _ _ hxy with ⟨hname, hvalue⟩
      simp only [List.foldl_cons, hname, hvalue]
      exact ih _

theorem get?_bind_self (bs : Bindings) (property : String) (b : Binding) :
    (bs.bind property b).get? property = some b := by
  rw [Bindings.bind, Bindings.get?, Table.lookup_put, if_pos rfl]

structure TakesOnly (schema : Schema σ) (p : Property) : Prop where
  properties : schema.properties = [p]
  default : schema.default? = some p

theorem propertyFor_eq_ok {a : ActionLine} {options : Options} {schema : Schema σ}
    {p q : Property} (hschema : TakesOnly schema p) {x : Param}
    (h : a.propertyFor options schema x = .ok q) :
    q = p ∧ (x.name = options.defaultParam ∨ Text.foldCase x.name = p.name) := by
  unfold propertyFor at h
  split at h
  · next hdefault =>
      simp only [hschema.default, Except.ok.injEq] at h
      exact ⟨h.symm, Or.inl hdefault⟩
  · rw [Schema.property?, hschema.properties] at h
    cases hname : p.name == Text.foldCase x.name with
    | false => simp [hname] at h
    | true =>
        simp only [List.find?_cons, hname, Except.ok.injEq] at h
        exact ⟨h.symm, Or.inr (eq_of_beq hname).symm⟩

theorem get?_of_bindParams {a : ActionLine} {options : Options} {schema : Schema σ}
    {property : String} {kind : Kind} {B : String -> Binding -> Prop}
    (hfold : Text.foldCase property = property) (hschema : TakesOnly schema ⟨property, kind⟩)
    {params : List Param}
    (hB : forall x b, x ∈ params -> a.bindingFor ⟨property, kind⟩ x = .ok b -> B x.value b)
    {bs : Bindings} (h : a.bindParams options schema {} params = .ok bs) :
    Option.Rel B (given? options property params) (bs.get? property) := by
  have hstart : Option.Rel B none (Bindings.get? {} property) := Option.Rel.none
  unfold given?
  revert h hstart
  generalize (none : Option String) = found
  generalize ({} : Bindings) = before
  -- Both sides go through the parameters from the left and drop what a later one replaces.
  induction params generalizing before found with
  | nil =>
      intro h hstart
      cases h
      exact hstart
  | cons x rest ih =>
      intro h _
      rcases bindParams_cons_eq_ok h with ⟨q, b, hp, hb, hrest⟩
      rcases propertyFor_eq_ok hschema hp with ⟨rfl, hname⟩
      have htargets : x.name = options.defaultParam ∨
          Text.sameName x.name property = true := by
        rw [Text.sameName_iff, hfold]
        exact hname
      rw [List.foldl_cons, if_pos htargets]
      apply ih (fun y b' hy => hB y b' (List.mem_cons_of_mem _ hy)) _ _ hrest
      rw [get?_bind_self]
      exact Option.Rel.some (hB x b List.mem_cons_self hb)

end ActionLine

/-!
## The built-in actions
-/

theorem Text.foldCase_target : foldCase "target" = "target" := by
  rw [← String.toList_inj, toList_foldCase]
  rfl

theorem Text.foldCase_message : foldCase "message" = "message" := by
  rw [← String.toList_inj, toList_foldCase]
  rfl

theorem ActionLine.takesOnly_withDefault {schema : Schema σ} (h : schema.properties = [])
    {name : String} (hname : Text.foldCase name = name) (kind : Kind) :
    TakesOnly (schema.withDefault name kind) ⟨name, kind⟩ where
  properties := by simp [Schema.withDefault, Schema.pushProperty, h, hname]
  default := by simp [Schema.withDefault, Schema.default?, Schema.pushProperty, h, hname]

theorem Builtin.takesOnly_goto (options : Options) :
    ActionLine.TakesOnly (goto σ options) ⟨"target", .state⟩ :=
  ActionLine.takesOnly_withDefault rfl Text.foldCase_target .state

theorem Builtin.takesOnly_log : ActionLine.TakesOnly (log σ) ⟨"message", .text⟩ :=
  ActionLine.takesOnly_withDefault rfl Text.foldCase_message .text

namespace ActionLine

variable {options : Options} {script : Script} {table : NameTable} {a : ActionLine}
variable {params : List Param} {bs : Bindings} {x : Action σ}

theorem given?_resolve {property : String}
    (h : List.Forall₂ (fun x y => x.resolve table = .ok (y, Param.countArrows [x]))
      a.params params) :
    given? options property params = given? options property a.params := by
  apply given?_congr _ h
  intro x y hxy
  exact ⟨(Param.resolve_eq_ok hxy).1, (Param.resolve_eq_ok hxy).2.1⟩

theorem goto_carries_out
    (htable : table = .ofStates script.states)
    (hparams : List.Forall₂ (fun x y => x.resolve table = .ok (y, Param.countArrows [x]))
      a.params params)
    (hbind : bindParams { a with params := params } options (Builtin.goto σ options) {} params =
      .ok bs)
    (hx : (Builtin.goto σ options).build bs = .ok x) :
    exists target, given? options "target" a.params = some target ∧
      x = script.carryOut (.goto target) ∧ script.number target < script.states.length := by
  rcases except_map_eq_ok hx with ⟨destination, hdestination, rfl⟩
  have hbound := get?_of_bindParams (B := fun name b => exists i, table.find? name = some i ∧
    b = .state i.toUInt64) Text.foldCase_target (Builtin.takesOnly_goto options) ?_ hbind
  · rw [Bindings.get?_of_transition hdestination, given?_resolve hparams] at hbound
    generalize given? options "target" a.params = given at hbound ⊢
    cases hbound with
    | @some target _ hstate =>
        rcases hstate with ⟨i, hfind, hi⟩
        cases hi
        rw [htable] at hfind
        rcases Script.number_of_find? hfind with ⟨hnumber, hlt⟩
        refine ⟨target, rfl, ?_, hnumber ▸ hlt⟩
        rw [← hnumber]
        rfl
  · intro y b hy hb
    rcases exists_of_forall₂_mem hparams hy with ⟨z, _, hz⟩
    unfold bindingFor at hb
    split at hb
    · next hop _ =>
        cases hresolved : y.resolved with
        | none => simp [hresolved] at hb
        | some i =>
            simp only [hresolved, Except.ok.injEq] at hb
            exact ⟨i, (Param.resolve_eq_ok hz).2.2 i hop hresolved, hb.symm⟩
    · next hconvert => cases hconvert
    · cases hb

theorem find_text_of_rel {given : Option String} {property : String} {found : Option String}
    (hbound : Option.Rel (fun v b => b = .value (.text v)) given (bs.get? property))
    (hfound : bs.find property .text (Bindings.ofValue Value.asText?) = .ok found) :
    found = given := by
  unfold Bindings.find at hfound
  generalize bs.get? property = b at hbound hfound
  cases hbound with
  | none =>
      cases hfound
      rfl
  | some hb =>
      subst hb
      cases hfound
      rfl

theorem log_carries_out
    (hparams : List.Forall₂ (fun x y => x.resolve table = .ok (y, Param.countArrows [x]))
      a.params params)
    (hbind : bindParams { a with params := params } options (Builtin.log σ) {} params = .ok bs)
    (hx : (Builtin.log σ).build bs = .ok x) :
    x = script.carryOut (.log ((given? options "message" a.params).getD "")) := by
  rcases except_map_eq_ok hx with ⟨message, hmessage, rfl⟩
  rcases except_map_eq_ok hmessage with ⟨found, hfound, rfl⟩
  have hbound := get?_of_bindParams (B := fun v b => b = .value (.text v))
    Text.foldCase_message Builtin.takesOnly_log ?_ hbind
  · rw [given?_resolve hparams] at hbound
    rw [find_text_of_rel hbound hfound]
    rfl
  · intro y b _ hb
    unfold bindingFor at hb
    split at hb
    · next hconvert => cases hconvert
    · next convert _ hconvert =>
        cases hconvert
        cases hb
        rfl
    · cases hb

theorem Means.of_command? (command : Command) (hcommand : a.command? options = some command)
    (haction : x = script.carryOut command)
    (hknown : forall target, command = .goto target ->
      script.number target < script.states.length) :
    a.Means options script x := by
  have heq : a.command options = command := by rw [ActionLine.command, hcommand, Option.getD_some]
  exact ⟨heq ▸ hcommand, heq ▸ haction, heq ▸ hknown⟩

/--
With the built-in actions alone, a line compiles to the action that carries out its command.
-/
theorem CompilesTo.means {registry : Registry σ}
    (hbuiltins : Registry.builtins σ options = .ok registry)
    (htable : table = .ofStates script.states)
    (h : a.CompilesTo options registry table x) :
    a.Means options script x := by
  rcases h with ⟨resolved, _, hresolve, hbuild⟩
  rcases resolve_eq_ok hresolve with ⟨params, hparams, rfl⟩
  rcases build_eq_ok hbuild with ⟨schema, bs, hfind, hbind, hx⟩
  rw [Registry.find?_builtins hbuiltins] at hfind
  -- The interpreter asks for the names in the order in which the actions are registered.
  have hanswer : forall (command : Command), a.command? options = some command ->
      (forall target, command ≠ .goto target) -> x = script.carryOut command ->
      a.Means options script x := by
    intro command hcommand hstays haction
    exact Means.of_command? command hcommand haction
      fun target htarget => absurd htarget (hstays target)
  split at hfind
  · next hgoto =>
      cases hfind
      rcases goto_carries_out htable hparams hbind hx with ⟨target, hgiven, haction, hlt⟩
      refine Means.of_command? (.goto target) ?_ haction ?_
      · rw [command?, isCalled, isCalled, if_pos hgoto, hgiven, Option.map_some]
      · intro other hother
        cases hother
        exact hlt
  split at hfind
  · cases hfind
    cases hx
    exact hanswer .yield (by simp_all [command?, isCalled]) (fun _ hno => by cases hno) rfl
  split at hfind
  · cases hfind
    cases hx
    exact hanswer .done (by simp_all [command?, isCalled]) (fun _ hno => by cases hno) rfl
  split at hfind
  · cases hfind
    cases hx
    exact hanswer .loop (by simp_all [command?, isCalled]) (fun _ hno => by cases hno) rfl
  split at hfind
  · cases hfind
    refine hanswer (.log ((given? options "message" a.params).getD "")) ?_
      (fun _ hno => by cases hno) (log_carries_out hparams hbind hx)
    simp_all [command?, isCalled]
  · cases hfind

end ActionLine

end BehaviorScript
