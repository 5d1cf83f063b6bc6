import BehaviorScript.Proofs.Registration

/-!
# The registry of the built-in actions

Registering appends, so the registry of the built-in actions holds exactly their
schemas, in their order, and later registrations leave what they are called by.  A state that an
action reads from its bindings is one that was bound.
-/

namespace BehaviorScript

variable {σ : Type}

namespace Registry

theorem registerAll_cons_eq_ok {r r' : Registry σ} {s : Schema σ} {rest : List (Schema σ)}
    (h : r.registerAll (s :: rest) = (.ok (), r')) :
    r.register s = (.ok (), r.appended s) ∧ (r.appended s).registerAll rest = (.ok (), r') := by
  rw [registerAll] at h
  rcases register_cases r s with ⟨e, hrun⟩ | ⟨_, hrun⟩
  · rw [hrun] at h
    cases h
  · rw [hrun] at h
    exact ⟨hrun, h⟩

theorem schemas_of_registerAll {r r' : Registry σ} {schemas : List (Schema σ)}
    (h : r.registerAll schemas = (.ok (), r')) :
    r'.schemas = r.schemas ++ schemas := by
  induction schemas generalizing r with
  | nil =>
      cases h
      simp
  | cons s rest ih =>
      rw [ih (registerAll_cons_eq_ok h).2, List.append_cons]
      rfl

/--
A row of registrations that succeeds is a row of calls of which none failed.
-/
theorem attemptAll_of_registerAll {r r' : Registry σ} {schemas : List (Schema σ)}
    (h : r.registerAll schemas = (.ok (), r')) : r.attemptAll schemas = r' := by
  induction schemas generalizing r with
  | nil =>
      cases h
      rfl
  | cons s rest ih =>
      rcases registerAll_cons_eq_ok h with ⟨hs, hrest⟩
      show attemptAll (r.register s).2 rest = r'
      rw [hs]
      exact ih hrest

theorem IsConsistent.registerAll {r r' : Registry σ} (hr : r.IsConsistent)
    {schemas : List (Schema σ)} (h : r.registerAll schemas = (.ok (), r')) : r'.IsConsistent := by
  rw [← attemptAll_of_registerAll h]
  exact hr.attemptAll schemas

theorem IsConsistent.find?_registerAll {r r' : Registry σ} (hr : r.IsConsistent)
    {schemas : List (Schema σ)} (h : r.registerAll schemas = (.ok (), r')) {name : String}
    {s : Schema σ} (hs : r.find? name = some s) : r'.find? name = some s := by
  rcases hr.find?_eq_some_iff.mp hs with ⟨hmem, hcalled⟩
  apply (hr.registerAll h).find?_eq_some_iff.mpr
  rw [schemas_of_registerAll h]
  exact ⟨List.mem_append_left _ hmem, hcalled⟩

theorem mem_schemas_of_find? {r : Registry σ} {name : String} {s : Schema σ}
    (h : r.find? name = some s) : s ∈ r.schemas := by
  rcases Option.bind_eq_some_iff.mp h with ⟨_, _, hs⟩
  exact List.mem_of_getElem? hs

theorem registerAll_of_builtins {options : Options} {r : Registry σ}
    (h : Registry.builtins σ options = .ok r) :
    Registry.empty.registerAll (Builtin.schemas σ options) = (.ok (), r) := by
  unfold builtins at h
  split at h
  · next hall =>
      cases h
      exact hall
  · cases h

theorem isConsistent_builtins {options : Options} {r : Registry σ}
    (h : Registry.builtins σ options = .ok r) : r.IsConsistent :=
  isConsistent_empty.registerAll (registerAll_of_builtins h)

theorem schemas_of_builtins {options : Options} {r : Registry σ}
    (h : Registry.builtins σ options = .ok r) :
    r.schemas = Builtin.schemas σ options := by
  rw [schemas_of_registerAll (registerAll_of_builtins h)]
  rfl

end Registry

theorem Registry.find?_builtins {options : Options} {r : Registry σ}
    (h : Registry.builtins σ options = .ok r) (name : String) :
    r.find? name =
      if Text.sameName options.transitionAction name || Text.sameName "goto" name then
        some (Builtin.goto σ options)
      else if Text.sameName "yield" name then some (Builtin.answer σ "yield" .yield)
      else if Text.sameName "done" name then some (Builtin.answer σ "done" .done)
      else if Text.sameName "loop" name then some (Builtin.answer σ "loop" .loop)
      else if Text.sameName "log" name then some (Builtin.log σ)
      else none := by
  rw [(isConsistent_builtins h).find?_eq, schemas_of_builtins h]
  simp only [Builtin.schemas, Builtin.goto, Builtin.answer, Builtin.log, Schema.ofAction,
    Schema.isCalled, Schema.names, Schema.withAlias, Schema.withDefault, List.find?_cons,
    List.find?_nil, List.nil_append, List.any_cons, List.any_nil, Bool.or_false]
  cases Text.sameName options.transitionAction name || Text.sameName "goto" name with
  | true => rfl
  | false =>
      cases Text.sameName "yield" name with
      | true => rfl
      | false =>
          cases Text.sameName "done" name with
          | true => rfl
          | false =>
              cases Text.sameName "loop" name with
              | true => rfl
              | false => cases Text.sameName "log" name <;> rfl

theorem Bindings.get?_of_transition {bs : Bindings} {property : String} {destination : UInt64}
    (h : bs.transition property = .ok destination) :
    bs.get? property = some (.state destination) := by
  unfold transition find at h
  cases hget : bs.get? property with
  | none => simp [hget, require] at h
  | some b =>
      cases b with
      | value v => simp [hget, require, ofState] at h
      | state index =>
          simp only [hget, require, ofState, Except.ok.injEq] at h
          rw [h]

end BehaviorScript
