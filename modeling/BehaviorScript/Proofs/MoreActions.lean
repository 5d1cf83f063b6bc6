import BehaviorScript.Proofs.Builtins
import BehaviorScript.Proofs.SideBySide
import BehaviorScript.Proofs.Stages

/-!
# Registering more actions

A registration overwrites the places of the names that it brings, but it is refused when one of
them is taken, so it only ever adds look-ups that found nothing before.  A source that compiled
goes on to compile to the same machine, and a source that was rejected is rejected for the same
cause, unless that cause was the want of the very action that is registered now.
-/

namespace BehaviorScript

variable {σ : Type}

/-!
## Where a compilation asks for actions
-/

/--
Of all stages only building looks at the registry.  A compilation fails before it gets there, in
the same way for all registries, or else builds the same script.
-/
theorem compile_cases (options : Options) (source : String) :
    (exists e events, e.code.stage ≠ .generated ∧
        forall registry : Registry σ, compile options registry source = ⟨.error e, events⟩) ∨
      exists tokens transitions script events, forall registry : Registry σ,
        compile options registry source =
          Compilation.building options registry tokens transitions script events := by
  unfold compile Compilation.run
  simp only [Lexer.scan_eq]
  cases (scan source).stuck? with
  | some place =>
      rcases place with ⟨offset, line⟩
      exact Or.inl ⟨.unreadable line, _, by simp [CompileError.code, ErrorCode.stage], fun _ => rfl⟩
  | none =>
      cases hparse : Script.ofTokens options (scan source).tokens with
      | error e =>
          have hstage : e.code.stage ≠ .generated := by
            rw [(Script.ofTokens_eq_error hparse).1]
            nofun
          exact Or.inl ⟨e, _, hstage, fun _ => rfl⟩
      | ok script =>
          rcases hresolve : script.resolve {} with ⟨e | ⟨resolved, transitions⟩, table⟩
          · have hstage : e.code.stage ≠ .generated := by
              rw [(Script.resolve_eq_error hresolve).1]
              nofun
            simp only [hresolve]
            exact Or.inl ⟨e, _, hstage, fun _ => rfl⟩
          · simp only [hresolve]
            exact Or.inr ⟨_, transitions, resolved, _, fun _ => rfl⟩

/-!
## Builds under two registries
-/

section Registered

variable {r r' : Registry σ} {s : Schema σ}

theorem Registry.IsConsistent.isCalled_of_register (hr : r.IsConsistent)
    (h : r.register s = (.ok (), r')) {name : String} (hnone : r'.find? name = none) :
    s.isCalled name = false := by
  rw [hr.find?_register h, Option.or_eq_none_iff] at hnone
  cases hcalled : s.isCalled name with
  | false => rfl
  | true =>
      rw [hcalled] at hnone
      cases hnone.2

theorem Registry.IsConsistent.find?_of_register (hr : r.IsConsistent)
    (h : r.register s = (.ok (), r')) {name : String} {found : Schema σ}
    (hfound : r.find? name = some found) : r'.find? name = some found := by
  rw [hr.find?_register h, hfound, Option.some_or]

def Schema.Remedies (s : Schema σ) (e : CompileError) : Prop :=
  exists line name, e = .unknownAction line name ∧ s.isCalled name = true

def Registry.Lacks (r : Registry σ) (e : CompileError) : Prop :=
  forall line name, e = .unknownAction line name -> r.find? name = none

theorem ActionLine.build_of_find? {options : Options} {a : ActionLine}
    (h : r'.find? a.name = r.find? a.name) : a.build options r' = a.build options r := by
  unfold build
  rw [h]

theorem ActionLine.build_register {options : Options} (hr : r.IsConsistent)
    (h : r.register s = (.ok (), r')) (a : ActionLine) :
    Compares s.Remedies Eq Eq (a.build options r) (a.build options r') := by
  have hself (x : Except CompileError (Action σ)) : Compares s.Remedies Eq Eq x x := by
    cases x with
    | error e => exact Compares.error rfl
    | ok action => exact Compares.ok rfl
  cases hold : r.find? a.name with
  | some schema =>
      rw [build_of_find? ((hr.find?_of_register h hold).trans hold.symm)]
      exact hself _
  | none =>
      have hfind := hr.find?_register h a.name
      rw [hold, Option.none_or] at hfind
      cases hcalled : s.isCalled a.name with
      | true =>
          have herror : a.build options r = .error (.unknownAction a.line a.name) := by
            rw [build, hold]
          rw [herror]
          exact Compares.excused ⟨a.line, a.name, rfl, hcalled⟩
      | false =>
          rw [hcalled] at hfind
          rw [build_of_find? (hfind.trans hold.symm)]
          exact hself _

theorem Script.build_register (options : Options) (hr : r.IsConsistent)
    (h : r.register s = (.ok (), r')) (script : Script) :
    Compares s.Remedies Eq Eq (script.build options r) (script.build options r') := by
  have halike : BuildsAlike s.Remedies Eq Eq options r r' := {
    message := fun _ _ hab => congrArg ActionLine.message hab
    repeated := fun _ _ _ hab => hab ▸ rfl
    build := fun a _ hab => hab ▸ ActionLine.build_register hr h a }
  exact halike.script script.matches_self

end Registered

theorem ActionLine.bindParams_ne_unknownAction {options : Options} {schema : Schema σ}
    (a : ActionLine) (bs : Bindings) (params : List Param) (line : Nat) (name : String) :
    a.bindParams options schema bs params ≠ .error (.unknownAction line name) := by
  induction params generalizing bs with
  | nil => nofun
  | cons x rest ih =>
      intro h
      rcases bindParams_cons_eq_error h with hproperty | ⟨p, hbinding⟩ | ⟨bs', hrest⟩
      · unfold propertyFor at hproperty
        split at hproperty
        all_goals
          split at hproperty
          · cases hproperty
          · cases hproperty
      · unfold bindingFor at hbinding
        split at hbinding
        · split at hbinding
          · cases hbinding
          · cases hbinding
        · split at hbinding
          · cases hbinding
          · cases hbinding
        · cases hbinding
      · exact ih _ hrest

theorem ActionLine.lacks_of_build {options : Options} {r : Registry σ} {a : ActionLine}
    {e : CompileError} (h : a.build options r = .error e) : r.Lacks e := by
  rintro line name rfl
  unfold build at h
  split at h
  · next hfind =>
      cases h
      exact hfind
  · next schema hfind =>
      split at h
      · next e hbind =>
          cases h
          exact absurd hbind (bindParams_ne_unknownAction a _ _ line name)
      · split at h
        · cases h
        · cases h

theorem Script.lacks_of_build {options : Options} {r : Registry σ} {script : Script}
    {e : CompileError} (h : script.build options r = .error e) : r.Lacks e := by
  have halike : BuildsAlike (fun _ => False) (fun e _ => r.Lacks e) Eq options r r := {
    message := fun _ _ hab => congrArg ActionLine.message hab
    repeated := fun _ _ _ _ => nofun
    build := by
      rintro a _ rfl
      cases hbuild : a.build options r with
      | error e => exact Compares.error (ActionLine.lacks_of_build hbuild)
      | ok action => exact Compares.ok rfl }
  have hcompares := halike.script script.matches_self
  rw [h] at hcompares
  cases hcompares with
  | error hlacks => exact hlacks
  | excused hno => exact hno.elim

/-!
## Compilations under two registries
-/

/--
Registering a further action changes no compilation that was not in want of it, whatever calls the
registry has gone through.  A source that compiled, or was rejected for anything but a missing
action, is compiled as before.  A source that was rejected for a missing action is rejected for it
again, unless the new action goes by that name; then the action is not missing any more.  All of
this is so because a name that found an action goes on to find the same one.
-/
theorem more_actions_change_no_compilation (options : Options) (tried : List (Schema σ))
    {r' : Registry σ} {s : Schema σ}
    (h : (Registry.empty.attemptAll tried).register s = (.ok (), r')) (source : String) :
    let r := Registry.empty.attemptAll tried
    (forall name found, r.find? name = some found -> r'.find? name = some found) ∧
      ((forall line name, (compile options r source).result ≠ .error (.unknownAction line name)) ->
        compile options r' source = compile options r source) ∧
      forall line name, (compile options r source).result = .error (.unknownAction line name) ->
        (s.isCalled name = false ∧ compile options r' source = compile options r source) ∨
          (s.isCalled name = true ∧ forall line',
            (compile options r' source).result ≠ .error (.unknownAction line' name)) := by
  intro r
  have hr : r.IsConsistent := Registry.isConsistent_empty.attemptAll tried
  refine ⟨fun name found => hr.find?_of_register h, ?_⟩
  rcases compile_cases (σ := σ) options source with
    ⟨e, events, hstage, hcompile⟩ | ⟨tokens, transitions, script, events, hcompile⟩
  · rw [hcompile, hcompile]
    constructor
    · intro _
      rfl
    · intro line name herror
      cases herror
      exact absurd rfl hstage
  · rw [hcompile, hcompile]
    have hbuild := script.build_register options hr h
    have hlacks : forall e, script.build options r' = .error e -> r'.Lacks e :=
      fun _ => Script.lacks_of_build
    unfold Compilation.building
    generalize script.build options r = x at hbuild
    generalize script.build options r' = y at hbuild hlacks
    cases hbuild with
    | ok heq =>
        cases heq
        exact ⟨fun _ => rfl, nofun⟩
    | @error e _ heq =>
        cases heq
        constructor
        · intro _
          rfl
        · intro line name herror
          cases herror
          have hnone : r'.find? name = none := hlacks _ rfl line name rfl
          exact Or.inl ⟨hr.isCalled_of_register h hnone, rfl⟩
    | excused hremedies =>
        rcases hremedies with ⟨line, name, rfl, hcalled⟩
        constructor
        · intro hother
          exact absurd rfl (hother line name)
        · intro _ _ herror
          cases herror
          refine Or.inr ⟨hcalled, ?_⟩
          intro line' herror'
          cases y with
          | ok machine => cases herror'
          | error e =>
              cases herror'
              have hnone : r'.find? name = none := hlacks _ rfl line' name rfl
              rw [hr.isCalled_of_register h hnone] at hcalled
              cases hcalled

theorem more_actions_change_no_compilation_wait :
    let wait : Schema Unit := (Schema.ofAction "wait" (Activity.done .yield)).withAlias "w"
    let wanting := "@machine m->a\n@state a\n@run\nw"
    let compiling := "@machine m->a\n@state a\n@run\nlog x"
    let r := Registry.empty.attemptAll (Builtin.schemas Unit {})
    exists (r' : Registry Unit) (b : Build Unit),
      Registry.builtins Unit {} = .ok r ∧ r.register wait = (.ok (), r') ∧
        (compile {} r wanting).result = .error (.unknownAction 4 "w") ∧
        (forall line, (compile {} r' wanting).result ≠ .error (.unknownAction line "w")) ∧
        (compile {} r compiling).result = .ok b ∧
        compile {} r' compiling = compile {} r compiling := by
  intro wait wanting compiling r
  have heval : ((Registry.builtins Unit {}).isOk, (r.register wait).1.isOk,
      (compile {} r wanting).result.map fun _ => (),
      (compile {} r compiling).result.toOption.map fun b => b.tokens) =
        (true, true, .error (.unknownAction 4 "w"), some 12) := by
    decide +kernel
  simp only [Prod.mk.injEq] at heval
  rcases heval with ⟨hbuiltins, hok, hwanting, hcompiling⟩
  have hr : Registry.builtins Unit {} = .ok r := by
    cases hbuilt : Registry.builtins Unit {} with
    | error e =>
        rw [hbuilt] at hbuiltins
        cases hbuiltins
    | ok r₀ =>
        have hall := Registry.registerAll_of_builtins hbuilt
        exact congrArg Except.ok (Registry.attemptAll_of_registerAll hall).symm
  have hr' : r.register wait = (.ok (), r.appended wait) := by
    rcases Registry.register_cases r wait with ⟨e, herror⟩ | ⟨_, hrun⟩
    · rw [herror] at hok
      cases hok
    · exact hrun
  rcases exists_of_toOption_map_eq_some hcompiling with ⟨b, hb, _⟩
  have hmissing := except_map_eq_error hwanting
  have hwait := (more_actions_change_no_compilation {} _ hr' wanting).2.2 4 "w" hmissing
  have hkept := (more_actions_change_no_compilation {} _ hr' compiling).2.1
  refine ⟨r.appended wait, b, hr, hr', hmissing, ?_, hb, ?_⟩
  · have hcalled : wait.isCalled "w" = true := by decide +kernel
    rcases hwait with ⟨hno, _⟩ | ⟨_, hfound⟩
    · rw [hcalled] at hno
      cases hno
    · exact hfound
  · apply hkept
    intro line name herror
    rw [hb] at herror
    cases herror

end BehaviorScript
