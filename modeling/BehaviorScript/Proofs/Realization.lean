import BehaviorScript.Proofs.Basic
import BehaviorScript.Proofs.Compilation
import BehaviorScript.Proofs.StateNames
import Mathlib.Data.List.Nodup

/-!
# Machines that carry out a script

A compiled machine has the shape of its script: one state for each state block, in the
same order and under the same name, and one action for each line, section by section.
Which action stands for which line is left to a relation, so the same shape serves for
every property that is checked line by line.
-/

namespace BehaviorScript

/-!
## States and machines in the shape of a script
-/

/--
The state has an action for every line of the block, and every pair is related by `R`.
-/
structure State.Realizes {σ : Type} (R : ActionLine -> Action σ -> Prop)
    (block : StateBlock) (s : State σ) : Prop where
  name : s.name = block.name
  enter : List.Forall₂ R (Block.actionsOf block.enter) s.enter
  exit : List.Forall₂ R (Block.actionsOf block.exit) s.exit
  run : List.Forall₂ R (Block.actionsOf block.run) s.run
  on : List.Forall₂ (fun a h => h.1 = a.message.getD "" ∧ R a h.2)
    (Block.actionsOf block.on) s.on
  keys : (s.on.map Prod.fst).Nodup

structure Machine.Realizes {σ : Type} (R : ActionLine -> Action σ -> Prop)
    (script : Script) (m : Machine σ) : Prop where
  name : m.name = script.name
  enter : R script.action m.enter
  states : List.Forall₂ (State.Realizes R) script.states m.states

theorem State.Realizes.imp {σ : Type} {R S : ActionLine -> Action σ -> Prop}
    (himp : forall a x, R a x -> S a x) {block : StateBlock} {s : State σ}
    (h : s.Realizes R block) : s.Realizes S block where
  name := h.name
  enter := h.enter.imp himp
  exit := h.exit.imp himp
  run := h.run.imp himp
  on := h.on.imp fun a x hx => ⟨hx.1, himp a x.2 hx.2⟩
  keys := h.keys

theorem Machine.Realizes.imp {σ : Type} {R S : ActionLine -> Action σ -> Prop}
    (himp : forall a x, R a x -> S a x) {script : Script} {m : Machine σ}
    (h : m.Realizes R script) : m.Realizes S script where
  name := h.name
  enter := himp _ _ h.enter
  states := h.states.imp fun _ _ hs => hs.imp himp

/-!
## From lines to actions
-/

/--
The line, resolved by the table, is built into the action.
-/
def ActionLine.CompilesTo {σ : Type} (options : Options) (registry : Registry σ)
    (table : NameTable) (a : ActionLine) (x : Action σ) : Prop :=
  exists resolved count, a.resolve table = .ok (resolved, count) ∧
    resolved.build options registry = .ok x

/-!
### Resolving, with the arrows counted
-/

theorem Param.resolve_cases {table : NameTable} {x y : Param} {count : Nat}
    (h : x.resolve table = .ok (y, count)) :
    (x.op = .assign ∧ y = x) ∨
      (x.op = .transition ∧
        exists i, table.find? x.value = some i ∧ y = { x with resolved := some i }) := by
  unfold resolve at h
  split at h
  · next hop =>
      cases h
      exact Or.inl ⟨hop, rfl⟩
  · next hop =>
      split at h
      · next i hfind =>
          cases h
          exact Or.inr ⟨hop, i, hfind, rfl⟩
      · cases h

theorem Param.count_of_resolve {table : NameTable} {x y : Param} {count : Nat}
    (h : x.resolve table = .ok (y, count)) : count = countArrows [x] := by
  unfold resolve at h
  split at h
  · next hop =>
      cases h
      simp [countArrows, hop]
  · next hop =>
      split at h
      · cases h
        simp [countArrows, hop]
      · cases h

theorem forall₂_of_resolveAll {α : Type} {f : α -> Except CompileError (α × Nat)}
    {leaves : α -> List Param}
    (hf : forall x y n, f x = .ok (y, n) -> n = Param.countArrows (leaves x))
    {xs ys : List α} {count : Nat} (h : resolveAll f xs = .ok (ys, count)) :
    List.Forall₂ (fun x y => f x = .ok (y, Param.countArrows (leaves x))) xs ys ∧
      count = Param.countArrows (xs.flatMap leaves) := by
  induction xs generalizing ys count with
  | nil =>
      cases h
      exact ⟨List.Forall₂.nil, rfl⟩
  | cons x xs ih =>
      rcases bind_eq_ok h with ⟨⟨y, n⟩, hy, h⟩
      rcases bind_eq_ok h with ⟨⟨zs, more⟩, hzs, h⟩
      cases h
      rcases ih hzs with ⟨hrest, rfl⟩
      have hn := hf x y n hy
      subst hn
      refine ⟨List.Forall₂.cons hy hrest, ?_⟩
      rw [List.flatMap_cons, Param.countArrows_append]

theorem exists_of_resolveAll_eq_error {α : Type} {f : α -> Except CompileError (α × Nat)}
    {xs : List α} {e : CompileError} (h : resolveAll f xs = .error e) :
    exists x, x ∈ xs ∧ f x = .error e := by
  induction xs with
  | nil => cases h
  | cons x xs ih =>
      rcases bind_eq_error h with hx | ⟨⟨y, n⟩, _, h⟩
      · exact ⟨x, List.mem_cons_self, hx⟩
      · rcases bind_eq_error h with hxs | ⟨⟨ys, more⟩, _, hno⟩
        · rcases ih hxs with ⟨z, hz, hfz⟩
          exact ⟨z, List.mem_cons_of_mem _ hz, hfz⟩
        · cases hno

theorem ActionLine.resolve_eq_ok {table : NameTable} {a b : ActionLine} {count : Nat}
    (h : a.resolve table = .ok (b, count)) :
    exists params, List.Forall₂ (fun x y => x.resolve table = .ok (y, Param.countArrows [x]))
        a.params params ∧
      b = { a with params := params } := by
  rcases bind_eq_ok h with ⟨⟨params, n⟩, hparams, hb⟩
  cases hb
  exact ⟨params, (forall₂_of_resolveAll (fun _ _ _ => Param.count_of_resolve) hparams).1, rfl⟩

theorem ActionLine.count_of_resolve {table : NameTable} {a b : ActionLine} {count : Nat}
    (h : a.resolve table = .ok (b, count)) : count = Param.countArrows a.params := by
  rcases bind_eq_ok h with ⟨⟨params, n⟩, hparams, hb⟩
  cases hb
  rw [(forall₂_of_resolveAll (fun _ _ _ => Param.count_of_resolve) hparams).2,
    List.flatMap_singleton']

theorem ActionLine.bindParams_cons {σ : Type} (a : ActionLine) (options : Options)
    (schema : Schema σ) (bs : Bindings) (x : Param) (rest : List Param) :
    a.bindParams options schema bs (x :: rest) =
      (do
        let p ← a.propertyFor options schema x
        let b ← a.bindingFor p x
        a.bindParams options schema (bs.bind p.name b) rest) := by
  rw [bindParams]
  cases a.propertyFor options schema x with
  | error e => rfl
  | ok p =>
      cases hb : a.bindingFor p x with
      | error e => simp [hb, bind, Except.bind]
      | ok b => simp [hb, bind, Except.bind]

theorem ActionLine.bindParams_cons_eq_ok {σ : Type} {options : Options} {schema : Schema σ}
    {a : ActionLine} {bs bs' : Bindings} {x : Param} {rest : List Param}
    (h : a.bindParams options schema bs (x :: rest) = .ok bs') :
    exists p b, a.propertyFor options schema x = .ok p ∧ a.bindingFor p x = .ok b ∧
      a.bindParams options schema (bs.bind p.name b) rest = .ok bs' := by
  rw [bindParams_cons] at h
  rcases bind_eq_ok h with ⟨p, hp, h⟩
  rcases bind_eq_ok h with ⟨b, hb, h⟩
  exact ⟨p, b, hp, hb, h⟩

theorem ActionLine.bindParams_cons_eq_error {σ : Type} {options : Options} {schema : Schema σ}
    {a : ActionLine} {bs : Bindings} {x : Param} {rest : List Param} {e : CompileError}
    (h : a.bindParams options schema bs (x :: rest) = .error e) :
    a.propertyFor options schema x = .error e ∨ (exists p, a.bindingFor p x = .error e) ∨
      exists bs', a.bindParams options schema bs' rest = .error e := by
  rw [bindParams_cons] at h
  rcases bind_eq_error h with hp | ⟨p, _, h⟩
  · exact Or.inl hp
  · rcases bind_eq_error h with hb | ⟨b, _, h⟩
    · exact Or.inr (Or.inl ⟨p, hb⟩)
    · exact Or.inr (Or.inr ⟨_, h⟩)

theorem ActionLine.build_eq_ok {σ : Type} {options : Options} {registry : Registry σ}
    {a : ActionLine} {x : Action σ} (h : a.build options registry = .ok x) :
    exists schema bs, registry.find? a.name = some schema ∧
      a.bindParams options schema {} a.params = .ok bs ∧ schema.build bs = .ok x := by
  unfold build at h
  split at h
  · cases h
  · next schema hfind =>
      split at h
      · cases h
      · next bs hbind =>
          split at h
          · cases h
          · next hx =>
              cases h
              exact ⟨schema, bs, hfind, hbind, hx⟩

/--
The lines of a section and of the same section after resolving.
-/
def Block.LinesResolve (table : NameTable) (block resolved : Option Block) : Prop :=
  List.Forall₂ (fun a b => a.resolve table = .ok (b, Param.countArrows a.params))
    (Block.actionsOf block) (Block.actionsOf resolved)

theorem Block.resolve?_eq_ok {table : NameTable} {block resolved : Option Block} {count : Nat}
    (h : Block.resolve? table block = .ok (resolved, count)) :
    LinesResolve table block resolved ∧
      count = Param.countArrows ((Block.actionsOf block).flatMap ActionLine.params) := by
  cases block with
  | none =>
      cases h
      exact ⟨List.Forall₂.nil, rfl⟩
  | some b =>
      rcases bind_eq_ok h with ⟨⟨b', n⟩, hb, h⟩
      rcases bind_eq_ok hb with ⟨⟨actions, k⟩, hactions, hb⟩
      cases hb
      cases h
      exact forall₂_of_resolveAll (fun _ _ _ => ActionLine.count_of_resolve) hactions

theorem StateBlock.actions_eq (s : StateBlock) :
    s.actions = Block.actionsOf s.enter ++ (Block.actionsOf s.exit ++
      (Block.actionsOf s.run ++ Block.actionsOf s.on)) := by
  rcases s with ⟨line, name, enter, exit, run, on⟩
  cases enter <;> cases exit <;> cases run <;> cases on <;>
    simp [actions, blocks, Block.actionsOf]

/--
The block after resolving, section by section, and the number of arrows that was counted.
-/
structure StateBlock.Resolves (table : NameTable) (s resolved : StateBlock) (count : Nat) :
    Prop where
  line : resolved.line = s.line
  name : resolved.name = s.name
  enter : Block.LinesResolve table s.enter resolved.enter
  exit : Block.LinesResolve table s.exit resolved.exit
  run : Block.LinesResolve table s.run resolved.run
  on : Block.LinesResolve table s.on resolved.on
  count : count = Param.countArrows (s.actions.flatMap ActionLine.params)

theorem StateBlock.resolve_eq_ok {table : NameTable} {s resolved : StateBlock} {count : Nat}
    (h : s.resolve table = .ok (resolved, count)) : s.Resolves table resolved count := by
  rcases bind_eq_ok h with ⟨⟨enter, _⟩, henter, h⟩
  rcases bind_eq_ok h with ⟨⟨exit, _⟩, hexit, h⟩
  rcases bind_eq_ok h with ⟨⟨run, _⟩, hrun, h⟩
  rcases bind_eq_ok h with ⟨⟨on, _⟩, hon, h⟩
  cases h
  rcases Block.resolve?_eq_ok henter with ⟨henterLines, henterCount⟩
  rcases Block.resolve?_eq_ok hexit with ⟨hexitLines, hexitCount⟩
  rcases Block.resolve?_eq_ok hrun with ⟨hrunLines, hrunCount⟩
  rcases Block.resolve?_eq_ok hon with ⟨honLines, honCount⟩
  refine ⟨rfl, rfl, henterLines, hexitLines, hrunLines, honLines, ?_⟩
  rw [henterCount, hexitCount, hrunCount, honCount]
  simp only [actions_eq, List.flatMap_append, Param.countArrows_append, Nat.add_assoc]

theorem StateBlock.Resolves.actions {table : NameTable} {s resolved : StateBlock} {count : Nat}
    (h : s.Resolves table resolved count) :
    List.Forall₂ (fun a b => a.resolve table = .ok (b, Param.countArrows a.params))
      s.actions resolved.actions := by
  rw [actions_eq, actions_eq]
  exact List.rel_append h.enter (List.rel_append h.exit (List.rel_append h.run h.on))

theorem Script.params_eq (s : Script) :
    s.params =
      s.action.params ++ s.states.flatMap fun b => b.actions.flatMap ActionLine.params := by
  rw [params, actions, List.flatMap_assoc]

theorem Script.resolveWith_eq_ok {table : NameTable} {s s' : Script} {count : Nat}
    (h : s.resolveWith table = .ok (s', count)) :
    s.action.resolve table = .ok (s'.action, Param.countArrows s.action.params) ∧
      List.Forall₂ (fun b b' => b.resolve table =
        .ok (b', Param.countArrows (b.actions.flatMap ActionLine.params))) s.states s'.states ∧
      count = Param.countArrows s.params := by
  rcases bind_eq_ok h with ⟨⟨action, n⟩, haction, h⟩
  rcases bind_eq_ok h with ⟨⟨states, k⟩, hstates, h⟩
  cases h
  rcases forall₂_of_resolveAll (fun _ _ _ h => (StateBlock.resolve_eq_ok h).count) hstates with
    ⟨hblocks, rfl⟩
  have hn := ActionLine.count_of_resolve haction
  subst hn
  refine ⟨haction, hblocks, ?_⟩
  rw [params_eq, Param.countArrows_append]

theorem Script.exists_of_resolveWith {table : NameTable} {s s' : Script} {count : Nat}
    (h : s.resolveWith table = .ok (s', count)) {a : ActionLine}
    (ha : a = s'.action ∨ a ∈ s'.actions) :
    exists b, (b = s.action ∨ b ∈ s.actions) ∧
      b.resolve table = .ok (a, Param.countArrows b.params) := by
  rcases resolveWith_eq_ok h with ⟨haction, hstates, _⟩
  rcases ha with rfl | hmem
  · exact ⟨s.action, Or.inl rfl, haction⟩
  · rcases List.mem_flatMap.mp hmem with ⟨block, hblock, hmem⟩
    rcases exists_of_forall₂_mem hstates hblock with ⟨old, hold, hresolve⟩
    rcases exists_of_forall₂_mem (StateBlock.resolve_eq_ok hresolve).actions hmem with ⟨b, hb, hab⟩
    exact ⟨b, Or.inr (List.mem_flatMap.mpr ⟨old, hold, hb⟩), hab⟩

/-!
### Building
-/

/--
What building handlers does to a state.  The keys that were met are all keys of the state, so a
key that was not met is new to it, and its handler goes behind the others.
-/
theorem ActionLine.buildHandlers_eq_ok {σ : Type} {options : Options} {registry : Registry σ}
    {lines : List ActionLine} {keys : List String} {before after : State σ}
    (hkeys : forall key, key ∈ before.on.map Prod.fst -> key ∈ keys)
    (h : buildHandlers options registry keys before lines = .ok after) :
    exists new, after = { before with on := before.on ++ new } ∧
      List.Forall₂ (fun a x => x.1 = a.message.getD "" ∧ a.build options registry = .ok x.2)
        lines new ∧
      ((before.on.map Prod.fst).Nodup -> (after.on.map Prod.fst).Nodup) := by
  induction lines generalizing keys before with
  | nil =>
      cases h
      exact ⟨[], by simp, List.Forall₂.nil, id⟩
  | cons a rest ih =>
      rw [buildHandlers] at h
      split at h
      · cases h
      · next hmet =>
          cases ha : a.build options registry with
          | error e => simp [ha] at h
          | ok x =>
              simp only [ha] at h
              have hnew : a.message.getD "" ∉ before.on.map Prod.fst :=
                fun hmem => hmet (hkeys _ hmem)
              rw [State.addHandler, Table.put_of_notMem hnew] at h
              have hmore : forall key,
                  key ∈ (before.on ++ [(a.message.getD "", x)]).map Prod.fst ->
                  key ∈ a.message.getD "" :: keys := by
                intro key hkey
                rw [List.map_append, List.mem_append] at hkey
                rcases hkey with hold | hlast
                · exact List.mem_cons_of_mem _ (hkeys key hold)
                · rw [List.mem_singleton.mp hlast]
                  exact List.mem_cons_self
              rcases ih hmore h with ⟨new, hafter, hlines, hdistinct⟩
              refine ⟨(a.message.getD "", x) :: new, by simp [hafter],
                List.Forall₂.cons ⟨rfl, ha⟩ hlines, ?_⟩
              intro hbefore
              apply hdistinct
              simpa using hbefore.concat hnew

theorem Block.LinesResolve.compilesTo {σ : Type} {options : Options} {registry : Registry σ}
    {table : NameTable} {block resolved : Option Block} {actions : List (Action σ)}
    (h : LinesResolve table block resolved)
    (hbuild : (actionsOf resolved).mapM (ActionLine.build options registry) = .ok actions) :
    List.Forall₂ (ActionLine.CompilesTo options registry table) (actionsOf block) actions :=
  (forall₂_comp h (forall₂_of_mapM_eq_ok hbuild)).imp
    fun _ _ ⟨b, hab, hx⟩ => ⟨b, _, hab, hx⟩

theorem StateBlock.realizes_of_build {σ : Type} {options : Options} {registry : Registry σ}
    {table : NameTable} {block resolved : StateBlock} {count : Nat} {s : State σ}
    (hresolve : block.resolve table = .ok (resolved, count))
    (hbuild : resolved.build options registry = .ok s) :
    s.Realizes (ActionLine.CompilesTo options registry table) block := by
  have hresolves := StateBlock.resolve_eq_ok hresolve
  rcases bind_eq_ok hbuild with ⟨enter, henter, hbuild⟩
  rcases bind_eq_ok hbuild with ⟨exit, hexit, hbuild⟩
  rcases bind_eq_ok hbuild with ⟨run, hrun, hhandlers⟩
  rcases ActionLine.buildHandlers_eq_ok (fun _ hno => absurd hno List.not_mem_nil) hhandlers with
    ⟨new, rfl, hlines, hkeys⟩
  exact {
    name := hresolves.name
    enter := hresolves.enter.compilesTo henter
    exit := hresolves.exit.compilesTo hexit
    run := hresolves.run.compilesTo hrun
    on := by
      apply (forall₂_comp hresolves.on hlines).imp
      intro a x ⟨b, hab, hkey, hx⟩
      rcases ActionLine.resolve_eq_ok hab with ⟨params, _, rfl⟩
      exact ⟨hkey, _, _, hab, hx⟩
    keys := hkeys List.nodup_nil }

/--
A compiled machine carries out its script: every action is the one that its line compiles to.
-/
theorem Compiled.realizes {σ : Type} {options : Options} {registry : Registry σ}
    {source : String} {script : Script} {table : NameTable} {m : Machine σ}
    (h : Compiled options registry source script table m) :
    m.Realizes (ActionLine.CompilesTo options registry table) script := by
  rcases h.built with ⟨resolved, transitions, hresolve, hbuild⟩
  rcases Script.resolveWith_eq_ok hresolve with ⟨haction, hstates, _⟩
  rcases bind_eq_ok hresolve with ⟨⟨action, _⟩, _, hresolve⟩
  rcases bind_eq_ok hresolve with ⟨⟨states, _⟩, _, hresolve⟩
  cases hresolve
  rcases bind_eq_ok hbuild with ⟨enter, henter, hbuild⟩
  rcases bind_eq_ok hbuild with ⟨built, hbuilt, hbuild⟩
  cases hbuild
  exact {
    name := rfl
    enter := ⟨action, _, haction, henter⟩
    states := (forall₂_comp hstates (forall₂_of_mapM_eq_ok hbuilt)).imp
      fun _ _ ⟨_, hr, hb⟩ => StateBlock.realizes_of_build hr hb }

namespace Compiled

variable {σ : Type} {options : Options} {registry : Registry σ} {source : String}
variable {script : Script} {table : NameTable} {m : Machine σ}

theorem distinct (h : Compiled options registry source script table m) :
    StateBlock.AreDistinct script.states :=
  (NameTable.fill_eq_none_iff.mp h.named).1

theorem table_eq (h : Compiled options registry source script table m) :
    table = NameTable.ofStates script.states :=
  (NameTable.fill_eq_none_iff.mp h.named).2

theorem length_states (h : Compiled options registry source script table m) :
    m.states.length = script.states.length :=
  h.realizes.states.length_eq.symm

end Compiled

end BehaviorScript
