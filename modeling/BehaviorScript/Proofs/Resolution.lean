import BehaviorScript.Proofs.Meaning

/-!
# Resolving is exact

A script can be resolved just when its states have different names and every arrow names one of
them.  Resolving then changes nothing but the numbers of the arrows.  Otherwise it stops at the
first state whose name was there before, or at the first arrow that leads nowhere.

The second half of resolving is a walk over a tree of sections, lines and parameters.  All
parts of the walk have the same outcome, that of going through a list of parameters, so the
tree is walked once here and the rest is about the list.
-/

namespace BehaviorScript

/-!
## What resolving should do
-/

def Param.withNumber (number : String -> Nat) (x : Param) : Param :=
  match x.op with
  | .assign => x
  | .transition => { x with resolved := some (number x.value) }

def ActionLine.mapParams (f : Param -> Param) (a : ActionLine) : ActionLine :=
  { a with params := a.params.map f }

def Block.mapParams (f : Param -> Param) (b : Block) : Block :=
  { b with actions := b.actions.map (ActionLine.mapParams f) }

def StateBlock.mapParams (f : Param -> Param) (s : StateBlock) : StateBlock :=
  { s with
    enter := s.enter.map (Block.mapParams f)
    exit := s.exit.map (Block.mapParams f)
    run := s.run.map (Block.mapParams f)
    on := s.on.map (Block.mapParams f) }

namespace Script

def mapParams (f : Param -> Param) (s : Script) : Script :=
  { s with
    action := s.action.mapParams f
    states := s.states.map (StateBlock.mapParams f) }

/--
The parameters given by an arrow: first those of the machine's action, then those of the states in
their order, with the sections of a state in the order enter, exit, run, on.
-/
def arrows (s : Script) : List Param :=
  s.params.filter fun x => x.op == .transition

def IsNumberOf (s : Script) (name : String) (i : Nat) : Prop :=
  exists block, s.states[i]? = some block ∧ Text.sameName block.name name = true

structure IsResolvable (s : Script) : Prop where
  distinct : StateBlock.AreDistinct s.states
  named : forall x, x ∈ s.arrows -> exists i, s.IsNumberOf x.value i

/--
The second script is the first with the numbers of the arrows put in, each of them the only number
of the state that the arrow names.  As many arrows are told of as there are.
-/
structure ResolvesTo (s resolved : Script) (told : Nat) : Prop where
  tree : resolved = s.mapParams (Param.withNumber s.number)
  only : forall x, x ∈ s.arrows -> forall i, s.IsNumberOf x.value i <-> i = s.number x.value
  count : told = s.arrows.length

/--
What a script that can not be resolved is rejected for: the first state with the name of an earlier
one, or else the first arrow that names no state.
-/
inductive Rejects (s : Script) : CompileError -> Prop where
  | repeated {before after : List StateBlock} {block : StateBlock} :
      s.states = before ++ block :: after -> StateBlock.AreDistinct before ->
      (exists earlier, earlier ∈ before ∧ Text.sameName earlier.name block.name = true) ->
      Rejects s (.duplicateState block.line block.name)
  | astray {before after : List Param} {x : Param} :
      StateBlock.AreDistinct s.states -> s.arrows = before ++ x :: after ->
      (forall y, y ∈ before -> exists i, s.IsNumberOf y.value i) ->
      (¬ exists i, s.IsNumberOf x.value i) ->
      Rejects s (.unknownState x.line x.value)

end Script

/-!
## Walking the tree
-/

namespace Param

variable {α β : Type} {t : NameTable} {number : String -> Nat}

def isAstray (t : NameTable) (x : Param) : Bool :=
  x.op == .transition && (t.find? x.value).isNone

/--
What going through a list of parameters comes to: the given value and the number of arrows, added
to those that were counted before, or the error of the first parameter that is astray.
-/
def outcome (t : NameTable) (before : Nat) (params : List Param) (value : α) :
    Except CompileError (α × Nat) :=
  match params.find? (isAstray t) with
  | none => .ok (value, before + countArrows params)
  | some x => .error (.unknownState x.line x.value)

theorem outcome_bind {before : Nat} {params rest : List Param} {a : α} {b : β}
    {f : α × Nat -> Except CompileError (β × Nat)}
    (hf : f (a, countArrows params) = outcome t (before + countArrows params) rest b) :
    (outcome t 0 params a >>= f) = outcome t before (params ++ rest) b := by
  unfold outcome at hf ⊢
  rw [List.find?_append, Nat.zero_add, countArrows_append, ← Nat.add_assoc]
  cases params.find? (isAstray t) with
  | none => exact hf
  | some x => rfl

theorem outcome_bind_pure (before : Nat) (params : List Param) (a : α) (f : α -> β) :
    (outcome t 0 params a >>= fun x => pure (f x.1, before + x.2)) =
      outcome t before params (f a) := by
  unfold outcome
  rw [Nat.zero_add]
  cases params.find? (isAstray t) with
  | none => rfl
  | some x => rfl

theorem outcome_bind_map (params : List Param) (a : α) (f : α -> β) :
    (outcome t 0 params a >>= fun x => pure (f x.1, x.2)) = outcome t 0 params (f a) := by
  unfold outcome
  cases params.find? (isAstray t) with
  | none => rfl
  | some x => rfl

theorem resolveAll_eq_outcome {g : α -> Except CompileError (α × Nat)} {f : α -> α}
    {leaves : α -> List Param} (hg : forall x, g x = outcome t 0 (leaves x) (f x))
    (xs : List α) : resolveAll g xs = outcome t 0 (xs.flatMap leaves) (xs.map f) := by
  induction xs with
  | nil => rfl
  | cons x rest ih =>
      rw [resolveAll, hg, ih, List.flatMap_cons, List.map_cons]
      apply outcome_bind
      rw [Nat.zero_add]
      exact outcome_bind_pure _ _ _ _

theorem resolve_eq_outcome (hnumber : forall name i, t.find? name = some i -> number name = i)
    (x : Param) : x.resolve t = outcome t 0 [x] (x.withNumber number) := by
  unfold resolve outcome withNumber countArrows
  cases hop : x.op with
  | assign => simp [isAstray, hop]
  | transition =>
      cases hfind : t.find? x.value with
      | none => simp [isAstray, hop, hfind]
      | some i => simp [isAstray, hop, hfind, hnumber _ _ hfind]

end Param

section Walk

variable {t : NameTable} {number : String -> Nat}
variable (hnumber : forall name i, t.find? name = some i -> number name = i)

include hnumber

theorem ActionLine.resolve_eq_outcome (a : ActionLine) :
    a.resolve t = Param.outcome t 0 a.params (a.mapParams (Param.withNumber number)) := by
  have hparams : resolveAll (Param.resolve t) a.params =
      Param.outcome t 0 a.params (a.params.map (Param.withNumber number)) := by
    rw [Param.resolveAll_eq_outcome (Param.resolve_eq_outcome hnumber), List.flatMap_singleton']
  rw [resolve, hparams]
  exact Param.outcome_bind_map _ _ _

theorem Block.resolve?_eq_outcome (block : Option Block) :
    Block.resolve? t block =
      Param.outcome t 0 ((Block.actionsOf block).flatMap ActionLine.params)
        (block.map (Block.mapParams (Param.withNumber number))) := by
  cases block with
  | none => rfl
  | some b =>
      have hactions := Param.resolveAll_eq_outcome (ActionLine.resolve_eq_outcome hnumber) b.actions
      have hblock : b.resolve t = Param.outcome t 0 (b.actions.flatMap ActionLine.params)
          (b.mapParams (Param.withNumber number)) := by
        rw [resolve, hactions]
        exact Param.outcome_bind_map _ _ _
      rw [resolve?, hblock]
      exact Param.outcome_bind_map _ _ some

theorem StateBlock.resolve_eq_outcome (s : StateBlock) :
    s.resolve t = Param.outcome t 0 (s.actions.flatMap ActionLine.params)
      (s.mapParams (Param.withNumber number)) := by
  rw [actions_eq, List.flatMap_append, List.flatMap_append, List.flatMap_append]
  unfold resolve
  simp only [Block.resolve?_eq_outcome hnumber]
  apply Param.outcome_bind
  rw [Nat.zero_add]
  apply Param.outcome_bind
  apply Param.outcome_bind
  exact Param.outcome_bind_pure _ _ _ _

theorem Script.resolveWith_eq_outcome (s : Script) :
    s.resolveWith t = Param.outcome t 0 s.params (s.mapParams (Param.withNumber number)) := by
  have hstates := Param.resolveAll_eq_outcome (StateBlock.resolve_eq_outcome hnumber) s.states
  rw [resolveWith, ActionLine.resolve_eq_outcome hnumber, hstates, params_eq]
  apply Param.outcome_bind
  rw [Nat.zero_add]
  exact Param.outcome_bind_pure _ _ _ _

end Walk

/-!
## Numbers and arrows
-/

theorem StateBlock.actions_mapParams (f : Param -> Param) (s : StateBlock) :
    (s.mapParams f).actions = s.actions.map (ActionLine.mapParams f) := by
  have hblock (block : Option Block) : Block.actionsOf (block.map (Block.mapParams f)) =
      (Block.actionsOf block).map (ActionLine.mapParams f) := by
    cases block with
    | none => rfl
    | some b => rfl
  simp only [actions_eq, mapParams, hblock, List.map_append]

namespace Script

variable {s : Script}

theorem exists_isNumberOf_iff {name : String} :
    (exists i, s.IsNumberOf name i) <->
      ((NameTable.ofStates s.states).find? name).isSome = true := by
  rw [NameTable.isSome_find?_ofStates]
  constructor
  · intro h
    rcases h with ⟨i, block, hblock, hsame⟩
    exact ⟨block, List.mem_of_getElem? hblock, hsame⟩
  · intro h
    rcases h with ⟨block, hblock, hsame⟩
    rcases List.mem_iff_getElem?.mp hblock with ⟨i, hi⟩
    exact ⟨i, block, hi, hsame⟩

theorem isNumberOf_iff_eq_number (hdistinct : StateBlock.AreDistinct s.states) {name : String}
    (hname : exists i, s.IsNumberOf name i) (i : Nat) :
    s.IsNumberOf name i <-> i = s.number name := by
  rcases Option.isSome_iff_exists.mp (exists_isNumberOf_iff.mp hname) with ⟨k, hk⟩
  rw [(number_of_find? hk).1, IsNumberOf, ← NameTable.find?_ofStates_eq_some_iff hdistinct, hk,
    Option.some.injEq, eq_comm]

theorem find?_isAstray (t : NameTable) :
    s.params.find? (Param.isAstray t) = s.arrows.find? fun x => (t.find? x.value).isNone := by
  rw [arrows, List.find?_filter]
  congr 1
  funext x
  rw [Bool.eq_iff_iff]
  simp [Param.isAstray]

theorem find?_isNone_eq_none_iff :
    (s.arrows.find? fun x => ((NameTable.ofStates s.states).find? x.value).isNone) = none <->
      forall x, x ∈ s.arrows -> exists i, s.IsNumberOf x.value i := by
  simp only [exists_isNumberOf_iff, List.find?_eq_none, Bool.not_eq_true,
    Option.isNone_eq_false_iff]

theorem countArrows_params : Param.countArrows s.params = s.arrows.length := by
  rw [Param.countArrows, arrows, List.countP_eq_length_filter]

/-!
## Outcomes of resolving
-/

theorem resolve_of_distinct (previous : NameTable) (hdistinct : StateBlock.AreDistinct s.states) :
    (s.resolve previous).1 =
      Param.outcome (NameTable.ofStates s.states) 0 s.params
        (s.mapParams (Param.withNumber s.number)) := by
  have hfill : previous.clear.fill 0 s.states = (NameTable.ofStates s.states, none) :=
    NameTable.fill_of_distinct hdistinct
  rw [resolve, hfill]
  exact resolveWith_eq_outcome (fun _ _ h => (number_of_find? h).1) s

theorem resolve_of_repeated (previous : NameTable) {before after : List StateBlock}
    {block : StateBlock} (hstates : s.states = before ++ block :: after)
    (hbefore : StateBlock.AreDistinct before)
    (hearlier : exists earlier, earlier ∈ before ∧ Text.sameName earlier.name block.name = true) :
    (s.resolve previous).1 = .error (.duplicateState block.line block.name) := by
  have hfill : (previous.clear.fill 0 s.states).2 =
      some (.duplicateState block.line block.name) := by
    rw [hstates]
    exact NameTable.fill_of_repeated hbefore hearlier after
  unfold resolve
  generalize previous.clear.fill 0 s.states = filled at hfill
  rcases filled with ⟨t, found⟩
  cases hfill
  rfl

theorem resolve_of_isResolvable (previous : NameTable) (h : s.IsResolvable) :
    (s.resolve previous).1 =
      .ok (s.mapParams (Param.withNumber s.number), s.arrows.length) := by
  rw [resolve_of_distinct previous h.distinct, Param.outcome, find?_isAstray,
    find?_isNone_eq_none_iff.mpr h.named, Nat.zero_add, countArrows_params]

theorem resolve_of_rejects (previous : NameTable) {e : CompileError} (h : s.Rejects e) :
    (s.resolve previous).1 = .error e := by
  cases h with
  | repeated hstates hbefore hearlier => exact resolve_of_repeated previous hstates hbefore hearlier
  | @astray before after x hdistinct harrows hbefore hx =>
      have hfind : (s.arrows.find? fun y =>
          ((NameTable.ofStates s.states).find? y.value).isNone) = some x := by
        apply List.find?_eq_some_iff_append.mpr
        refine ⟨?_, before, after, harrows, ?_⟩
        · simpa [exists_isNumberOf_iff] using hx
        · intro y hy
          simpa [exists_isNumberOf_iff, Option.ne_none_iff_isSome] using hbefore y hy
      rw [resolve_of_distinct previous hdistinct, Param.outcome, find?_isAstray, hfind]

theorem isResolvable_or_rejects (s : Script) : s.IsResolvable ∨ exists e, s.Rejects e := by
  rcases StateBlock.areDistinct_or_repeated s.states with
    hdistinct | ⟨before, block, after, hstates, hbefore, hearlier⟩
  -- with different names the table is full, and the first arrow that it lacks decides
  · cases hfind : s.arrows.find? fun x =>
        ((NameTable.ofStates s.states).find? x.value).isNone with
    | none => exact Or.inl ⟨hdistinct, find?_isNone_eq_none_iff.mp hfind⟩
    | some x =>
        rcases List.find?_eq_some_iff_append.mp hfind with ⟨hx, before, after, harrows, hbefore⟩
        refine Or.inr ⟨_, .astray hdistinct harrows ?_ ?_⟩
        · intro y hy
          simpa [exists_isNumberOf_iff, Option.ne_none_iff_isSome] using hbefore y hy
        · simpa [exists_isNumberOf_iff] using hx
  · exact Or.inr ⟨_, .repeated hstates hbefore hearlier⟩

theorem resolvesTo_mapParams (h : s.IsResolvable) :
    s.ResolvesTo (s.mapParams (Param.withNumber s.number)) s.arrows.length where
  tree := rfl
  only x hx i := isNumberOf_iff_eq_number h.distinct (h.named x hx) i
  count := rfl

end Script

/--
Resolving is exact, whatever is left in the table from before.  It succeeds just when the states
have different names and every arrow names one of them, and then puts in the numbers, changes
nothing else and tells how many arrows there are.  Otherwise its error is that of the first
repeated name, or of the first arrow that leads nowhere.
-/
theorem resolution_is_exact (previous : NameTable) (s : Script) :
    ((exists resolved told, (s.resolve previous).1 = .ok (resolved, told)) <-> s.IsResolvable) ∧
      (forall resolved told, (s.resolve previous).1 = .ok (resolved, told) <->
        s.IsResolvable ∧ s.ResolvesTo resolved told) ∧
      forall e, (s.resolve previous).1 = .error e <-> s.Rejects e := by
  rcases s.isResolvable_or_rejects with hresolvable | ⟨e, hrejects⟩
  · have hok := Script.resolve_of_isResolvable previous hresolvable
    refine ⟨⟨fun _ => hresolvable, fun _ => ⟨_, _, hok⟩⟩, ?_, ?_⟩
    · intro resolved told
      rw [hok]
      constructor
      · intro h
        cases h
        exact ⟨hresolvable, Script.resolvesTo_mapParams hresolvable⟩
      · intro h
        rw [h.2.tree, h.2.count]
    · intro e
      constructor
      · intro h
        rw [hok] at h
        cases h
      · exact Script.resolve_of_rejects previous
  · have herror := Script.resolve_of_rejects previous hrejects
    have hno : ¬ s.IsResolvable := by
      intro h
      rw [Script.resolve_of_isResolvable previous h] at herror
      cases herror
    refine ⟨⟨?_, fun h => absurd h hno⟩, ?_, ?_⟩
    · intro h
      rcases h with ⟨resolved, told, h⟩
      rw [herror] at h
      cases h
    · intro resolved told
      rw [herror]
      constructor
      · intro h
        cases h
      · intro h
        exact absurd h.1 hno
    · intro e'
      constructor
      · intro h
        rw [herror] at h
        cases h
        exact hrejects
      · exact Script.resolve_of_rejects previous

end BehaviorScript
