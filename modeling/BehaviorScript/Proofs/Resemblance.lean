import BehaviorScript.Proofs.Resolution
import BehaviorScript.Proofs.SideBySide

/-!
# Scripts that differ in the case of names

Actions, the targets of arrows and the labels of parameters are found by their small letters, each
in a table of its own.  Two scripts that differ only in the case of those names are resolved to the
same numbers and built into the same machine, or fail for the same cause on the same line.  A label
may differ only where it is not the reserved name, which is compared letter by letter.
-/

namespace BehaviorScript

variable {σ : Type} {options : Options}

/-!
## Resembling
-/

/--
The labels differ at most in the case of letters, and if they differ at all then neither of them is
the reserved name.
-/
def Options.SameLabel (options : Options) (label label' : String) : Prop :=
  label = label' ∨ (Text.sameName label label' = true ∧ label ≠ options.defaultParam ∧
    label' ≠ options.defaultParam)

def Operator.SameLiteral (op : Operator) (literal literal' : String) : Prop :=
  literal = literal' ∨ (op = .transition ∧ Text.sameName literal literal' = true)

structure Param.Resembles (options : Options) (x y : Param) : Prop where
  line : x.line = y.line
  name : options.SameLabel x.name y.name
  op : x.op = y.op
  value : x.op.SameLiteral x.value y.value
  resolved : x.resolved = y.resolved

structure ActionLine.Resembles (options : Options) (a b : ActionLine) : Prop where
  line : a.line = b.line
  name : Text.sameName a.name b.name = true
  message : a.message = b.message
  params : List.Forall₂ (Param.Resembles options) a.params b.params

structure Block.Resembles (options : Options) (b b' : Block) : Prop where
  line : b.line = b'.line
  actions : List.Forall₂ (ActionLine.Resembles options) b.actions b'.actions

structure StateBlock.Resembles (options : Options) (s s' : StateBlock) : Prop where
  line : s.line = s'.line
  name : s.name = s'.name
  enter : Option.Rel (Block.Resembles options) s.enter s'.enter
  exit : Option.Rel (Block.Resembles options) s.exit s'.exit
  run : Option.Rel (Block.Resembles options) s.run s'.run
  on : Option.Rel (Block.Resembles options) s.on s'.on

structure Script.Resembles (options : Options) (s s' : Script) : Prop where
  line : s.line = s'.line
  name : s.name = s'.name
  action : s.action.Resembles options s'.action
  states : List.Forall₂ (StateBlock.Resembles options) s.states s'.states

theorem Block.forall₂_actionsOf {block block' : Option Block}
    (h : Option.Rel (Block.Resembles options) block block') :
    List.Forall₂ (ActionLine.Resembles options) (actionsOf block) (actionsOf block') := by
  cases h with
  | none => exact List.Forall₂.nil
  | some hblock => exact hblock.actions

theorem StateBlock.Resembles.forall₂_actions {s s' : StateBlock} (h : s.Resembles options s') :
    List.Forall₂ (ActionLine.Resembles options) s.actions s'.actions := by
  rw [actions_eq, actions_eq]
  apply List.rel_append (Block.forall₂_actionsOf h.enter)
  apply List.rel_append (Block.forall₂_actionsOf h.exit)
  apply List.rel_append (Block.forall₂_actionsOf h.run)
  exact Block.forall₂_actionsOf h.on

namespace Script.Resembles

variable {s s' : Script}

theorem forall₂_lines (h : s.Resembles options s') :
    List.Forall₂ (ActionLine.Resembles options) (s.action :: s.actions) (s'.action :: s'.actions) :=
  List.Forall₂.cons h.action (List.rel_flatMap h.states fun _ _ hs => hs.forall₂_actions)

theorem forall₂_params (h : s.Resembles options s') :
    List.Forall₂ (Param.Resembles options) s.params s'.params :=
  List.rel_flatMap h.forall₂_lines fun _ _ ha => ha.params

theorem resolved_eq (h : s.Resembles options s') :
    s.params.map Param.resolved = s'.params.map Param.resolved :=
  map_eq_map_of_forall₂ (fun _ _ hx => hx.resolved) h.forall₂_params

end Script.Resembles

/-!
## Resolving

The table of names is the same for both scripts, and both find the same numbers in it and count
the same arrows.
-/

def CompileError.IsLike (e e' : CompileError) : Prop :=
  e.code = e'.code ∧ e.line = e'.line

/--
Both results are values related by `P`, or both are errors of the same code on the same line.
-/
abbrev EndsAlike {α β : Type} (P : α -> β -> Prop) :
    Except CompileError α -> Except CompileError β -> Prop :=
  Compares (fun _ => False) CompileError.IsLike P

theorem NameTable.fill_eq_of_resembles {states states' : List StateBlock}
    (h : List.Forall₂ (StateBlock.Resembles options) states states') (t : NameTable)
    (index : Nat) : t.fill index states = t.fill index states' := by
  induction h generalizing t index with
  | nil => rfl
  | cons hs _ ih => simp only [fill, hs.name, hs.line, ih]

theorem Operator.SameLiteral.eq_of_assign {literal literal' : String}
    (h : Operator.assign.SameLiteral literal literal') : literal = literal' := by
  rcases h with heq | ⟨hno, _⟩
  · exact heq
  · cases hno

theorem Operator.SameLiteral.find?_eq {op : Operator} {literal literal' : String}
    (h : op.SameLiteral literal literal') (t : NameTable) : t.find? literal = t.find? literal' := by
  rcases h with rfl | ⟨_, hsame⟩
  · rfl
  · rw [NameTable.find?, NameTable.find?, Text.sameName_iff.mp hsame]

section Resolve

variable (t : NameTable)

theorem Param.Resembles.resolve {x y : Param} (h : x.Resembles options y) :
    EndsAlike (Counted (Param.Resembles options)) (x.resolve t) (y.resolve t) := by
  unfold Param.resolve
  rw [← h.op]
  cases hop : x.op with
  | assign => exact Compares.ok ⟨h, rfl⟩
  | transition =>
      rw [← h.value.find?_eq t]
      cases t.find? x.value with
      | none => exact Compares.error ⟨rfl, h.line⟩
      | some i => exact Compares.ok ⟨⟨h.line, h.name, rfl, hop ▸ h.value, rfl⟩, rfl⟩

theorem ActionLine.Resembles.resolve {a b : ActionLine} (h : a.Resembles options b) :
    EndsAlike (Counted (ActionLine.Resembles options)) (a.resolve t) (b.resolve t) := by
  apply (Compares.resolveAll (fun _ _ hx => hx.resolve t) h.params).bind
  intro params params' hparams
  exact Compares.ok ⟨{ h with params := hparams.1 }, hparams.2⟩

theorem Block.Resembles.resolve {b b' : Block} (h : b.Resembles options b') :
    EndsAlike (Counted (Block.Resembles options)) (b.resolve t) (b'.resolve t) := by
  apply (Compares.resolveAll (fun _ _ ha => ha.resolve t) h.actions).bind
  intro actions actions' hactions
  exact Compares.ok ⟨{ h with actions := hactions.1 }, hactions.2⟩

theorem Block.endsAlike_resolve? {block block' : Option Block}
    (h : Option.Rel (Block.Resembles options) block block') :
    EndsAlike (Counted (Option.Rel (Block.Resembles options))) (Block.resolve? t block)
      (Block.resolve? t block') := by
  cases h with
  | none => exact Compares.ok ⟨Option.Rel.none, rfl⟩
  | some hb =>
      apply (hb.resolve t).bind
      intro c c' hc
      exact Compares.ok ⟨Option.Rel.some hc.1, hc.2⟩

theorem StateBlock.Resembles.resolve {s s' : StateBlock} (h : s.Resembles options s') :
    EndsAlike (Counted (StateBlock.Resembles options)) (s.resolve t) (s'.resolve t) := by
  apply (Block.endsAlike_resolve? t h.enter).bind
  intro enter enter' henter
  apply (Block.endsAlike_resolve? t h.exit).bind
  intro exit exit' hexit
  apply (Block.endsAlike_resolve? t h.run).bind
  intro run run' hrun
  apply (Block.endsAlike_resolve? t h.on).bind
  intro on on' hon
  refine Compares.ok ⟨⟨h.line, h.name, henter.1, hexit.1, hrun.1, hon.1⟩, ?_⟩
  show enter.2 + exit.2 + run.2 + on.2 = enter'.2 + exit'.2 + run'.2 + on'.2
  rw [henter.2, hexit.2, hrun.2, hon.2]

end Resolve

theorem Script.Resembles.resolve {s s' : Script} (h : s.Resembles options s')
    (previous previous' : NameTable) :
    EndsAlike (Counted (Script.Resembles options)) (s.resolve previous).1
      (s'.resolve previous').1 := by
  have hfill : previous.clear.fill 0 s.states = previous'.clear.fill 0 s'.states :=
    NameTable.fill_eq_of_resembles h.states _ 0
  unfold Script.resolve
  rw [hfill]
  rcases previous'.clear.fill 0 s'.states with ⟨t, e | e⟩
  · apply (h.action.resolve t).bind
    intro action action' haction
    apply (Compares.resolveAll (fun _ _ hs => hs.resolve t) h.states).bind
    intro states states' hstates
    exact Compares.ok
      ⟨⟨h.line, h.name, haction.1, hstates.1⟩, congrArg₂ (· + ·) haction.2 hstates.2⟩
  · exact Compares.error ⟨rfl, rfl⟩

/-!
## Building
-/

theorem Registry.find?_eq_of_sameName (r : Registry σ) {n n' : String}
    (h : Text.sameName n n' = true) : r.find? n = r.find? n' := by
  rw [find?, find?, Text.sameName_iff.mp h]

theorem Schema.property?_eq_of_sameName (schema : Schema σ) {n n' : String}
    (h : Text.sameName n n' = true) : schema.property? n = schema.property? n' := by
  rw [property?, property?, Text.sameName_iff.mp h]

namespace ActionLine

variable (a b : ActionLine) (schema : Schema σ)

theorem endsAlike_propertyFor {x y : Param} (h : x.Resembles options y) :
    EndsAlike Eq (a.propertyFor options schema x) (b.propertyFor options schema y) := by
  unfold propertyFor
  rcases h.name with heq | ⟨hsame, hx, hy⟩
  · rw [← heq]
    split
    · cases schema.default? with
      | none => exact Compares.error ⟨rfl, h.line⟩
      | some p => exact Compares.ok rfl
    · cases schema.property? x.name with
      | none => exact Compares.error ⟨rfl, h.line⟩
      | some p => exact Compares.ok rfl
  · rw [if_neg hx, if_neg hy, ← schema.property?_eq_of_sameName hsame]
    cases schema.property? x.name with
    | none => exact Compares.error ⟨rfl, h.line⟩
    | some p => exact Compares.ok rfl

theorem endsAlike_bindingFor {x y : Param} (h : x.Resembles options y) (p : Property) :
    EndsAlike Eq (a.bindingFor p x) (b.bindingFor p y) := by
  unfold bindingFor
  rw [← h.op, ← h.resolved]
  cases hop : x.op with
  | assign =>
      have hvalue : x.value = y.value := (hop ▸ h.value).eq_of_assign
      cases p.kind.converter? with
      | none => exact Compares.error ⟨rfl, h.line⟩
      | some convert =>
          simp only [← hvalue]
          cases convert x.value with
          | none => exact Compares.error ⟨rfl, h.line⟩
          | some v => exact Compares.ok rfl
  | transition =>
      cases p.kind.converter? with
      | none =>
          cases x.resolved with
          | none => exact Compares.error ⟨rfl, h.line⟩
          | some i => exact Compares.ok rfl
      | some convert => exact Compares.error ⟨rfl, h.line⟩

theorem endsAlike_bindParams {params params' : List Param}
    (h : List.Forall₂ (Param.Resembles options) params params') (bs : Bindings) :
    EndsAlike Eq (a.bindParams options schema bs params)
      (b.bindParams options schema bs params') := by
  induction h generalizing bs with
  | nil => exact Compares.ok rfl
  | cons hx _ ih =>
      rw [bindParams_cons, bindParams_cons]
      apply (endsAlike_propertyFor a b schema hx).bind
      rintro p _ rfl
      apply (endsAlike_bindingFor a b hx p).bind
      rintro binding _ rfl
      exact ih _

def call? (options : Options) (registry : Registry σ) (a : ActionLine) :
    Option (Schema σ × Bindings) :=
  (registry.find? a.name).bind fun schema =>
    (a.bindParams options schema {} a.params).toOption.map fun bs => (schema, bs)

variable {a b}

theorem Resembles.build (h : a.Resembles options b) (registry : Registry σ) :
    EndsAlike Eq (a.build options registry) (b.build options registry) := by
  unfold ActionLine.build
  rw [← registry.find?_eq_of_sameName h.name]
  cases registry.find? a.name with
  | none => exact Compares.error ⟨rfl, h.line⟩
  | some schema =>
      have hbind := endsAlike_bindParams a b schema h.params {}
      dsimp only
      generalize a.bindParams options schema {} a.params = bound at hbind
      generalize b.bindParams options schema {} b.params = bound' at hbind
      cases hbind with
      | error he => exact Compares.error he
      | excused hno => cases hno
      | @ok bs _ heq =>
          cases heq
          dsimp only
          cases schema.build bs with
          | error cause => exact Compares.error ⟨rfl, h.line⟩
          | ok action => exact Compares.ok rfl

theorem Resembles.call?_eq (h : a.Resembles options b) (registry : Registry σ) :
    a.call? options registry = b.call? options registry := by
  have hbind (schema : Schema σ) : (a.bindParams options schema {} a.params).toOption =
      (b.bindParams options schema {} b.params).toOption :=
    (endsAlike_bindParams a b schema h.params {}).toOption_eq
  simp only [call?, registry.find?_eq_of_sameName h.name, hbind]

end ActionLine

namespace Script.Resembles

variable {s s' : Script}

theorem matches_resembles (h : s.Resembles options s') :
    s.Matches (ActionLine.Resembles options) s' where
  name := h.name
  action := h.action
  states := h.states.imp fun _ _ hs =>
    { name := hs.name
      enter := Block.forall₂_actionsOf hs.enter
      exit := Block.forall₂_actionsOf hs.exit
      run := Block.forall₂_actionsOf hs.run
      on := Block.forall₂_actionsOf hs.on }

theorem build (h : s.Resembles options s') (registry : Registry σ) :
    EndsAlike Eq (s.build options registry) (s'.build options registry) := by
  have halike : BuildsAlike (fun _ => False) CompileError.IsLike (ActionLine.Resembles options)
      options registry registry :=
    { message := fun _ _ ha => ha.message
      repeated := fun _ _ _ ha => ⟨rfl, ha.line⟩
      build := fun _ _ ha => ha.build registry }
  exact halike.script h.matches_resembles

end Script.Resembles

end BehaviorScript
