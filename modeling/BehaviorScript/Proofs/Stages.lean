import BehaviorScript.Proofs.ParseFaults
import BehaviorScript.Proofs.Realization

/-!
# How far a compilation gets

Each stage has diagnostics of its own, so the code of a diagnostic tells which stage gave
it, and with that which stages had told of their success.  Two stages look at the states
that arrows point at: resolving puts in their numbers, and building takes them out.  Once
resolving has succeeded every arrow has its number, and building no longer misses any.

The diagnostics of both stages are on lines of the script.
-/

namespace BehaviorScript

variable {σ : Type}

theorem Script.mem_lineNumbers {s : Script} {a : ActionLine}
    (ha : a = s.action ∨ a ∈ s.actions) {n : Nat} (hn : n ∈ a.lineNumbers) :
    n ∈ s.lineNumbers := by
  rcases ha with rfl | hmem
  · exact List.mem_append_left _ hn
  · rcases List.mem_flatMap.mp hmem with ⟨block, hblock, ha⟩
    apply List.mem_append_right
    apply List.mem_flatMap.mpr
    exact ⟨block, hblock, List.mem_cons_of_mem _ (List.mem_flatMap.mpr ⟨a, ha, hn⟩)⟩

/-!
## Resolving
-/

theorem Param.resolve_eq_error {t : NameTable} {x : Param} {e : CompileError}
    (h : x.resolve t = .error e) : e = .unknownState x.line x.value := by
  unfold Param.resolve at h
  split at h
  · cases h
  · split at h
    · cases h
    · cases h
      rfl

theorem ActionLine.resolve_eq_error {t : NameTable} {a : ActionLine} {e : CompileError}
    (h : a.resolve t = .error e) :
    exists x, x ∈ a.params ∧ e = .unknownState x.line x.value := by
  rcases bind_eq_error h with hparams | ⟨params, _, hno⟩
  · rcases exists_of_resolveAll_eq_error hparams with ⟨x, hx, hresolve⟩
    exact ⟨x, hx, Param.resolve_eq_error hresolve⟩
  · cases hno

theorem Block.resolve?_eq_error {t : NameTable} {block : Option Block} {e : CompileError}
    (h : Block.resolve? t block = .error e) :
    exists a, a ∈ Block.actionsOf block ∧ a.resolve t = .error e := by
  cases block with
  | none => cases h
  | some b =>
      rcases bind_eq_error h with hb | ⟨b', _, hno⟩
      · rcases bind_eq_error hb with hactions | ⟨actions, _, hno⟩
        · exact exists_of_resolveAll_eq_error hactions
        · cases hno
      · cases hno

theorem StateBlock.mem_actions_of_section {s : StateBlock} {a : ActionLine} (kind : SectionKind)
    (h : a ∈ Block.actionsOf (s.get? kind)) : a ∈ s.actions := by
  rw [actions_eq]
  cases kind with
  | enter => exact List.mem_append_left _ h
  | exit => exact List.mem_append_right _ (List.mem_append_left _ h)
  | run => exact List.mem_append_right _ (List.mem_append_right _ (List.mem_append_left _ h))
  | on => exact List.mem_append_right _ (List.mem_append_right _ (List.mem_append_right _ h))

theorem StateBlock.resolve_eq_error {t : NameTable} {s : StateBlock} {e : CompileError}
    (h : s.resolve t = .error e) :
    exists a, a ∈ s.actions ∧ a.resolve t = .error e := by
  have hsection : forall kind, Block.resolve? t (s.get? kind) = .error e ->
      exists a, a ∈ s.actions ∧ a.resolve t = .error e := by
    intro kind hkind
    rcases Block.resolve?_eq_error hkind with ⟨a, ha, hresolve⟩
    exact ⟨a, mem_actions_of_section kind ha, hresolve⟩
  rcases bind_eq_error h with henter | ⟨enter, _, h⟩
  · exact hsection .enter henter
  rcases bind_eq_error h with hexit | ⟨exit, _, h⟩
  · exact hsection .exit hexit
  rcases bind_eq_error h with hrun | ⟨run, _, h⟩
  · exact hsection .run hrun
  rcases bind_eq_error h with hon | ⟨on, _, h⟩
  · exact hsection .on hon
  cases h

theorem Script.resolveWith_eq_error {t : NameTable} {s : Script} {e : CompileError}
    (h : s.resolveWith t = .error e) :
    exists a, (a = s.action ∨ a ∈ s.actions) ∧ a.resolve t = .error e := by
  rcases bind_eq_error h with haction | ⟨action, _, h⟩
  · exact ⟨s.action, Or.inl rfl, haction⟩
  rcases bind_eq_error h with hstates | ⟨states, _, h⟩
  · rcases exists_of_resolveAll_eq_error hstates with ⟨block, hblock, hresolve⟩
    rcases StateBlock.resolve_eq_error hresolve with ⟨a, ha, hresolve⟩
    exact ⟨a, Or.inr (List.mem_flatMap.mpr ⟨block, hblock, ha⟩), hresolve⟩
  cases h

theorem Script.resolve_eq_error {previous table : NameTable} {s : Script} {e : CompileError}
    (h : s.resolve previous = (.error e, table)) :
    e.code.stage = .resolved ∧ e.line ∈ s.lineNumbers := by
  unfold resolve at h
  split at h
  · next hfill =>
      cases h
      rcases NameTable.fill_eq_error hfill with ⟨block, hblock, rfl⟩
      constructor
      · rfl
      · apply List.mem_append_right
        exact List.mem_flatMap.mpr ⟨block, hblock, List.mem_cons_self⟩
  · rcases resolveWith_eq_error (Prod.mk.inj h).1 with ⟨a, ha, hresolve⟩
    rcases ActionLine.resolve_eq_error hresolve with ⟨x, hx, rfl⟩
    constructor
    · rfl
    · exact mem_lineNumbers ha (List.mem_cons_of_mem _ (List.mem_map_of_mem hx))

/-!
## What resolving leaves behind
-/

def Param.IsNumbered (x : Param) : Prop :=
  x.op = .transition -> exists i, x.resolved = some i

theorem Param.isNumbered_of_resolve {t : NameTable} {x y : Param} {count : Nat}
    (h : x.resolve t = .ok (y, count)) : y.line = x.line ∧ y.IsNumbered := by
  rcases resolve_cases h with ⟨hop, rfl⟩ | ⟨_, index, _, rfl⟩
  · constructor
    · rfl
    · intro htransition
      rw [hop] at htransition
      cases htransition
  · exact ⟨rfl, fun _ => ⟨index, rfl⟩⟩

theorem ActionLine.isNumbered_of_resolve {t : NameTable} {a b : ActionLine} {count : Nat}
    (h : a.resolve t = .ok (b, count)) {x : Param} (hx : x ∈ b.params) : x.IsNumbered := by
  rcases resolve_eq_ok h with ⟨params, hparams, rfl⟩
  rcases exists_of_forall₂_mem hparams hx with ⟨y, _, hy⟩
  exact (Param.isNumbered_of_resolve hy).2

theorem Script.isNumbered_of_resolve {previous table : NameTable} {script resolved : Script}
    {told : Nat} (h : script.resolve previous = (.ok (resolved, told), table)) {a : ActionLine}
    (ha : a = resolved.action ∨ a ∈ resolved.actions) {x : Param} (hx : x ∈ a.params) :
    x.IsNumbered := by
  rcases exists_of_resolveWith (resolve_eq_ok h).2 ha with ⟨b, _, hb⟩
  exact ActionLine.isNumbered_of_resolve hb hx

theorem ActionLine.lineNumbers_of_resolve {t : NameTable} {a b : ActionLine} {count : Nat}
    (h : a.resolve t = .ok (b, count)) : b.lineNumbers = a.lineNumbers := by
  rcases resolve_eq_ok h with ⟨params, hparams, rfl⟩
  have hlines : params.map Param.line = a.params.map Param.line := by
    refine map_eq_of_forall₂ ?_ hparams
    intro x y hxy
    exact (Param.isNumbered_of_resolve hxy).1
  rw [lineNumbers, hlines, lineNumbers]

theorem StateBlock.lineNumbers_of_resolve {t : NameTable} {s s' : StateBlock} {count : Nat}
    (h : s.resolve t = .ok (s', count)) : s'.lineNumbers = s.lineNumbers := by
  have hresolves := resolve_eq_ok h
  have hlines := map_eq_of_forall₂ (fun _ _ hab => ActionLine.lineNumbers_of_resolve hab)
    hresolves.actions
  rw [lineNumbers, lineNumbers, hresolves.line, List.flatMap_def, List.flatMap_def, hlines]

theorem Script.lineNumbers_of_resolve {previous table : NameTable} {script resolved : Script}
    {told : Nat} (h : script.resolve previous = (.ok (resolved, told), table)) :
    resolved.lineNumbers = script.lineNumbers := by
  rcases resolveWith_eq_ok (resolve_eq_ok h).2 with ⟨haction, hstates, _⟩
  have hlines := map_eq_of_forall₂ (fun _ _ hab => StateBlock.lineNumbers_of_resolve hab) hstates
  rw [lineNumbers, lineNumbers, ActionLine.lineNumbers_of_resolve haction, List.flatMap_def,
    List.flatMap_def, hlines]

/-!
## Building
-/

namespace ActionLine

structure Blames (a : ActionLine) (e : CompileError) : Prop where
  stage : e.code.stage = .generated
  line : e.line ∈ a.lineNumbers

theorem propertyFor_eq_error {a : ActionLine} {options : Options} {schema : Schema σ} {x : Param}
    {e : CompileError} (h : a.propertyFor options schema x = .error e) :
    e.code.stage = .generated ∧ e.line = x.line := by
  unfold propertyFor at h
  split at h
  · split at h
    · cases h
    · cases h
      exact ⟨rfl, rfl⟩
  · split at h
    · cases h
    · cases h
      exact ⟨rfl, rfl⟩

theorem bindingFor_eq_error {a : ActionLine} {p : Property} {x : Param} {e : CompileError}
    (h : a.bindingFor p x = .error e) (hx : x.IsNumbered) :
    e.code.stage = .generated ∧ e.line = x.line := by
  unfold bindingFor at h
  split at h
  -- an arrow that has its number is bound, so nothing is reported about it here
  · next hop _ =>
      rcases hx hop with ⟨i, hi⟩
      simp [hi] at h
  · split at h
    · cases h
    · cases h
      exact ⟨rfl, rfl⟩
  · cases h
    exact ⟨rfl, rfl⟩

theorem bindParams_eq_error {a : ActionLine} {options : Options} {schema : Schema σ}
    {bs : Bindings} {params : List Param} {e : CompileError}
    (h : a.bindParams options schema bs params = .error e)
    (hparams : forall x, x ∈ params -> x.IsNumbered) :
    e.code.stage = .generated ∧ e.line ∈ params.map Param.line := by
  induction params generalizing bs with
  | nil => cases h
  | cons x rest ih =>
      rcases bindParams_cons_eq_error h with hproperty | ⟨p, hbinding⟩ | ⟨bs', hrest⟩
      · rcases propertyFor_eq_error hproperty with ⟨hstage, hline⟩
        rw [List.map_cons, hline]
        exact ⟨hstage, List.mem_cons_self⟩
      · rcases bindingFor_eq_error hbinding (hparams x List.mem_cons_self) with ⟨hstage, hline⟩
        rw [List.map_cons, hline]
        exact ⟨hstage, List.mem_cons_self⟩
      · rcases ih hrest fun y hy => hparams y (List.mem_cons_of_mem _ hy) with ⟨hstage, hline⟩
        exact ⟨hstage, List.mem_cons_of_mem _ hline⟩

theorem blames_of_build {a : ActionLine} {options : Options} {registry : Registry σ}
    {e : CompileError} (h : a.build options registry = .error e)
    (hparams : forall x, x ∈ a.params -> x.IsNumbered) : a.Blames e := by
  unfold build at h
  split at h
  · cases h
    exact ⟨rfl, List.mem_cons_self⟩
  · split at h
    · next e' hbind =>
        cases h
        rcases bindParams_eq_error hbind hparams with ⟨hstage, hline⟩
        exact ⟨hstage, List.mem_cons_of_mem _ hline⟩
    · split at h
      · cases h
        exact ⟨rfl, List.mem_cons_self⟩
      · cases h

theorem blames_of_buildHandlers {options : Options} {registry : Registry σ}
    {keys : List String} {s : State σ} {lines : List ActionLine} {e : CompileError}
    (h : buildHandlers options registry keys s lines = .error e)
    (hlines : forall a x, a ∈ lines -> x ∈ a.params -> x.IsNumbered) :
    exists a, a ∈ lines ∧ a.Blames e := by
  induction lines generalizing keys s with
  | nil => cases h
  | cons a rest ih =>
      rw [buildHandlers] at h
      split at h
      · cases h
        exact ⟨a, List.mem_cons_self, rfl, List.mem_cons_self⟩
      · split at h
        · next e' hbuild =>
            cases h
            exact ⟨a, List.mem_cons_self,
              blames_of_build hbuild fun x hx => hlines a x List.mem_cons_self hx⟩
        · rcases ih h fun b x hb => hlines b x (List.mem_cons_of_mem _ hb) with ⟨b, hb, hblames⟩
          exact ⟨b, List.mem_cons_of_mem _ hb, hblames⟩

end ActionLine

theorem StateBlock.blames_of_build {options : Options} {registry : Registry σ} {s : StateBlock}
    {e : CompileError} (h : s.build options registry = .error e)
    (hlines : forall a x, a ∈ s.actions -> x ∈ a.params -> x.IsNumbered) :
    exists a, a ∈ s.actions ∧ a.Blames e := by
  have hsection : forall kind,
      (Block.actionsOf (s.get? kind)).mapM (ActionLine.build options registry) = .error e ->
      exists a, a ∈ s.actions ∧ a.Blames e := by
    intro kind hkind
    rcases exists_of_mapM_eq_error hkind with ⟨a, ha, hbuild⟩
    have hmem := mem_actions_of_section kind ha
    exact ⟨a, hmem, ActionLine.blames_of_build hbuild fun x hx => hlines a x hmem hx⟩
  rcases bind_eq_error h with henter | ⟨enter, _, h⟩
  · exact hsection .enter henter
  rcases bind_eq_error h with hexit | ⟨exit, _, h⟩
  · exact hsection .exit hexit
  rcases bind_eq_error h with hrun | ⟨run, _, h⟩
  · exact hsection .run hrun
  have hmem : forall a, a ∈ Block.actionsOf s.on -> a ∈ s.actions :=
    fun a ha => mem_actions_of_section .on ha
  rcases ActionLine.blames_of_buildHandlers h fun a x ha => hlines a x (hmem a ha) with
    ⟨a, ha, hblames⟩
  exact ⟨a, hmem a ha, hblames⟩

theorem Script.build_eq_error {options : Options} {registry : Registry σ} {s : Script}
    {e : CompileError} (h : s.build options registry = .error e)
    (hlines : forall a x, a = s.action ∨ a ∈ s.actions -> x ∈ a.params -> x.IsNumbered) :
    e.code.stage = .generated ∧ e.line ∈ s.lineNumbers := by
  have hblames : exists a, (a = s.action ∨ a ∈ s.actions) ∧ a.Blames e := by
    rcases bind_eq_error h with henter | ⟨enter, _, h⟩
    · exact ⟨s.action, Or.inl rfl,
        ActionLine.blames_of_build henter fun x hx => hlines _ x (Or.inl rfl) hx⟩
    rcases bind_eq_error h with hstates | ⟨states, _, h⟩
    · rcases exists_of_mapM_eq_error hstates with ⟨block, hblock, hbuild⟩
      have hmem : forall a, a ∈ block.actions -> a ∈ s.actions :=
        fun a ha => List.mem_flatMap.mpr ⟨block, hblock, ha⟩
      rcases StateBlock.blames_of_build hbuild fun a x ha => hlines a x (Or.inr (hmem a ha)) with
        ⟨a, ha, hblames⟩
      exact ⟨a, Or.inr (hmem a ha), hblames⟩
    cases h
  rcases hblames with ⟨a, ha, hstage, hline⟩
  exact ⟨hstage, mem_lineNumbers ha hline⟩

/-!
## Whole compilations
-/

def Event.stage? : Event -> Option Stage
  | .lexed .. => some .lexed
  | .parsed .. => some .parsed
  | .resolved .. => some .resolved
  | .generated .. => some .generated
  | _ => none

namespace Compilation

def stages (c : Compilation σ) : List Stage :=
  c.events.filterMap Event.stage?

def code? (c : Compilation σ) : Option ErrorCode :=
  match c.result with
  | .error e => some e.code
  | .ok _ => none

def stagesBefore (code : Option ErrorCode) : List Stage :=
  match code.map ErrorCode.stage with
  | some .lexed => []
  | some .parsed => [.lexed]
  | some .resolved => [.lexed, .parsed]
  | some .generated => [.lexed, .parsed, .resolved]
  | none => [.lexed, .parsed, .resolved, .generated]

variable {options : Options} {registry : Registry σ} {source : String} {c : Compilation σ}

theorem Ends.stages_eq (h : Ends options registry source c) :
    c.stages = stagesBefore c.code? := by
  cases h with
  | stuck => rfl
  | @unparsed line e _ hparse =>
      show [Stage.lexed] = stagesBefore (some e.code)
      rw [stagesBefore, Option.map_some, (Script.ofTokens_eq_error hparse).1]
  | @unresolved line script table e _ _ hresolve =>
      show [Stage.lexed, .parsed] = stagesBefore (some e.code)
      rw [stagesBefore, Option.map_some, (Script.resolve_eq_error hresolve).1]
  | @unbuilt line transitions script resolved table e _ _ hresolve hbuild =>
      have hnumbered : forall a x, a = resolved.action ∨ a ∈ resolved.actions ->
          x ∈ a.params -> x.IsNumbered :=
        fun a x ha hx => Script.isNumbered_of_resolve hresolve ha hx
      show [Stage.lexed, .parsed, .resolved] = stagesBefore (some e.code)
      rw [stagesBefore, Option.map_some, (Script.build_eq_error hbuild hnumbered).1]
  | built => rfl

theorem Ends.stages_eq_nil_iff (h : Ends options registry source c) :
    c.stages = [] <-> exists place, (scan source).stuck? = some place := by
  cases h with
  | stuck hfinish => simp [stages, Event.stage?, Scan.stuck?, hfinish]
  | unparsed hfinish | unresolved hfinish | unbuilt hfinish | built hfinish =>
      simp [stages, Event.stage?, List.filterMap_cons, Scan.stuck?, hfinish]

theorem code?_eq_none_iff : c.code? = none <-> exists b, c.result = .ok b := by
  unfold code?
  cases c.result with
  | error e => simp
  | ok b => simp

/--
The stages that told of their success are the first ones, and how many they are is what the
result of the compilation says.
-/
structure IsConsistent (source : String) (c : Compilation σ) : Prop where
  inOrder : c.stages <+: [.lexed, .parsed, .resolved, .generated]
  unscanned : c.stages = [] <-> c.code? = some .lexerStuck
  stuck : c.code? = some .lexerStuck <-> exists place, (scan source).stuck? = some place
  unparsed : c.stages = [.lexed] <-> c.code? = some .malformed ∨ c.code? = some .duplicateSection
  unresolved : c.stages = [.lexed, .parsed] <->
    c.code? = some .duplicateState ∨ c.code? = some .stateNotFoundForTransition
  unbuilt : c.stages = [.lexed, .parsed, .resolved] <->
    c.code? = some .duplicateMessage ∨ c.code? = some .actionNotFound ∨
      c.code? = some .propertyNotFound ∨ c.code? = some .noDefaultProperty ∨
      c.code? = some .invalidValue ∨ c.code? = some .propertyKindMismatch ∨
      c.code? = some .actionBindFailed
  built : c.stages = [.lexed, .parsed, .resolved, .generated] <-> exists b, c.result = .ok b

theorem stagesBefore_spec (code : Option ErrorCode) :
    stagesBefore code <+: [.lexed, .parsed, .resolved, .generated] ∧
      (stagesBefore code = [] <-> code = some .lexerStuck) ∧
      (stagesBefore code = [.lexed] <->
        code = some .malformed ∨ code = some .duplicateSection) ∧
      (stagesBefore code = [.lexed, .parsed] <->
        code = some .duplicateState ∨ code = some .stateNotFoundForTransition) ∧
      (stagesBefore code = [.lexed, .parsed, .resolved] <->
        code = some .duplicateMessage ∨ code = some .actionNotFound ∨
          code = some .propertyNotFound ∨ code = some .noDefaultProperty ∨
          code = some .invalidValue ∨ code = some .propertyKindMismatch ∨
          code = some .actionBindFailed) ∧
      (stagesBefore code = [.lexed, .parsed, .resolved, .generated] <-> code = none) := by
  cases code with
  | none => decide
  | some code => cases code <;> decide

theorem Ends.isConsistent (h : Ends options registry source c) : c.IsConsistent source := by
  rcases stagesBefore_spec c.code? with
    ⟨horder, hnil, hunparsed, hunresolved, hunbuilt, hall⟩
  rw [← h.stages_eq] at horder hnil hunparsed hunresolved hunbuilt hall
  exact {
    inOrder := horder
    unscanned := hnil
    stuck := hnil.symm.trans h.stages_eq_nil_iff
    unparsed := hunparsed
    unresolved := hunresolved
    unbuilt := hunbuilt
    built := hall.trans code?_eq_none_iff }

end Compilation

/--
The code of a diagnostic tells exactly how far the compilation got, whatever the workspace held
before.  In a resolved script no parameter of any line is still without the state that it points
at when a property is bound.
-/
theorem compilation_tells_how_far (options : Options) (registry : Registry σ)
    (workspace : Workspace) (source : String) :
    (Compilation.run options registry workspace source).1.IsConsistent source ∧
      forall (script resolved : Script) (told : Nat) (previous table : NameTable),
        script.resolve previous = (.ok (resolved, told), table) ->
        forall a, a = resolved.action ∨ a ∈ resolved.actions ->
        forall x, x ∈ a.params -> forall p line target,
          a.bindingFor p x ≠ .error (.unknownState line target) := by
  constructor
  · exact (Compilation.run_ends options registry workspace source).isConsistent
  · intro script resolved told previous table hresolve a ha x hx p line target herror
    have hnumbered := Script.isNumbered_of_resolve hresolve ha hx
    have hstage := (ActionLine.bindingFor_eq_error herror hnumbered).1
    cases hstage

def Script.loop (target : Option Nat) : Script where
  line := 1
  name := "m"
  action := {
    line := 1
    name := "$trans"
    message := none
    params := [⟨1, "$default", .transition, "a", target⟩] }
  states := [{ line := 2, name := "a" }]

theorem compilation_tells_how_far_loop :
    (Script.loop none).resolve ⟨[("b", 0)]⟩ = (.ok (Script.loop (some 0), 1), ⟨[("a", 0)]⟩) ∧
      (compile {} (Registry.empty : Registry Unit) "").IsConsistent "" ∧
      forall x, x ∈ (Script.loop (some 0)).action.params -> forall p line target,
        (Script.loop (some 0)).action.bindingFor p x ≠ .error (.unknownState line target) := by
  have hresolve :
      (Script.loop none).resolve ⟨[("b", 0)]⟩ = (.ok (Script.loop (some 0), 1), ⟨[("a", 0)]⟩) := by
    decide +kernel
  rcases compilation_tells_how_far {} (Registry.empty : Registry Unit) {} "" with ⟨hfar, hbound⟩
  exact ⟨hresolve, hfar, hbound _ _ _ _ _ hresolve _ (Or.inl rfl)⟩

end BehaviorScript
