import BehaviorScript.Proofs.NameLookups
import BehaviorScript.Proofs.Registration

/-!
# Bare arrows always compile

The name of the action that a bare arrow calls, and the name that its target is bound under, are
chosen by the options.  The parser writes both into the script, the registry of the built-in
actions takes the first, and building compares with the second.  They fit together for every
choice for which the built-in actions can be registered at all, and later registrations do not
change that.
-/

namespace BehaviorScript

variable {σ : Type}

/-!
## When the built-in actions can be registered
-/

namespace Registry

theorem accepts_append {known names more : List String} :
    Accepts known (names ++ more) <-> Accepts known names ∧ Accepts (known ++ names) more := by
  constructor
  · intro h
    rcases List.pairwise_append.mp h.distinct with ⟨hnames, hmore, hcross⟩
    constructor
    · constructor
      · exact fun name hname => h.form name (List.mem_append_left _ hname)
      · exact hnames
      · exact fun name hname => h.new name (List.mem_append_left _ hname)
    · constructor
      · exact fun name hname => h.form name (List.mem_append_right _ hname)
      · exact hmore
      · intro name hname k hk
        rcases List.mem_append.mp hk with hk | hk
        · exact h.new name (List.mem_append_right _ hname) k hk
        · exact hcross k hk name hname
  · rintro ⟨hnames, hmore⟩
    constructor
    · intro name hname
      rcases List.mem_append.mp hname with hname | hname
      · exact hnames.form name hname
      · exact hmore.form name hname
    · apply List.pairwise_append.mpr
      exact ⟨hnames.distinct, hmore.distinct, fun a ha b hb =>
        hmore.new b hb a (List.mem_append_right _ ha)⟩
    · intro name hname k hk
      rcases List.mem_append.mp hname with hname | hname
      · exact hnames.new name hname k hk
      · exact hmore.new name hname k (List.mem_append_left _ hk)

theorem IsConsistent.registerAll_eq_ok_iff {r : Registry σ} (hr : r.IsConsistent)
    {schemas : List (Schema σ)} :
    (r.registerAll schemas).1 = .ok () <-> Accepts r.names (schemas.flatMap Schema.names) := by
  induction schemas generalizing r with
  | nil => exact ⟨fun _ => accepts_nil _, fun _ => rfl⟩
  | cons s rest ih =>
      rw [Registry.registerAll, List.flatMap_cons, accepts_append]
      rcases accepts_or_refuses r.names s.names with haccepts | ⟨e, hrefuses⟩
      · rw [hr.register_of_accepts haccepts, ← names_appended]
        exact (ih (hr.appended haccepts)).trans ⟨fun h => ⟨haccepts, h⟩, fun h => h.2⟩
      · rw [hr.register_of_refuses hrefuses]
        constructor
        · intro hno
          cases hno
        · intro h
          have hok := hr.register_eq_ok_iff.mpr h.1
          rw [hr.register_of_refuses hrefuses] at hok
          cases hok

def fixedNames : List String :=
  ["goto", "yield", "done", "loop", "log"]

theorem exists_builtins_iff (options : Options) :
    (exists base, Registry.builtins σ options = .ok base) <->
      IsNameOfAction options.transitionAction ∧
        forall name, name ∈ fixedNames ->
          Text.sameName name options.transitionAction = false := by
  have hfixed : Accepts [] fixedNames := by
    let s : Schema Unit :=
      { name := "goto"
        aliases := ["yield", "done", "loop", "log"]
        build := fun _ => .ok (Activity.done .done) }
    exact (isConsistent_empty.register_eq_ok_iff (s := s)).mp (by decide +kernel)
  have hnames : (Builtin.schemas σ options).flatMap Schema.names =
      options.transitionAction :: fixedNames := rfl
  have hsame (a b : String) : Text.sameName a b = Text.sameName b a := by
    rw [Bool.eq_iff_iff, Text.sameName_iff, Text.sameName_iff, eq_comm]
  have hregistered : (exists base, Registry.builtins σ options = .ok base) <->
      (empty.registerAll (Builtin.schemas σ options)).1 = .ok () := by
    unfold builtins
    rcases empty.registerAll (Builtin.schemas σ options) with ⟨e | _, base⟩
    · simp
    · simp
  rw [hregistered, isConsistent_empty.registerAll_eq_ok_iff, hnames, accepts_cons]
  constructor
  · rintro ⟨hform, _, hrest⟩
    refine ⟨hform, fun name hname => ?_⟩
    rw [hsame]
    exact hrest.new name hname _ List.mem_cons_self
  · rintro ⟨hform, hnew⟩
    refine ⟨hform, fun k hk => absurd hk List.not_mem_nil, hfixed.form, hfixed.distinct, ?_⟩
    intro name hname k hk
    rw [List.mem_singleton.mp hk, hsame]
    exact hnew name hname

end Registry

/-!
## What the parser makes of an arrow
-/

/--
The line was read from a bare arrow to a name, behind the key of a message where there has to be
one.
-/
structure Parser.ReadsArrow (p : Parser) (inOn : Bool) (ts : List Token) (target : String)
    (a : ActionLine) : Prop where
  arrow : exists message arrow name after,
    p.messageKey inOn ts = .ok (message, arrow :: name :: after) ∧
      arrow.kind = .operator .transition ∧ name.text = target
  line : exists rest, p.action inOn ts = .ok (a, rest)

theorem Parser.command_arrow {p : Parser} {line : Nat} {arrow name : Token}
    {after rest : List Token} {c : String × List Param}
    (harrow : arrow.kind = .operator .transition)
    (h : p.command line (arrow :: name :: after) = .ok (c, rest)) :
    c = (p.options.transitionAction,
      [{ line := name.line, name := p.options.defaultParam, op := .transition,
         value := name.text }]) := by
  simp only [command, harrow] at h
  rcases map_eq_ok h with ⟨⟨target, r⟩, hliteral, hc⟩
  rcases literal_eq_ok hliteral with ⟨htokens, _⟩
  cases htokens
  cases hc
  rfl

theorem Parser.ReadsArrow.isArrowTo {p : Parser} {inOn : Bool} {ts : List Token} {target : String}
    {a : ActionLine} (h : p.ReadsArrow inOn ts target a) : a.IsArrowTo p.options target := by
  rcases h with ⟨⟨message, arrow, name, after, hkey, harrow, rfl⟩, rest, hline⟩
  simp only [action, hkey] at hline
  split at hline
  · cases hline
  · next n params r hcommand =>
      cases command_arrow harrow hcommand
      split at hline
      · cases hline
        exact ⟨rfl, name.line, rfl⟩
      · cases hline

/-!
## What resolving makes of it
-/

namespace Script

variable {s resolved : Script}

theorem isResolvable_of_resolve {previous : NameTable} {told : Nat}
    (h : (s.resolve previous).1 = .ok (resolved, told)) :
    s.IsResolvable ∧ resolved = s.mapParams (Param.withNumber s.number) := by
  rcases s.isResolvable_or_rejects with hresolvable | ⟨e, hrejects⟩
  · rw [resolve_of_isResolvable previous hresolvable] at h
    cases h
    exact ⟨hresolvable, rfl⟩
  · rw [resolve_of_rejects previous hrejects] at h
    cases h

def allActions (s : Script) : List ActionLine :=
  s.action :: s.actions

theorem allActions_mapParams (s : Script) (f : Param -> Param) :
    (s.mapParams f).allActions = s.allActions.map (ActionLine.mapParams f) := by
  simp only [allActions, actions, mapParams, List.map_cons, List.flatMap_map, List.map_flatMap,
    StateBlock.actions_mapParams]

theorem params_eq_flatMap_allActions (s : Script) :
    s.params = s.allActions.flatMap ActionLine.params := by
  rw [params, allActions, List.flatMap_cons]

theorem exists_isNumberOf_of_isArrowTo (h : s.IsResolvable) {options : Options} {a : ActionLine}
    {target : String} (ha : a ∈ s.allActions) (harrow : a.IsArrowTo options target) :
    exists i, s.IsNumberOf target i := by
  rcases harrow with ⟨_, line, hparams⟩
  have hmem (x : Param) (hx : x ∈ a.params) : x ∈ s.params := by
    rw [params_eq_flatMap_allActions]
    exact List.mem_flatMap.mpr ⟨a, ha, hx⟩
  rw [hparams] at hmem
  exact h.named _ (List.mem_filter.mpr ⟨hmem _ (List.mem_singleton_self _), rfl⟩)

theorem lt_of_isNumberOf {target : String} {i : Nat} (h : s.IsNumberOf target i) :
    i < s.states.length := by
  rcases h with ⟨block, hblock, _⟩
  exact (List.getElem?_eq_some_iff.mp hblock).1

end Script

/-!
## What building makes of it
-/

namespace ActionLine

theorem build_arrow {options : Options} {base registry : Registry σ} {more : List (Schema σ)}
    (hbase : Registry.builtins σ options = .ok base)
    (hmore : base.registerAll more = (.ok (), registry))
    {reading : Options} {a : ActionLine} {x : Param} {i : Nat}
    (hname : a.name = options.transitionAction) (hparams : a.params = [x])
    (hreserved : x.name = reading.defaultParam) (hop : x.op = .transition)
    (hresolved : x.resolved = some i) :
    a.build reading registry = .ok (Activity.done (.transition i.toUInt64)) := by
  have hproperty : a.propertyFor reading (Builtin.goto σ options) x = .ok ⟨"target", .state⟩ := by
    rw [propertyFor, if_pos hreserved, Builtin.default?_goto]
  have hbinding : a.bindingFor ⟨"target", .state⟩ x = .ok (.state i.toUInt64) := by
    simp [bindingFor, hop, hresolved, Kind.converter?]
  have hbindings : a.bindParams reading (Builtin.goto σ options) {} a.params =
      .ok (Bindings.bind {} "target" (.state i.toUInt64)) := by
    simp [hparams, bindParams, hproperty, hbinding]
  simp only [build, hname, Registry.find?_transitionAction hbase hmore, hbindings,
    Builtin.build_goto]

/--
The line is built into an action that goes to the state at place `i`, and this is the only state of
the given name.  The action does nothing else.
-/
structure GoesTo (options : Options) (registry : Registry σ) (script : Script) (a : ActionLine)
    (target : String) (i : Nat) : Prop where
  only : forall j, script.IsNumberOf target j <-> j = i
  built : exists x, a.build options registry = .ok x ∧
    forall c, x c = ⟨.transition i.toUInt64, c, []⟩
  number : script.states.length ≤ 2 ^ 64 -> i.toUInt64.toNat = i

end ActionLine

/--
Bare arrows always compile.  The built-in actions can be registered just when the name of the
reserved action has the right form and none of the other built-in actions has it.  Then every
arrow of a resolved script is built into a transition to the state that it names, whatever else is
registered and whatever the reserved name for parameters is.
-/
theorem bare_arrows_always_compile (options : Options) :
    ((exists base, Registry.builtins σ options = .ok base) <->
      IsNameOfAction options.transitionAction ∧
        forall name, name ∈ Registry.fixedNames ->
          Text.sameName name options.transitionAction = false) ∧
    forall (base registry : Registry σ) (more : List (Schema σ)),
      Registry.builtins σ options = .ok base -> base.registerAll more = (.ok (), registry) ->
      forall (script resolved : Script) (told : Nat) (previous : NameTable),
        (script.resolve previous).1 = .ok (resolved, told) ->
      forall (p : Parser) (inOn : Bool) (ts : List Token) (target : String) (a : ActionLine),
        p.options.transitionAction = options.transitionAction ->
        p.ReadsArrow inOn ts target a ->
      forall k : Nat, script.allActions[k]? = some a ->
        exists (line : ActionLine) (i : Nat), resolved.allActions[k]? = some line ∧
          line.GoesTo p.options registry script target i := by
  constructor
  · exact Registry.exists_builtins_iff options
  · intro base registry more hbase hmore script resolved told previous hresolve
      p inOn ts target a hreserved hreads k hk
    rcases Script.isResolvable_of_resolve hresolve with ⟨hresolvable, rfl⟩
    -- the parser, not the script, is what gives the parameter the reserved name
    have harrow := hreads.isArrowTo
    have hnumber :=
      Script.exists_isNumberOf_of_isArrowTo hresolvable (List.mem_of_getElem? hk) harrow
    have honly := Script.isNumberOf_iff_eq_number hresolvable.distinct hnumber
    rcases harrow with ⟨hname, line, hparams⟩
    refine ⟨a.mapParams (Param.withNumber script.number), script.number target, ?_, ?_⟩
    · rw [Script.allActions_mapParams, List.getElem?_map, hk]
      rfl
    constructor
    case only => exact honly
    case built =>
      refine ⟨Activity.done (.transition (script.number target).toUInt64), ?_, fun c => rfl⟩
      apply ActionLine.build_arrow hbase hmore
      · exact hname.trans hreserved
      · rw [ActionLine.mapParams, hparams, List.map_singleton]
      · rfl
      · rfl
      · rfl
    case number =>
      intro hbound
      have hlt := Script.lt_of_isNumberOf ((honly _).mpr rfl)
      exact UInt64.toNat_ofNat_of_lt' (Nat.lt_of_lt_of_le hlt hbound)

/--
An arrow that answers a message, with a name of its own for the reserved action and the name of a
property for the parameter, beside a registered action that goes by that name too.
-/
theorem bare_arrows_always_compile_renamed :
    let options : Options := { transitionAction := "go", defaultParam := "target" }
    let key : Token := ⟨.quoted, 0, 5, 4, "hit"⟩
    let colon : Token := ⟨.operator .assign, 5, 1, 4, ":"⟩
    let arrow : Token := ⟨.operator .transition, 7, 2, 4, "->"⟩
    let name : Token := ⟨.word, 10, 1, 4, "b"⟩
    let a : ActionLine :=
      { line := 4, name := "go", message := some "hit",
        params := [{ line := 4, name := "target", op := .transition, value := "b" }] }
    let script : Script :=
      { line := 1, name := "m",
        action := { line := 1, name := "yield", message := none, params := [] },
        states := [{ line := 2, name := "a", on := some ⟨3, [a]⟩ }, { line := 5, name := "b" }] }
    exists (base registry : Registry Unit) (resolved : Script) (line : ActionLine),
      Registry.builtins Unit options = .ok base ∧
        base.registerAll [Builtin.answer Unit "target" .yield] = (.ok (), registry) ∧
        (script.resolve {}).1 = .ok (resolved, 1) ∧
        Parser.ReadsArrow ⟨options, 1⟩ true [key, colon, arrow, name] "b" a ∧
        resolved.allActions[1]? = some line ∧ line.GoesTo options registry script "b" 1 := by
  intro options key colon arrow name a script
  have heval : ((Registry.builtins Unit options).toOption.map fun base =>
      (base.registerAll [Builtin.answer Unit "target" .yield]).1.isOk) = some true := by
    decide +kernel
  rcases exists_of_toOption_map_eq_some heval with ⟨base, hbuiltins, hok⟩
  rcases hmore : base.registerAll [Builtin.answer Unit "target" .yield] with
    ⟨e | _, registry⟩
  · rw [hmore] at hok
    cases hok
  have hresolve : (script.resolve {}).1 =
      .ok (script.mapParams (Param.withNumber fun _ => 1), 1) := by
    decide +kernel
  have hreads : Parser.ReadsArrow ⟨options, 1⟩ true [key, colon, arrow, name] "b" a := by
    constructor
    · exact ⟨some "hit", arrow, name, [], by decide, rfl, rfl⟩
    · exact ⟨[], by decide⟩
  have hcompile := (bare_arrows_always_compile options).2 _ _ _ hbuiltins hmore _ _ _ _ hresolve
    _ _ _ _ _ rfl hreads 1 rfl
  rcases hcompile with ⟨line, i, hline, hgoes⟩
  have hi : 1 = i := (hgoes.only 1).mp ⟨{ line := 5, name := "b" }, rfl, by decide +kernel⟩
  rw [← hi] at hgoes
  exact ⟨_, _, _, line, hbuiltins, hmore, hresolve, hreads, hline, hgoes⟩

end BehaviorScript
