import BehaviorScript.Proofs.Census
import BehaviorScript.Proofs.Contract
import BehaviorScript.Proofs.Resolution

/-!
# Names find the same states at run time

A compilation finds states in a table of their names in small letters, and writes their numbers into
the arrows.  A machine finds them by going through its states and comparing names.  Both
give the same answer for every name, because no two states have the same name and a
machine keeps the order of the script.  So an arrow leads to the state that it names.
-/

namespace BehaviorScript

variable {σ : Type}

/-!
## The table and the machine
-/

namespace Compiled

variable {options : Options} {registry : Registry σ} {source : String}
variable {script : Script} {table : NameTable} {m : Machine σ}

theorem find?_eq_some_iff (h : Compiled options registry source script table m) {name : String}
    {i : Nat} : table.find? name = some i <-> script.IsNumberOf name i := by
  rw [h.table_eq]
  exact NameTable.find?_ofStates_eq_some_iff h.distinct

theorem stateId?_eq (h : Compiled options registry source script table m) (name : String) :
    m.stateId? name = (table.find? name).map Int32.ofNat := by
  have hnames : m.states.map State.name = script.states.map StateBlock.name :=
    (map_eq_map_of_forall₂ (fun _ _ hs => hs.name.symm) h.realizes.states).symm
  have hindex : m.states.findIdx? (fun s => Text.sameName s.name name) =
      script.states.findIdx? fun b => Text.sameName b.name name := by
    have hfind := congrArg (List.findIdx? fun n => Text.sameName n name) hnames
    rwa [List.findIdx?_map, List.findIdx?_map] at hfind
  rw [Machine.stateId?, hindex, h.table_eq, NameTable.find?_ofStates]

theorem lt_of_find?_eq_some (h : Compiled options registry source script table m)
    (hbound : m.states.length ≤ 2 ^ 31) {name : String} {i : Nat} (hi : table.find? name = some i) :
    i < 2 ^ 31 := by
  rw [h.table_eq] at hi
  have hlt := (Script.number_of_find? hi).2
  rw [← h.length_states] at hlt
  exact Nat.lt_of_lt_of_le hlt hbound

theorem stateId?_of_find? (h : Compiled options registry source script table m)
    (hbound : m.states.length ≤ 2 ^ 31) {name : String} {i : Nat} (hi : table.find? name = some i) :
    exists id : Int32, m.stateId? name = some id ∧ id.toInt = i := by
  refine ⟨Int32.ofNat i, ?_, Int32.toInt_ofNat_of_lt (h.lt_of_find?_eq_some hbound hi)⟩
  rw [h.stateId?_eq, hi, Option.map_some]

theorem stateId?_eq_some_iff (h : Compiled options registry source script table m)
    (hbound : m.states.length ≤ 2 ^ 31) (name : String) (id : Int32) :
    m.stateId? name = some id <-> 0 ≤ id.toInt ∧ script.IsNumberOf name id.toInt.toNat := by
  constructor
  · intro hid
    rw [h.stateId?_eq] at hid
    rcases Option.map_eq_some_iff.mp hid with ⟨i, hi, rfl⟩
    rw [Int32.toInt_ofNat_of_lt (h.lt_of_find?_eq_some hbound hi)]
    exact ⟨Int.natCast_nonneg i, h.find?_eq_some_iff.mp hi⟩
  · rintro ⟨hnonneg, hnumber⟩
    rcases h.stateId?_of_find? hbound (h.find?_eq_some_iff.mpr hnumber) with ⟨id', hid', htoInt⟩
    rw [Int.toNat_of_nonneg hnonneg] at htoInt
    rw [hid', Int32.toInt_inj.mp htoInt]

theorem state?_of_stateId? (h : Compiled options registry source script table m)
    (hbound : m.states.length ≤ 2 ^ 31) {name : String} {id : Int32}
    (hid : m.stateId? name = some id) :
    exists block s, script.states[id.toInt.toNat]? = some block ∧ m.state? id = some s ∧
      s.Realizes (ActionLine.CompilesTo options registry table) block ∧
      Text.sameName s.name name = true := by
  rcases (h.stateId?_eq_some_iff hbound name id).mp hid with ⟨hnonneg, block, hblock, hsame⟩
  rcases exists_of_forall₂_getElem? h.realizes.states hblock with ⟨s, hs, hrealizes⟩
  refine ⟨block, s, hblock, ?_, hrealizes, ?_⟩
  · rw [Machine.state?, if_pos hnonneg, hs]
  · rw [hrealizes.name]
    exact hsame

end Compiled

/-!
## Arrows
-/

structure ActionLine.IsArrowTo (options : Options) (a : ActionLine) (target : String) : Prop where
  name : a.name = options.transitionAction
  params : exists line, a.params =
    [{ line := line, name := options.defaultParam, op := .transition, value := target }]

namespace Machine

/--
The destination stands for the number that the name finds.  A transition to it leaves the current
state, then stands in the state of that number, and only then calls the enter actions.
-/
structure LeadsTo (m : Machine σ) (target : String) (destination : UInt64) (id : Int32)
    (s : State σ) : Prop where
  found : m.stateId? target = some id
  number : destination.toNat = id.toInt
  same : Text.sameName s.name target = true
  transition : m.transition destination = do
    m.leave
    Activity.change (·.moveTo ⟨id, 0⟩)
    Activity.tell (.entered m.name s.name)
    s.callEnter
  current : forall c : Context σ, m.currentState? (c.moveTo ⟨id, 0⟩) = some s

end Machine

theorem Compiled.leadsTo_of_find? {options : Options} {registry : Registry σ} {source : String}
    {script : Script} {table : NameTable} {m : Machine σ}
    (h : Compiled options registry source script table m) (hbound : m.states.length ≤ 2 ^ 31)
    {target : String} {i : Nat} (hi : table.find? target = some i) :
    exists id s, m.LeadsTo target i.toUInt64 id s := by
  have hlt := h.lt_of_find?_eq_some hbound hi
  rcases h.stateId?_of_find? hbound hi with ⟨id, hid, htoInt⟩
  rcases h.state?_of_stateId? hbound hid with ⟨block, s, _, hs, _, hsame⟩
  have hword : i.toUInt64.toNat = i :=
    UInt64.toNat_ofNat_of_lt' (Nat.lt_trans hlt (by decide))
  have hdestination : Machine.destinationId i.toUInt64 = id := by
    rw [Machine.destinationId_eq _ (hword.symm ▸ hlt), hword]
    apply Int32.toInt_inj.mp
    rw [htoInt, Int32.toInt_ofNat_of_lt hlt]
  refine ⟨id, s, hid, ?_, hsame, ?_, fun _ => hs⟩
  · rw [hword, htoInt]
  · rw [Machine.transition_eq, Machine.arrive, hdestination, hs]

/--
The action is what the registry builds for a bare arrow when the arrow leads to the destination.
The built-in action answers with that destination, and leaves the context alone.
-/
structure Registry.BuildsArrow (options : Options) (registry : Registry σ) (destination : UInt64)
    (x : Action σ) : Prop where
  bound : exists schema p, registry.find? options.transitionAction = some schema ∧
    schema.default? = some p ∧ schema.build (Bindings.bind {} p.name (.state destination)) = .ok x
  answer : forall base more, Registry.builtins σ options = .ok base ->
    base.registerAll more = (.ok (), registry) -> x = Activity.done (.transition destination)

/--
What is registered after the built-in actions does not take the arrow from them.
-/
theorem Registry.find?_transitionAction {options : Options} {base registry : Registry σ}
    {more : List (Schema σ)} (hbase : Registry.builtins σ options = .ok base)
    (hmore : base.registerAll more = (.ok (), registry)) :
    registry.find? options.transitionAction = some (Builtin.goto σ options) := by
  have hgoto : base.find? options.transitionAction = some (Builtin.goto σ options) := by
    rw [find?_builtins hbase, Text.sameName_iff.mpr rfl]
    rfl
  exact (isConsistent_builtins hbase).find?_registerAll hmore hgoto

theorem Builtin.build_goto (options : Options) (destination : UInt64) :
    (goto σ options).build (Bindings.bind {} "target" (.state destination)) =
      .ok (Activity.done (.transition destination)) := by
  show ((Bindings.bind {} "target" (.state destination)).transition "target").map _ = _
  rw [Bindings.transition, Bindings.find, ActionLine.get?_bind_self]
  rfl

theorem Builtin.default?_goto (options : Options) :
    (goto σ options).default? = some ⟨"target", .state⟩ :=
  (takesOnly_goto options).default

namespace ActionLine

variable {options : Options} {registry : Registry σ} {table : NameTable} {a : ActionLine}
variable {x : Action σ}

theorem CompilesTo.buildsArrow (h : a.CompilesTo options registry table x) {target : String}
    (harrow : a.IsArrowTo options target) :
    exists i, table.find? target = some i ∧ registry.BuildsArrow options i.toUInt64 x := by
  rcases harrow with ⟨hname, line, hline⟩
  rcases h with ⟨resolved, _, hresolve, hbuild⟩
  rcases resolve_eq_ok hresolve with ⟨params, hparams, rfl⟩
  rcases build_eq_ok hbuild with ⟨schema, bs, hfind, hbind, hx⟩
  rw [hline] at hparams
  cases hparams with
  | @cons _ y _ rest hy hrest =>
      cases hrest
      rcases Param.resolve_cases hy with ⟨hop, _⟩ | ⟨_, i, hi, rfl⟩
      · cases hop
      rcases bindParams_cons_eq_ok hbind with ⟨p, b, hproperty, hbinding, hbs⟩
      cases hbs
      have hdefault : schema.default? = some p := by
        rw [propertyFor, if_pos rfl] at hproperty
        cases hfound : schema.default? with
        | none => simp [hfound] at hproperty
        | some q =>
            simp only [hfound, Except.ok.injEq] at hproperty
            rw [hproperty]
      have hstate : b = .state i.toUInt64 := by
        unfold bindingFor at hbinding
        cases hconvert : p.kind.converter? with
        | none =>
            simp only [hconvert, Except.ok.injEq] at hbinding
            exact hbinding.symm
        | some convert => simp [hconvert] at hbinding
      rw [hname] at hfind
      rw [hstate] at hx
      refine ⟨i, hi, ⟨schema, p, hfind, hdefault, hx⟩, ?_⟩
      intro base more hbase hmore
      rw [Registry.find?_transitionAction hbase hmore] at hfind
      cases hfind
      rw [Builtin.default?_goto] at hdefault
      cases hdefault
      rw [Builtin.build_goto] at hx
      exact (Except.ok.inj hx).symm

def Leads (options : Options) (registry : Registry σ) (m : Machine σ) (a : ActionLine)
    (x : Action σ) : Prop :=
  forall target, a.IsArrowTo options target -> exists destination id s,
    m.LeadsTo target destination id s ∧ registry.BuildsArrow options destination x

end ActionLine

/--
The machine finds by a name just the state that the script declares under that name, and this is
where the arrows with that name lead.
-/
structure Machine.FindsAsIn (options : Options) (registry : Registry σ) (script resolved : Script)
    (m : Machine σ) : Prop where
  names : forall v id, m.stateId? v = some id <->
    0 ≤ id.toInt ∧ script.IsNumberOf v id.toInt.toNat
  unique : forall v i j, script.IsNumberOf v i -> script.IsNumberOf v j -> i = j
  states : forall v id, m.stateId? v = some id -> exists block s,
    script.states[id.toInt.toNat]? = some block ∧ m.states[id.toInt.toNat]? = some s ∧
      m.state? id = some s ∧ s.name = block.name ∧ Text.sameName s.name v = true
  arrows : forall (k : Nat) (x : Param), script.params[k]? = some x -> x.op = .transition ->
    exists id, m.stateId? x.value = some id ∧
      resolved.params[k]? = some { x with resolved := some id.toInt.toNat }
  leads : m.Realizes (ActionLine.Leads options registry m) script

/--
Compiling and running agree on names.  For a source that compiles to no more states than there are
numbers, a name finds a state at run time just when the source declares a state of that name,
and both take it for the same one.
-/
theorem lookups_agree (options : Options) (registry : Registry σ) (source : String) (b : Build σ)
    (hcompile : (compile options registry source).result = .ok b)
    (hbound : b.machine.states.length ≤ 2 ^ 31) :
    exists script resolved,
      Script.ofTokens options (scan source).tokens = .ok script ∧
        (script.resolve {}).1 = .ok (resolved, b.transitions) ∧
        b.machine.FindsAsIn options registry script resolved := by
  rcases numbers_of_compile_eq_ok hcompile with ⟨script, table, resolved, h, hresolve, _⟩
  refine ⟨script, resolved, h.parsed, ?_, ?_⟩
  · rw [Script.resolve, NameTable.clear, h.named]
    exact hresolve
  constructor
  case names => exact h.stateId?_eq_some_iff hbound
  case unique =>
    intro v i j hi hj
    rw [← h.find?_eq_some_iff] at hi hj
    rw [hi] at hj
    exact Option.some.inj hj
  case states =>
    intro v id hid
    rcases h.state?_of_stateId? hbound hid with ⟨block, s, hblock, hs, hrealizes, hsame⟩
    have hnonneg := ((h.stateId?_eq_some_iff hbound v id).mp hid).1
    refine ⟨block, s, hblock, ?_, hs, hrealizes.name, hsame⟩
    rwa [Machine.state?, if_pos hnonneg] at hs
  case arrows =>
    intro k x hx hop
    rcases exists_of_forall₂_getElem? (Script.forall₂_params_of_resolveWith hresolve) hx with
      ⟨y, hy, hxy⟩
    rcases Param.resolve_cases hxy with ⟨hassign, _⟩ | ⟨_, i, hi, rfl⟩
    · rw [hop] at hassign
      cases hassign
    · rcases h.stateId?_of_find? hbound hi with ⟨id, hid, htoInt⟩
      refine ⟨id, hid, ?_⟩
      rw [hy, htoInt, Int.toNat_natCast]
  case leads =>
    apply h.realizes.imp
    intro a x hcompiles target harrow
    rcases hcompiles.buildsArrow harrow with ⟨i, hi, hbuilds⟩
    rcases h.leadsTo_of_find? hbound hi with ⟨id, s, hleads⟩
    exact ⟨_, id, s, hleads, hbuilds⟩

theorem lookups_agree_two_states :
    let source := "@machine m->b\n@state a\n@state b\n@on\nk:->a"
    exists (r : Registry Unit) (b : Build Unit),
      Registry.builtins Unit {} = .ok r ∧ (compile {} r source).result = .ok b ∧
        b.machine.states.map State.name = ["a", "b"] ∧
        b.machine.stateId? "b" = some 1 ∧
        exists script resolved,
          Script.ofTokens {} (scan source).tokens = .ok script ∧
            (script.resolve {}).1 = .ok (resolved, b.transitions) ∧
            b.machine.FindsAsIn {} r script resolved := by
  intro source
  have heval : ((Registry.builtins Unit {}).toOption.map fun r =>
      (compile {} r source).result.toOption.map fun b =>
        (b.machine.states.map State.name, b.machine.stateId? "b")) =
      some (some (["a", "b"], some 1)) := by
    decide +kernel
  rcases exists_of_toOption_map_eq_some heval with ⟨r, hr, hcompile⟩
  rcases exists_of_toOption_map_eq_some hcompile with ⟨b, hb, hfound⟩
  rcases Prod.mk.inj hfound with ⟨hnames, hid⟩
  have hbound : b.machine.states.length ≤ 2 ^ 31 := by
    have htwo : b.machine.states.length = 2 := by
      simpa using congrArg List.length hnames
    rw [htwo]
    decide
  exact ⟨r, b, hr, hb, hnames, hid, lookups_agree {} r source b hb hbound⟩

end BehaviorScript
