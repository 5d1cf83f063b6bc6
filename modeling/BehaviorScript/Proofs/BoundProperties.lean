import BehaviorScript.Proofs.Declaration
import BehaviorScript.Proofs.Destinations
import BehaviorScript.Proofs.Meaning

/-!
# What a line binds

The bindings that a line hands to the schema of its action, described without the order in
which they came about: for each property of the schema there is a binding if some
parameter is meant for it, and then it is the one that the last such parameter gives.
A parameter gives a binding of the kind that the property is declared with, and so every
accessor of that kind succeeds or finds the property unbound.
-/

namespace BehaviorScript

variable {σ : Type}

/-!
## What a parameter gives
-/

theorem Kind.eq_state_of_converter? {kind : Kind} (h : kind.converter? = none) :
    kind = .state := by
  cases kind with
  | state => rfl
  | _ => cases h

namespace Param

def targets (options : Options) (schema : Schema σ) (p : Property) (x : Param) : Bool :=
  if x.name = options.defaultParam then schema.default? == some p
  else Text.sameName x.name p.name

def lastFor? (options : Options) (schema : Schema σ) (p : Property) (params : List Param) :
    Option Param :=
  (params.filter (targets options schema p)).getLast?

/--
What the parameter gives for a property of some kind: a value of just that kind after a colon, and
the number of the named state after an arrow.
-/
inductive Gives (s : Script) (x : Param) : Kind -> Binding -> Prop where
  | int {v : Int64} (colon : x.op = .assign) (literal : Literal.toInt? x.value = some (.int v)) :
      Gives s x .int (.value (.int v))
  | float {v : Binary64} (colon : x.op = .assign)
      (literal : Literal.toFloat? x.value = some (.float v)) :
      Gives s x .float (.value (.float v))
  | text (colon : x.op = .assign) : Gives s x .text (.value (.text x.value))
  | bool {v : Bool} (colon : x.op = .assign)
      (literal : Literal.toBool? x.value = some (.bool v)) :
      Gives s x .bool (.value (.bool v))
  | state (arrow : x.op = .transition) (known : s.number x.value < s.states.length) :
      Gives s x .state (.state (s.number x.value).toUInt64)

/--
The number that an arrow was resolved to is that of the state it names.
-/
def IsResolved (s : Script) (x : Param) : Prop :=
  forall i, x.op = .transition -> x.resolved = some i ->
    s.number x.value = i ∧ i < s.states.length

theorem gives_of_converter? {s : Script} {x : Param} {kind : Kind}
    {convert : String -> Option Value} {v : Value} (hop : x.op = .assign)
    (hconvert : kind.converter? = some convert) (hv : convert x.value = some v) :
    x.Gives s kind (.value v) := by
  cases kind with
  | int =>
      injection hconvert with hconvert
      subst hconvert
      rcases Option.map_eq_some_iff.mp hv with ⟨i, _, rfl⟩
      exact .int hop hv
  | float =>
      injection hconvert with hconvert
      subst hconvert
      rcases Option.map_eq_some_iff.mp hv with ⟨f, _, rfl⟩
      exact .float hop hv
  | text =>
      injection hconvert with hconvert
      subst hconvert
      injection hv with hv
      rw [← hv]
      exact .text hop
  | bool =>
      injection hconvert with hconvert
      subst hconvert
      have hbool : exists b, v = .bool b := by
        unfold Literal.toBool? at hv
        grind
      rcases hbool with ⟨b, rfl⟩
      exact .bool hop hv
  | state => cases hconvert

theorem gives_of_bindingFor {a : ActionLine} {s : Script} {x : Param} {p : Property}
    {b : Binding} (hx : x.IsResolved s) (h : a.bindingFor p x = .ok b) :
    x.Gives s p.kind b := by
  unfold ActionLine.bindingFor at h
  split at h
  · next hop hconvert =>
      have hkind : p.kind = .state := Kind.eq_state_of_converter? hconvert
      cases hresolved : x.resolved with
      | none => simp [hresolved] at h
      | some i =>
          simp only [hresolved, Except.ok.injEq] at h
          rcases hx i hop hresolved with ⟨hnumber, hlt⟩
          rw [← h, ← hnumber, hkind]
          exact .state hop (hnumber ▸ hlt)
  · next convert hop hconvert =>
      cases hv : convert x.value with
      | none => simp [hv] at h
      | some v =>
          simp only [hv, Except.ok.injEq] at h
          rw [← h]
          exact gives_of_converter? hop hconvert hv
  · cases h

theorem lastFor?_cons_of_targets {options : Options} {schema : Schema σ} {p : Property}
    {x : Param} (h : x.targets options schema p = true) (rest : List Param) :
    lastFor? options schema p (x :: rest) =
      some ((lastFor? options schema p rest).getD x) := by
  rw [lastFor?, List.filter_cons_of_pos h, List.getLast?_cons, lastFor?]

theorem lastFor?_cons_of_not_targets {options : Options} {schema : Schema σ} {p : Property}
    {x : Param} (h : x.targets options schema p = false) (rest : List Param) :
    lastFor? options schema p (x :: rest) = lastFor? options schema p rest := by
  rw [lastFor?, List.filter_cons_of_neg (by simp [h]), lastFor?]

theorem lastFor?_eq_none_iff {options : Options} {schema : Schema σ} {p : Property}
    {params : List Param} :
    lastFor? options schema p params = none <->
      forall x, x ∈ params -> x.targets options schema p = false := by
  simp [lastFor?]

theorem of_lastFor?_eq_some {options : Options} {schema : Schema σ} {p : Property}
    {params : List Param} {x : Param} (h : lastFor? options schema p params = some x) :
    x ∈ params ∧ x.targets options schema p = true :=
  List.mem_filter.mp (List.mem_of_getLast? h)

inductive Given (s : Script) (options : Options) (schema : Schema σ) (params : List Param)
    (p : Property) : Option Binding -> Prop where
  | nothing (untargeted : forall x, x ∈ params -> x.targets options schema p = false) :
      Given s options schema params p none
  | binding {x : Param} {b : Binding} (last : lastFor? options schema p params = some x)
      (gives : x.Gives s p.kind b) : Given s options schema params p (some b)

end Param

/-!
## Resolved lines
-/

theorem ActionLine.isResolved_of_resolve {s : Script} {a b : ActionLine} {count : Nat}
    (h : a.resolve (.ofStates s.states) = .ok (b, count)) {x : Param} (hx : x ∈ b.params) :
    x.IsResolved s := by
  rcases resolve_eq_ok h with ⟨params, hparams, rfl⟩
  rcases exists_of_forall₂_mem hparams hx with ⟨y, _, hy⟩
  intro i hop hi
  exact Script.number_of_find? ((Param.resolve_eq_ok hy).2.2 i hop hi)

theorem Script.isResolved_of_resolve {previous table : NameTable} {script resolved : Script}
    {told : Nat} (h : script.resolve previous = (.ok (resolved, told), table)) {a : ActionLine}
    (ha : a = resolved.action ∨ a ∈ resolved.actions) {x : Param} (hx : x ∈ a.params) :
    x.IsResolved resolved := by
  rcases resolve_eq_ok h with ⟨hfill, hwith⟩
  rcases resolveWith_eq_ok hwith with ⟨_, hblocks, _⟩
  have hnames : resolved.states.map (fun b => Text.foldCase b.name) =
      script.states.map fun b => Text.foldCase b.name := by
    refine map_eq_of_forall₂ ?_ hblocks
    intro b b' hb
    rw [(StateBlock.resolve_eq_ok hb).name]
  have htable : table = .ofStates resolved.states := by
    rw [(NameTable.fill_eq_none_iff.mp hfill).2, NameTable.ofStates, NameTable.ofStates, hnames]
  rcases exists_of_resolveWith hwith ha with ⟨b, _, hb⟩
  rw [htable] at hb
  exact ActionLine.isResolved_of_resolve hb hx

/-!
## One binding after another
-/

namespace Bindings

theorem get?_bind_of_ne {bs : Bindings} {property name : String} {b : Binding}
    (h : Text.foldCase name ≠ Text.foldCase property) :
    (bs.bind property b).get? name = bs.get? name := by
  rw [bind, get?, Table.lookup_put, if_neg h]
  rfl

theorem get?_congr {bs : Bindings} {name property : String}
    (h : Text.sameName name property = true) : bs.get? name = bs.get? property := by
  rw [get?, get?, Text.sameName_iff.mp h]

structure AreOf (schema : Schema σ) (bs : Bindings) : Prop where
  distinct : (bs.entries.map Prod.fst).Nodup
  declared : forall key b, (key, b) ∈ bs.entries -> exists p, p ∈ schema.properties ∧ p.name = key

theorem AreOf.bind {schema : Schema σ} {bs : Bindings} (hschema : schema.IsWellNamed)
    (h : bs.AreOf schema) {p : Property} (hp : p ∈ schema.properties) (b : Binding) :
    (bs.bind p.name b).AreOf schema where
  distinct := by
    rw [Bindings.bind, Table.keys_put]
    exact nodup_appendNew h.distinct _
  declared := by
    intro key b' hmem
    rcases Table.mem_put hmem with hnew | hold
    · cases hnew
      exact ⟨p, hp, (hschema.folded p hp).symm⟩
    · exact h.declared key b' hold

theorem AreOf.get?_eq_some_iff {schema : Schema σ} {bs : Bindings}
    (hschema : schema.IsWellNamed) (h : bs.AreOf schema) {p : Property}
    (hp : p ∈ schema.properties) {b : Binding} :
    bs.get? p.name = some b <-> (p.name, b) ∈ bs.entries := by
  rw [get?, hschema.folded p hp]
  constructor
  · exact mem_of_lookup_eq_some
  · intro hmem
    cases hlookup : bs.entries.lookup p.name with
    | none =>
        have hno := List.lookup_eq_none_iff.mp hlookup (p.name, b) hmem
        simp at hno
    | some b' =>
        have heq := List.inj_on_of_nodup_map h.distinct (mem_of_lookup_eq_some hlookup) hmem rfl
        cases heq
        rfl

end Bindings

namespace ActionLine

variable {a : ActionLine} {options : Options} {schema : Schema σ} {s : Script}

theorem propertyFor_eq_ok_iff (hschema : schema.IsWellNamed) {x : Param} {p : Property} :
    a.propertyFor options schema x = .ok p <->
      p ∈ schema.properties ∧ x.targets options schema p = true := by
  unfold propertyFor Param.targets
  split
  · cases hdefault : schema.default? with
    | none => simp
    | some q =>
        have hq := Schema.mem_properties_of_default? hdefault
        simp only [Except.ok.injEq, beq_iff_eq, Option.some.injEq]
        constructor
        · rintro rfl
          exact ⟨hq, rfl⟩
        · exact And.right
  · rw [← hschema.property?_eq_some_iff]
    cases schema.property? x.name with
    | none => simp
    | some q => simp

theorem areOf_of_bindParams (hschema : schema.IsWellNamed) {params : List Param}
    {bs bs' : Bindings} (h : a.bindParams options schema bs params = .ok bs')
    (hbs : bs.AreOf schema) : bs'.AreOf schema := by
  induction params generalizing bs with
  | nil =>
      cases h
      exact hbs
  | cons x rest ih =>
      rcases bindParams_cons_eq_ok h with ⟨p, b, hp, _, hrest⟩
      exact ih hrest (hbs.bind hschema ((propertyFor_eq_ok_iff hschema).mp hp).1 b)

theorem get?_bindParams (hschema : schema.IsWellNamed) {params : List Param}
    (hparams : forall x, x ∈ params -> x.IsResolved s) {bs bs' : Bindings}
    (h : a.bindParams options schema bs params = .ok bs') {p : Property}
    (hp : p ∈ schema.properties) :
    (Param.lastFor? options schema p params = none ∧ bs'.get? p.name = bs.get? p.name) ∨
      exists x b, Param.lastFor? options schema p params = some x ∧ x.Gives s p.kind b ∧
        bs'.get? p.name = some b := by
  induction params generalizing bs with
  | nil =>
      cases h
      exact Or.inl ⟨rfl, rfl⟩
  | cons x rest ih =>
      rcases bindParams_cons_eq_ok h with ⟨q, b, hq, hb, hrest⟩
      have hlater := ih (fun y hy => hparams y (List.mem_cons_of_mem x hy)) hrest
      cases htargets : x.targets options schema p with
      | true =>
          -- The line binds `p` here, and a later parameter for it takes over.
          have hqp : q = p := by
            rw [(propertyFor_eq_ok_iff hschema).mpr ⟨hp, htargets⟩] at hq
            cases hq
            rfl
          subst hqp
          rw [Param.lastFor?_cons_of_targets htargets]
          apply Or.inr
          rcases hlater with ⟨hnone, hget⟩ | ⟨y, b', hy, hgives, hget⟩
          · refine ⟨x, b, by rw [hnone]; rfl, ?_, by rw [hget, get?_bind_self]⟩
            exact Param.gives_of_bindingFor (hparams x List.mem_cons_self) hb
          · exact ⟨y, b', by rw [hy]; rfl, hgives, hget⟩
      | false =>
          -- Another property is bound here, and its name differs in small letters as well.
          have hne : Text.foldCase p.name ≠ Text.foldCase q.name := by
            intro hfold
            rcases (propertyFor_eq_ok_iff hschema).mp hq with ⟨hqmem, hqtargets⟩
            rw [hschema.folded p hp, hschema.folded q hqmem] at hfold
            rw [hschema.eq_of_name_eq hp hqmem hfold, hqtargets] at htargets
            cases htargets
          rw [Param.lastFor?_cons_of_not_targets htargets]
          rw [Bindings.get?_bind_of_ne hne] at hlater
          exact hlater

theorem given_of_bindParams (hschema : schema.IsWellNamed) {params : List Param}
    (hparams : forall x, x ∈ params -> x.IsResolved s) {bs : Bindings}
    (h : a.bindParams options schema {} params = .ok bs) {p : Property}
    (hp : p ∈ schema.properties) :
    Param.Given s options schema params p (bs.get? p.name) := by
  rcases get?_bindParams hschema hparams h hp with ⟨hnone, hget⟩ | ⟨x, b, hx, hgives, hget⟩
  · rw [hget]
    exact .nothing (Param.lastFor?_eq_none_iff.mp hnone)
  · rw [hget]
    exact .binding hx hgives

end ActionLine

/-!
## Bindings of a line
-/

/--
The bindings fit the parameters of a line: one for each property of the schema that a parameter is
meant for, of the kind of the property, and as the last of its parameters has it.
-/
structure Bindings.FitLine (s : Script) (options : Options) (schema : Schema σ)
    (params : List Param) (bs : Bindings) : Prop where
  distinct : (bs.entries.map Prod.fst).Nodup
  bound : forall p, p ∈ schema.properties ->
    (p.name ∈ bs.entries.map Prod.fst <->
      exists x, x ∈ params ∧ x.targets options schema p = true)
  typed : forall key b, (key, b) ∈ bs.entries ->
    exists p x, p ∈ schema.properties ∧ p.name = key ∧
      Param.lastFor? options schema p params = some x ∧ x.Gives s p.kind b

theorem Bindings.AreOf.fitLine {s : Script} {options : Options} {schema : Schema σ}
    {params : List Param} {bs : Bindings} (hschema : schema.IsWellNamed)
    (h : bs.AreOf schema)
    (hgiven : forall p, p ∈ schema.properties ->
      Param.Given s options schema params p (bs.get? p.name)) :
    bs.FitLine s options schema params where
  distinct := h.distinct
  bound := by
    intro p hp
    have hg := hgiven p hp
    cases hget : bs.get? p.name with
    | none =>
        rw [hget] at hg
        cases hg with
        | nothing huntargeted =>
            constructor
            · intro hmem
              rcases List.mem_map.mp hmem with ⟨⟨key, b⟩, hb, rfl⟩
              rw [(h.get?_eq_some_iff hschema hp).mpr hb] at hget
              cases hget
            · intro ⟨x, hx, htargets⟩
              rw [huntargeted x hx] at htargets
              cases htargets
    | some b =>
        rw [hget] at hg
        cases hg with
        | binding hlast _ =>
            constructor
            · intro _
              exact ⟨_, Param.of_lastFor?_eq_some hlast⟩
            · intro _
              exact List.mem_map_of_mem ((h.get?_eq_some_iff hschema hp).mp hget)
  typed := by
    intro key b hmem
    rcases h.declared key b hmem with ⟨p, hp, rfl⟩
    have hg := hgiven p hp
    rw [(h.get?_eq_some_iff hschema hp).mpr hmem] at hg
    cases hg with
    | binding hlast hgives => exact ⟨p, _, hp, rfl, hlast, hgives⟩

/-!
## Reading a property
-/

namespace Bindings

/--
The accessors for properties of a kind give back what is given for the property, and say that it is
missing, or give the default, just when nothing is.
-/
def ReadAs (given : Option Binding -> Prop) (bs : Bindings) (name : String) : Kind -> Prop
  | .int => exists found : Option Int64, given (found.map fun v => .value (.int v)) ∧
      bs.int name = found.elim (.error (.missing name)) .ok ∧
      forall default, bs.intOr name default = .ok (found.getD default)
  | .float => exists found : Option Binary64, given (found.map fun v => .value (.float v)) ∧
      bs.float name = found.elim (.error (.missing name)) .ok ∧
      forall default, bs.floatOr name default = .ok (found.getD default)
  | .text => exists found : Option String, given (found.map fun v => .value (.text v)) ∧
      bs.text name = found.elim (.error (.missing name)) .ok ∧
      forall default, bs.textOr name default = .ok (found.getD default)
  | .bool => exists found : Option Bool, given (found.map fun v => .value (.bool v)) ∧
      bs.bool name = found.elim (.error (.missing name)) .ok ∧
      forall default, bs.boolOr name default = .ok (found.getD default)
  | .state => exists found : Option UInt64, given (found.map .state) ∧
      bs.transition name = found.elim (.error (.missing name)) .ok

theorem find_eq_ok {α : Type} {bs : Bindings} {name : String} {wrap : α -> Binding}
    {view : Binding -> Option α} (hview : forall v, view (wrap v) = some v) {found : Option α}
    (hget : bs.get? name = found.map wrap) (kind : Kind) :
    bs.find name kind view = .ok found := by
  cases found with
  | none => simp [find, hget]
  | some v => simp [find, hget, hview]

theorem require_ok {α : Type} (name : String) (found : Option α) :
    require name (.ok found) = found.elim (.error (.missing name)) .ok := by
  cases found with
  | none => rfl
  | some v => rfl

variable {s : Script} {options : Options} {schema : Schema σ} {params : List Param}
variable {p : Property} {bs : Bindings} {name : String}

theorem exists_read {α : Type} (view : Binding -> Option α) (wrap : α -> Binding) {kind : Kind}
    (hkind : p.kind = kind) (hview : forall v, view (wrap v) = some v)
    (hwrap : forall x b, Param.Gives s x kind b -> exists v, b = wrap v)
    (h : Param.Given s options schema params p (bs.get? name)) :
    exists found : Option α, Param.Given s options schema params p (found.map wrap) ∧
      require name (bs.find name kind view) = found.elim (.error (.missing name)) .ok ∧
      forall default, orElse default (bs.find name kind view) = .ok (found.getD default) := by
  have hfound : exists found : Option α, bs.get? name = found.map wrap := by
    generalize bs.get? name = b at h
    cases h with
    | nothing _ => exact ⟨none, rfl⟩
    | binding _ hgives =>
        rcases hwrap _ _ (hkind ▸ hgives) with ⟨v, rfl⟩
        exact ⟨some v, rfl⟩
  rcases hfound with ⟨found, hget⟩
  rw [find_eq_ok hview hget]
  exact ⟨found, hget ▸ h, require_ok name found, fun _ => rfl⟩

theorem readAs_of_given (h : Param.Given s options schema params p (bs.get? name)) :
    bs.ReadAs (Param.Given s options schema params p) name p.kind := by
  cases hkind : p.kind with
  | int =>
      apply exists_read (ofValue Value.asInt?) (fun v => .value (.int v)) hkind (fun _ => rfl) _ h
      intro x b hgives
      cases hgives with
      | int _ _ => exact ⟨_, rfl⟩
  | float =>
      apply exists_read (ofValue Value.asFloat?) (fun v => .value (.float v)) hkind
        (fun _ => rfl) _ h
      intro x b hgives
      cases hgives with
      | float _ _ => exact ⟨_, rfl⟩
  | text =>
      apply exists_read (ofValue Value.asText?) (fun v => .value (.text v)) hkind
        (fun _ => rfl) _ h
      intro x b hgives
      cases hgives with
      | text _ => exact ⟨_, rfl⟩
  | bool =>
      apply exists_read (ofValue Value.asBool?) (fun v => .value (.bool v)) hkind
        (fun _ => rfl) _ h
      intro x b hgives
      cases hgives with
      | bool _ _ => exact ⟨_, rfl⟩
  | state =>
      have hwrap : forall x b, Param.Gives s x .state b -> exists i, b = .state i := by
        intro x b hgives
        cases hgives with
        | state _ _ => exact ⟨_, rfl⟩
      rcases exists_read ofState .state hkind (fun _ => rfl) hwrap h with
        ⟨found, hfound, hrequired, _⟩
      exact ⟨found, hfound, hrequired⟩

end Bindings

/-!
## Lines that reach their schema
-/

/--
All parameters of the line are bound, so that it is up to the schema to build an action from the
bindings.
-/
structure ActionLine.Reaches (options : Options) (registry : Registry σ) (a : ActionLine)
    (schema : Schema σ) (bs : Bindings) : Prop where
  found : registry.find? a.name = some schema
  bound : a.bindParams options schema {} a.params = .ok bs

theorem ActionLine.Reaches.build_eq {options : Options} {registry : Registry σ} {a : ActionLine}
    {schema : Schema σ} {bs : Bindings} (h : a.Reaches options registry schema bs) :
    a.build options registry = (schema.build bs).mapError (.bindFailed a.line a.name) := by
  unfold build
  simp only [h.found, h.bound]
  cases schema.build bs with
  | error cause => rfl
  | ok action => rfl

/--
A line of a resolved script that reaches its schema hands over bindings that fit the line, and
every property of the schema is read from them by the accessors of its kind, in letters of either
case: what the last parameter for it gives, or nothing if there is none.
-/
theorem bindings_fit_schema {options : Options} {registry : Registry σ}
    (hregistry : registry.IsDeclared) {script resolved : Script} {told : Nat}
    {previous table : NameTable}
    (hresolve : script.resolve previous = (.ok (resolved, told), table)) {a : ActionLine}
    (ha : a = resolved.action ∨ a ∈ resolved.actions) {schema : Schema σ} {bs : Bindings}
    (hreach : a.Reaches options registry schema bs) :
    a.build options registry = (schema.build bs).mapError (.bindFailed a.line a.name) ∧
      bs.FitLine resolved options schema a.params ∧
      forall p, p ∈ schema.properties -> forall name, Text.sameName name p.name = true ->
        bs.ReadAs (Param.Given resolved options schema a.params p) name p.kind := by
  have hschema : schema.IsWellNamed :=
    (hregistry schema (Registry.mem_schemas_of_find? hreach.found)).isWellNamed
  have hparams : forall x, x ∈ a.params -> x.IsResolved resolved :=
    fun x hx => Script.isResolved_of_resolve hresolve ha hx
  have hgiven : forall p, p ∈ schema.properties ->
      Param.Given resolved options schema a.params p (bs.get? p.name) :=
    fun p hp => ActionLine.given_of_bindParams hschema hparams hreach.bound hp
  have hempty : ({} : Bindings).AreOf schema := ⟨List.nodup_nil, fun _ _ hmem => by cases hmem⟩
  have hof := ActionLine.areOf_of_bindParams hschema hreach.bound hempty
  refine ⟨hreach.build_eq, hof.fitLine hschema hgiven, ?_⟩
  intro p hp name hname
  apply Bindings.readAs_of_given
  rw [Bindings.get?_congr hname]
  exact hgiven p hp

def Schema.walk : Schema Unit :=
  Schema.withDefault (Schema.withProperty
    { name := "walk", build := fun bs => (bs.int "steps").map fun _ => Activity.done .done }
    "to" .state) "steps" .int

def Script.walk (target : Option Nat) : Script where
  line := 1
  name := "m"
  action := {
    line := 1
    name := "walk"
    message := none
    params := [
      ⟨1, "$default", .assign, "3", none⟩,
      ⟨1, "to", .transition, "b", target⟩,
      ⟨1, "steps", .assign, "7", none⟩] }
  states := [{ line := 2, name := "a" }, { line := 3, name := "b" }]

theorem bindings_fit_schema_walk :
    exists (builtins registry : Registry Unit) (bs : Bindings),
      Registry.builtins Unit {} = .ok builtins ∧
        builtins.registerAll [Schema.walk] = (.ok (), registry) ∧
        (Script.walk none).resolve {} =
          (.ok (Script.walk (some 1), 1), ⟨[("a", 0), ("b", 1)]⟩) ∧
        (Script.walk (some 1)).action.Reaches {} registry Schema.walk bs ∧
        bs.entries = [("steps", .value (.int 7)), ("to", .state 1)] ∧
        bs.FitLine (Script.walk (some 1)) {} Schema.walk (Script.walk (some 1)).action.params ∧
        bs.ReadAs (Param.Given (Script.walk (some 1)) {} Schema.walk
          (Script.walk (some 1)).action.params ⟨"steps", .int⟩) "STEPS" .int := by
  have heval : ((Registry.builtins Unit {}).toOption.map fun r =>
      (r.registerAll [Schema.walk]).1.isOk) = some true := by
    decide +kernel
  rcases exists_of_toOption_map_eq_some heval with ⟨builtins, hbuiltins, hok⟩
  rcases hregistry : builtins.registerAll [Schema.walk] with ⟨e | _, registry⟩
  · rw [hregistry] at hok
    cases hok
  have hdeclared : registry.IsDeclared := by
    apply (Registry.isDeclared_builtins hbuiltins).registerAll _ hregistry
    intro s hs
    cases List.mem_singleton.mp hs
    exact .withDefault (.withProperty (.bare _ _) "to" .state) "steps" .int
  have hresolve :
      (Script.walk none).resolve {} =
        (.ok (Script.walk (some 1), 1), ⟨[("a", 0), ("b", 1)]⟩) := by
    decide +kernel
  have hreach : (Script.walk (some 1)).action.Reaches {} registry Schema.walk
      ⟨[("steps", .value (.int 7)), ("to", .state 1)]⟩ := by
    constructor
    · have hcalled : Schema.walk.isCalled "walk" = true := by decide +kernel
      apply ((Registry.isConsistent_builtins hbuiltins).registerAll
        hregistry).find?_eq_some_iff.mpr
      rw [Registry.schemas_of_registerAll hregistry]
      exact ⟨List.mem_append_right _ (List.mem_singleton_self _), hcalled⟩
    · decide +kernel
  have hname : Text.sameName "STEPS" "steps" = true := by
    rw [Text.sameName_iff, ← String.toList_inj, Text.toList_foldCase, Text.toList_foldCase]
    decide
  have hfit := bindings_fit_schema hdeclared hresolve (Or.inl rfl) hreach
  exact ⟨builtins, registry, _, hbuiltins, hregistry, hresolve, hreach, rfl, hfit.2.1,
    hfit.2.2 ⟨"steps", .int⟩ (by decide +kernel) "STEPS" hname⟩

end BehaviorScript
