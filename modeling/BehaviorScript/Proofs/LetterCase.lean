import BehaviorScript.Proofs.Resemblance
import BehaviorScript.Proofs.SmallLetters

/-!
# Where the case of letters matters

Scripts that resemble each other are read alike, so the case of letters is ignored in the names of
actions, the targets of arrows and labels.  Everywhere else letters count.  The name that
parameters without a label go by is compared letter by letter, values are taken as they are, and the
machine repeats its name, the names of its states and the keys of its messages as they were
written.
-/

namespace BehaviorScript

variable {σ : Type} {options : Options}

/-!
## What the machine repeats
-/

/--
The machine repeats the names and the message keys of the script letter by letter.
-/
structure Machine.Spells (m : Machine σ) (s : Script) : Prop where
  name : m.name = s.name
  states : m.states.map State.name = s.states.map StateBlock.name
  keys : m.states.map (fun st => st.on.map Prod.fst) =
    s.states.map fun b => (Block.actionsOf b.on).map fun a => a.message.getD ""

theorem StateBlock.spelled_of_build {registry : Registry σ} {block : StateBlock} {st : State σ}
    (h : block.build options registry = .ok st) :
    block.name = st.name ∧
      ((Block.actionsOf block.on).map fun a => a.message.getD "") = st.on.map Prod.fst := by
  rcases bind_eq_ok h with ⟨enter, _, h⟩
  rcases bind_eq_ok h with ⟨exit, _, h⟩
  rcases bind_eq_ok h with ⟨run, _, h⟩
  rcases ActionLine.buildHandlers_eq_ok (fun _ hno => absurd hno List.not_mem_nil) h with
    ⟨new, rfl, hnew, _⟩
  exact ⟨rfl, map_eq_map_of_forall₂ (fun _ _ hx => hx.1.symm) hnew⟩

theorem Script.spells_of_build {registry : Registry σ} {s : Script} {m : Machine σ}
    (h : s.build options registry = .ok m) : m.Spells s := by
  rcases bind_eq_ok h with ⟨enter, _, h⟩
  rcases bind_eq_ok h with ⟨states, hstates, h⟩
  cases h
  have hspelled := (forall₂_of_mapM_eq_ok hstates).imp fun _ _ => StateBlock.spelled_of_build
  constructor
  · rfl
  · exact (map_eq_map_of_forall₂ (fun _ _ hs => hs.1) hspelled).symm
  · exact (map_eq_map_of_forall₂ (fun _ _ hs => hs.2) hspelled).symm

/-!
## Parameters that can be exchanged

What may be written for a parameter without any schema noticing is exactly what resembling allows.
-/

/--
What a line with no other parameter binds for a schema, if it can be resolved and bound.
-/
def Param.bindings? (options : Options) (table : NameTable) (schema : Schema σ) (x : Param) :
    Option Bindings :=
  (x.resolve table).toOption.bind fun (y, _) =>
    let line : ActionLine := { line := y.line, name := schema.name, message := none, params := [y] }
    (line.bindParams options schema {} line.params).toOption

def Schema.meant? (schema : Schema σ) (options : Options) (label : String) : Option Property :=
  if label = options.defaultParam then schema.default? else schema.property? label

def Param.binding? (table : NameTable) (p : Property) (x : Param) : Option Binding :=
  match x.op, p.kind.converter? with
  | .transition, none => (table.find? x.value).map fun i => .state i.toUInt64
  | .assign, some convert => (convert x.value).map .value
  | _, _ => none

theorem ActionLine.toOption_propertyFor (a : ActionLine) (schema : Schema σ) (x : Param) :
    (a.propertyFor options schema x).toOption = schema.meant? options x.name := by
  unfold propertyFor Schema.meant?
  split
  · cases schema.default? with
    | none => rfl
    | some p => rfl
  · cases schema.property? x.name with
    | none => rfl
    | some p => rfl

theorem toOption_bind {ε α β : Type} (x : Except ε α) (f : α -> Except ε β) :
    (x >>= f).toOption = x.toOption.bind fun a => (f a).toOption := by
  cases x with
  | error e => rfl
  | ok a => rfl

theorem ActionLine.toOption_bindingFor (a : ActionLine) (p : Property) {table : NameTable}
    {x y : Param} {count : Nat} (h : x.resolve table = .ok (y, count)) :
    (a.bindingFor p y).toOption = x.binding? table p := by
  unfold bindingFor Param.binding?
  rcases Param.resolve_cases h with ⟨hop, rfl⟩ | ⟨hop, i, hi, rfl⟩
  · rw [hop]
    cases p.kind.converter? with
    | none => rfl
    | some convert => cases hvalue : convert y.value <;> simp [hvalue, Except.toOption]
  · simp only [hop, hi]
    cases p.kind.converter? with
    | none => rfl
    | some convert => rfl

theorem Param.binding?_eq_none {table : NameTable} {x : Param} {e : CompileError}
    (h : x.resolve table = .error e) (p : Property) : x.binding? table p = none := by
  unfold resolve at h
  split at h
  · cases h
  · next hop =>
      cases hfind : table.find? x.value with
      | some i => simp [hfind] at h
      | none =>
          simp only [binding?, hop, hfind, Option.map_none]
          cases p.kind.converter? with
          | none => rfl
          | some convert => rfl

theorem Param.bindings?_eq (table : NameTable) (schema : Schema σ) (x : Param) :
    x.bindings? options table schema =
      (schema.meant? options x.name).bind fun p =>
        (x.binding? table p).map fun b => Bindings.bind {} p.name b := by
  unfold bindings?
  cases hresolve : x.resolve table with
  | error e =>
      simp only [binding?_eq_none hresolve, Option.map_none, Option.bind_fun_none]
      rfl
  | ok found =>
      rcases found with ⟨y, count⟩
      have hname : y.name = x.name := by
        rcases resolve_cases hresolve with ⟨_, rfl⟩ | ⟨_, _, _, rfl⟩
        · rfl
        · rfl
      have hsome : (Except.ok (y, count) : Except CompileError (Param × Nat)).toOption =
          some (y, count) := rfl
      simp only [hsome, Option.bind_some, ActionLine.bindParams_cons, toOption_bind,
        ActionLine.toOption_propertyFor, hname, ActionLine.toOption_bindingFor _ _ hresolve,
        Option.map_eq_bind]
      rfl

def Schema.single (p : Property) (isDefault : Bool) : Schema σ :=
  { name := "", properties := [p], defaultIndex := if isDefault then some 0 else none,
    build := fun _ => .error (.missing p.name) }

theorem Schema.meant?_single {p q : Property} {isDefault : Bool} {label : String} :
    (single p isDefault : Schema σ).meant? options label = some q <->
      (label = options.defaultParam ∧ isDefault = true ∨
        label ≠ options.defaultParam ∧ p.name = Text.foldCase label) ∧ p = q := by
  unfold meant?
  by_cases hreserved : label = options.defaultParam
  · cases isDefault with
    | true => simp [single, default?, hreserved]
    | false => simp [single, default?, hreserved]
  · simp [single, property?, hreserved, List.find?_singleton]

/--
Labels that can not be exchanged are told apart by a schema.
-/
theorem Schema.exists_meant? (σ : Type) (options : Options) (label label' : String) (kind : Kind) :
    exists (schema : Schema σ) (p : Property), p.kind = kind ∧
      schema.meant? options label = some p ∧
      forall q, schema.meant? options label' = some q ->
        options.SameLabel label label' ∧ p = q := by
  by_cases hreserved : label = options.defaultParam
  -- the only property has a name that the other label does not find
  · refine ⟨single ⟨Text.foldCase label' ++ "'", kind⟩ true, ⟨_, kind⟩, rfl,
      meant?_single.mpr ⟨Or.inl ⟨hreserved, rfl⟩, rfl⟩, ?_⟩
    intro q hq
    rcases meant?_single.mp hq with ⟨⟨hreserved', _⟩ | ⟨_, hname⟩, hp⟩
    · exact ⟨Or.inl (hreserved.trans hreserved'.symm), hp⟩
    · have hlength := congrArg String.length hname
      simp at hlength
  · refine ⟨single ⟨Text.foldCase label, kind⟩ false, ⟨_, kind⟩, rfl,
      meant?_single.mpr ⟨Or.inr ⟨hreserved, rfl⟩, rfl⟩, ?_⟩
    intro q hq
    rcases meant?_single.mp hq with ⟨⟨_, hno⟩ | ⟨hreserved', hname⟩, hp⟩
    · cases hno
    · exact ⟨Or.inr ⟨Text.sameName_iff.mpr hname, hreserved, hreserved'⟩, hp⟩

theorem Param.exists_binding? (x : Param) :
    exists (kind : Kind) (table : NameTable) (b : Binding), forall p : Property, p.kind = kind ->
      x.binding? table p = some b ∧
      forall y : Param, y.binding? table p = some b ->
        x.op = y.op ∧ x.op.SameLiteral x.value y.value := by
  cases hop : x.op with
  | assign =>
      refine ⟨.text, {}, .value (.text x.value), ?_⟩
      intro p hp
      constructor
      · simp [binding?, hop, hp, Kind.converter?]
      · intro y hy
        cases hop' : y.op with
        | assign =>
            simp [binding?, hop', hp, Kind.converter?] at hy
            exact ⟨rfl, Or.inl hy.symm⟩
        | transition => simp [binding?, hop', hp, Kind.converter?] at hy
  | transition =>
      refine ⟨.state, ⟨[(Text.foldCase x.value, 0)]⟩, .state 0, ?_⟩
      intro p hp
      constructor
      · simp [binding?, hop, hp, Kind.converter?, NameTable.find?]
      · intro y hy
        cases hop' : y.op with
        | assign => simp [binding?, hop', hp, Kind.converter?] at hy
        | transition =>
            simp [binding?, hop', hp, Kind.converter?, NameTable.find?, Table.lookup_cons] at hy
            exact ⟨rfl, Or.inr ⟨rfl, Text.sameName_iff.mpr hy.symm⟩⟩

theorem Param.bindings?_eq_iff (options : Options) (x y : Param) :
    (forall table (schema : Schema σ),
      x.bindings? options table schema = y.bindings? options table schema) <->
      x.op = y.op ∧ options.SameLabel x.name y.name ∧ x.op.SameLiteral x.value y.value := by
  constructor
  · intro h
    rcases x.exists_binding? with ⟨kind, table, b, hkind⟩
    rcases Schema.exists_meant? σ options x.name y.name kind with
      ⟨schema, p, hp, hmeant, honly⟩
    have hsame := h table schema
    rw [bindings?_eq, bindings?_eq, hmeant, Option.bind_some, (hkind p hp).1] at hsame
    rcases Option.bind_eq_some_iff.mp hsame.symm with ⟨q, hq, hbound⟩
    rcases honly q hq with ⟨hlabel, rfl⟩
    rcases Option.map_eq_some_iff.mp hbound with ⟨b', hb', heq⟩
    have hb : b' = b := by simpa [Bindings.bind, Table.put] using heq
    rcases (hkind p hp).2 y (hb ▸ hb') with ⟨hop, hliteral⟩
    exact ⟨hop, hlabel, hliteral⟩
  · rintro ⟨hop, hlabel, hliteral⟩ table schema
    have hmeant : schema.meant? options x.name = schema.meant? options y.name := by
      rcases hlabel with heq | ⟨hsame, hx, hy⟩
      · rw [heq]
      · rw [Schema.meant?, Schema.meant?, if_neg hx, if_neg hy,
          schema.property?_eq_of_sameName hsame]
    have hbinding (p : Property) : x.binding? table p = y.binding? table p := by
      unfold binding?
      rw [← hop, hliteral.find?_eq table]
      cases hassign : x.op with
      | assign =>
          rw [hassign] at hliteral
          rw [hliteral.eq_of_assign]
      | transition =>
          cases p.kind.converter? with
          | none => rfl
          | some convert => rfl
    simp only [bindings?_eq, hmeant, hbinding]

theorem Registry.find?_eq_iff (n n' : String) :
    (forall r : Registry σ, r.find? n = r.find? n') <-> Text.sameName n n' = true := by
  constructor
  · intro h
    let schema : Schema σ := { name := n, build := fun _ => .error (.missing n) }
    let r : Registry σ := ⟨[schema], [(Text.foldCase n, 0)]⟩
    have hfind : r.find? n = some schema := by simp [find?, r]
    rw [h] at hfind
    rcases Option.bind_eq_some_iff.mp hfind with ⟨i, hi, _⟩
    rw [Table.lookup_cons] at hi
    split at hi
    · next hkey => exact Text.sameName_iff.mpr hkey.symm
    · cases hi
  · intro h r
    exact r.find?_eq_of_sameName h

/-!
## All of it
-/

/--
The second script is resolved and built like the first: with the same numbers, into the same machine
out of the same bindings, or with an error of the same code on the same line.
-/
structure Script.IsReadLike (options : Options) (registry : Registry σ) (s s' : Script) : Prop where
  resolve : forall previous previous', EndsAlike
    (fun (r, count) (r', count') => r.Resembles options r' ∧ count = count' ∧
      r.params.map Param.resolved = r'.params.map Param.resolved)
    (s.resolve previous).1 (s'.resolve previous').1
  build : EndsAlike Eq (s.build options registry) (s'.build options registry)
  calls : (s.action :: s.actions).map (ActionLine.call? options registry) =
    (s'.action :: s'.actions).map (ActionLine.call? options registry)

/--
The case of letters is ignored in the names of actions, in the targets of arrows and in labels, and
only there.  Scripts that differ in nothing else are resolved and built alike.  The machine
repeats all other names as they are.  Two names call the same actions just when they differ only in
case.  Two parameters bind the same just when their operators and their labels are the same, but for
the case of labels other than the reserved name, and their values are, but for the case of
targets.  The scan of a source does not look at case, in keywords or anywhere else.
-/
theorem letter_case_is_ignored_in_names_only (options : Options) (registry : Registry σ) :
    (forall s s' : Script, s.Resembles options s' -> s.IsReadLike options registry s') ∧
      (forall (s : Script) (m : Machine σ), s.build options registry = .ok m -> m.Spells s) ∧
      (forall n n', (forall r : Registry σ, r.find? n = r.find? n') <->
        Text.sameName n n' = true) ∧
      (forall x y : Param, (forall table (schema : Schema σ),
        x.bindings? options table schema = y.bindings? options table schema) <->
          x.op = y.op ∧ options.SameLabel x.name y.name ∧ x.op.SameLiteral x.value y.value) ∧
      forall source source', Text.sameName source source' = true ->
        (scan source).foldCase = (scan source').foldCase := by
  refine ⟨?_, ?_, Registry.find?_eq_iff, Param.bindings?_eq_iff options, ?_⟩
  · intro s s' h
    exact {
      resolve := fun previous previous' =>
        (h.resolve previous previous').imp fun _ _ hr => ⟨hr.1, hr.2, hr.1.resolved_eq⟩
      build := h.build registry
      calls := map_eq_map_of_forall₂ (fun _ _ ha => ha.call?_eq registry) h.forall₂_lines }
  · intro s m h
    exact Script.spells_of_build h
  · intro source source' h
    rw [← scan_foldCase, ← scan_foldCase, Text.sameName_iff.mp h]

def Script.spelled (action target label : String) : Script where
  line := 1
  name := "m"
  action :=
    { line := 1, name := action, message := none,
      params := [{ line := 1, name := "$default", op := .transition, value := target,
                   resolved := some 0 }] }
  states :=
    [{ line := 2, name := "a",
       on := some ⟨3,
         [{ line := 4, name := "log", message := some "Hit",
            params := [{ line := 4, name := label, op := .assign, value := "Ow" }] }]⟩ }]

theorem letter_case_is_ignored_in_names_only_mixed :
    let small := Script.spelled "$trans" "a" "message"
    let mixed := Script.spelled "$Trans" "A" "meSSage"
    exists (r : Registry Unit) (m : Machine Unit),
      Registry.builtins Unit {} = .ok r ∧ small.build {} r = .ok m ∧
        small.Resembles {} mixed ∧ small.IsReadLike {} r mixed ∧
        m.Spells small ∧
        Text.sameName "@machine m->a" "@MacHine m->a" = true ∧
        (scan "@machine m->a").foldCase = (scan "@MacHine m->a").foldCase := by
  intro small mixed
  have heval : ((Registry.builtins Unit {}).toOption.map fun r =>
      (small.build {} r).toOption.map Machine.name) = some (some "m") := by
    decide +kernel
  rcases exists_of_toOption_map_eq_some heval with ⟨r, hr, hbuild⟩
  rcases exists_of_toOption_map_eq_some hbuild with ⟨m, hm, _⟩
  have hsame {a b : String} (h : a.toList.map Char.toLower = b.toList.map Char.toLower) :
      Text.sameName a b = true := by
    rw [Text.sameName_iff, ← String.toList_inj, Text.toList_foldCase, Text.toList_foldCase, h]
  have hresembles : small.Resembles {} mixed :=
    { line := rfl
      name := rfl
      action :=
        { line := rfl
          name := hsame (by decide)
          message := rfl
          params := .cons ⟨rfl, Or.inl rfl, rfl, Or.inr ⟨rfl, hsame (by decide)⟩, rfl⟩ .nil }
      states := .cons
        { line := rfl
          name := rfl
          enter := .none
          exit := .none
          run := .none
          on := .some ⟨rfl, .cons
            { line := rfl
              name := hsame rfl
              message := rfl
              params := .cons
                ⟨rfl, Or.inr ⟨hsame (by decide), by decide, by decide⟩, rfl, Or.inl rfl, rfl⟩ .nil }
            .nil⟩ }
        .nil }
  rcases letter_case_is_ignored_in_names_only {} r with ⟨hread, hspells, _, _, hscan⟩
  have htext : Text.sameName "@machine m->a" "@MacHine m->a" = true := hsame (by decide)
  exact ⟨r, m, hr, hm, hresembles, hread small mixed hresembles, hspells small m hm, htext,
    hscan _ _ htext⟩

end BehaviorScript
