import BehaviorScript.Proofs.Declaration
import Mathlib.Data.List.Induction

/-!
# What is left of the declarations of a schema

A host declares the properties of an action one at a time, and may declare one again, in letters
of either case, with another kind or as the default.  Whatever the order, the schema has one entry
for each name, at the place of its first declaration and with the kind of its last one.  The
default is kept as a place among the properties.  Later declarations replace properties at their
places or add others behind them, so the place stays that of the name it was declared for.
-/

namespace BehaviorScript

variable {σ : Type}

/-!
## Rows of declarations
-/

namespace Schema

structure Declaration where
  name : String
  kind : Kind
  isDefault : Bool
  deriving DecidableEq, Repr

def declare (s : Schema σ) (d : Declaration) : Schema σ :=
  if d.isDefault then s.withDefault d.name d.kind else s.withProperty d.name d.kind

def declareAll (s : Schema σ) (ds : List Declaration) : Schema σ :=
  ds.foldl declare s

namespace Declaration

def key (d : Declaration) : String :=
  Text.foldCase d.name

def keys (ds : List Declaration) : List String :=
  (ds.map key).eraseDups

def lastKind? (ds : List Declaration) (key : String) : Option Kind :=
  (ds.reverse.find? fun d => d.key == key).map Declaration.kind

/--
The name that was last declared as the default.
-/
def lastDefault? (ds : List Declaration) : Option String :=
  (ds.reverse.find? Declaration.isDefault).map key

variable (ds : List Declaration) (d : Declaration)

theorem keys_concat : keys (ds ++ [d]) = appendNew d.key (keys ds) := by
  rw [keys, List.map_append, List.eraseDups_append, List.map_singleton, List.removeAll]
  by_cases hmem : d.key ∈ ds.map key
  · have hold : d.key ∈ keys ds := List.mem_eraseDups.mpr hmem
    rw [appendNew, if_pos hold, List.filter_cons_of_neg (by simpa using hmem), List.filter_nil,
      List.eraseDups_nil, List.append_nil]
    rfl
  · have hnew : d.key ∉ keys ds := fun hold => hmem (List.mem_eraseDups.mp hold)
    rw [appendNew, if_neg hnew, List.filter_cons_of_pos (by simpa using hmem), List.filter_nil]
    rfl

theorem lastKind?_concat (k : String) :
    lastKind? (ds ++ [d]) k = if d.key = k then some d.kind else lastKind? ds k := by
  by_cases hkey : d.key = k
  · simp [lastKind?, hkey]
  · simp [lastKind?, hkey]

theorem lastDefault?_concat :
    lastDefault? (ds ++ [d]) = if d.isDefault then some d.key else lastDefault? ds := by
  cases hdefault : d.isDefault with
  | true => simp [lastDefault?, hdefault]
  | false => simp [lastDefault?, hdefault]

theorem keys_append_prefix (more : List Declaration) : keys ds <+: keys (ds ++ more) := by
  rw [keys, keys, List.map_append, List.eraseDups_append]
  exact List.prefix_append _ _

variable {ds}

theorem lastDefault?_eq_none_iff :
    lastDefault? ds = none <-> forall d, d ∈ ds -> d.isDefault = false := by
  simp [lastDefault?]

theorem lastDefault?_append {more : List Declaration}
    (hmore : forall e, e ∈ more -> e.isDefault = false) :
    lastDefault? (ds ++ more) = lastDefault? ds := by
  have hnone : more.reverse.find? Declaration.isDefault = none := by simpa using hmore
  rw [lastDefault?, List.reverse_append, List.find?_append, hnone]
  rfl

end Declaration

/-!
## One declaration
-/

open Declaration (keys lastKind? lastDefault?)

theorem find?_putProperty (p : Property) (ps : List Property) (k : String) :
    (putProperty p ps).find? (fun q => q.name == k) =
      if p.name = k then some p else ps.find? fun q => q.name == k := by
  induction ps with
  | nil =>
      by_cases hk : p.name = k
      · simp [putProperty, hk]
      · simp [putProperty, hk]
  | cons q rest ih =>
      rw [putProperty]
      by_cases hname : q.name = p.name
      · -- the entry is replaced by one of the same name, so no other name finds it
        rw [if_pos hname]
        by_cases hk : p.name = k
        · rw [if_pos hk, List.find?_cons_of_pos (by simpa using hk)]
        · have hq : q.name ≠ k := fun hq => hk (hname.symm.trans hq)
          rw [if_neg hk, List.find?_cons_of_neg (by simpa using hk),
            List.find?_cons_of_neg (by simpa using hq)]
      · rw [if_neg hname]
        by_cases hq : q.name = k
        · have hk : p.name ≠ k := fun hk => hname (hq.trans hk.symm)
          rw [if_neg hk, List.find?_cons_of_pos (by simpa using hq),
            List.find?_cons_of_pos (by simpa using hq)]
        · rw [List.find?_cons_of_neg (by simpa using hq),
            List.find?_cons_of_neg (by simpa using hq), ih]

theorem properties_declare (s : Schema σ) (d : Declaration) :
    (s.declare d).properties = putProperty ⟨d.key, d.kind⟩ s.properties := by
  rw [declare, ← pushProperty_snd]
  split
  · rfl
  · rfl

theorem defaultIndex_declare (s : Schema σ) (d : Declaration) :
    (s.declare d).defaultIndex =
      if d.isDefault then some (pushProperty ⟨d.key, d.kind⟩ s.properties).1
      else s.defaultIndex := by
  rw [declare]
  split
  · rfl
  · rfl

/-!
## Many declarations
-/

section Rows

variable (s : Schema σ) (ds : List Declaration)

theorem declareAll_concat (d : Declaration) :
    s.declareAll (ds ++ [d]) = (s.declareAll ds).declare d := by
  rw [declareAll, List.foldl_append]
  rfl

theorem isDeclared_declareAll (h : s.IsDeclared) : (s.declareAll ds).IsDeclared := by
  induction ds using List.reverseRecOn with
  | nil => exact h
  | append_singleton ds d ih =>
      rw [declareAll_concat, declare]
      split
      · exact ih.withDefault d.name d.kind
      · exact ih.withProperty d.name d.kind

theorem names_declareAll (h : s.properties = []) :
    (s.declareAll ds).properties.map Property.name = keys ds := by
  induction ds using List.reverseRecOn with
  | nil =>
      show s.properties.map Property.name = []
      rw [h, List.map_nil]
  | append_singleton ds d ih =>
      rw [declareAll_concat, properties_declare, names_putProperty, ih, Declaration.keys_concat]

theorem find?_declareAll (h : s.properties = []) (k : String) :
    (s.declareAll ds).properties.find? (fun p => p.name == k) =
      (lastKind? ds k).map (Property.mk k) := by
  induction ds using List.reverseRecOn with
  | nil =>
      show s.properties.find? _ = none
      rw [h, List.find?_nil]
  | append_singleton ds d ih =>
      rw [declareAll_concat, properties_declare, find?_putProperty, ih,
        Declaration.lastKind?_concat]
      by_cases hk : d.key = k
      · rw [if_pos hk, if_pos hk, hk]
        rfl
      · rw [if_neg hk, if_neg hk]

theorem defaultIndex_of_append {more : List Declaration}
    (hmore : forall e, e ∈ more -> e.isDefault = false) :
    (s.declareAll (ds ++ more)).defaultIndex = (s.declareAll ds).defaultIndex := by
  induction more using List.reverseRecOn with
  | nil => rw [List.append_nil]
  | append_singleton more d ih =>
      have hd : d.isDefault = false := hmore d (List.mem_append_right _ (List.mem_singleton_self d))
      rw [← List.append_assoc, declareAll_concat, defaultIndex_declare, hd]
      exact ih fun e he => hmore e (List.mem_append_left _ he)

end Rows

def bare (name : String) (build : Bindings -> Except BindError (Action σ)) : Schema σ :=
  { name := name, build := build }

section Bare

variable (name : String) (build : Bindings -> Except BindError (Action σ)) {ds : List Declaration}

theorem mem_declareAll_iff {p : Property} :
    p ∈ ((bare name build).declareAll ds).properties <-> lastKind? ds p.name = some p.kind := by
  have hnamed := (isDeclared_declareAll _ ds (IsDeclared.bare name build)).isWellNamed
  have hfind := find?_declareAll (bare name build) ds rfl p.name
  constructor
  · intro hp
    have hself : ((bare name build).declareAll ds).property? p.name = some p :=
      hnamed.property?_eq_some_iff.mpr ⟨hp, Text.sameName_iff.mpr rfl⟩
    rw [property?, hnamed.folded p hp] at hself
    rw [hself] at hfind
    rcases Option.map_eq_some_iff.mp hfind.symm with ⟨kind, hkind, heq⟩
    rw [hkind, ← heq]
  · intro hkind
    rw [hkind] at hfind
    exact List.mem_of_find?_eq_some hfind

theorem defaultIndex_declareAll (ds : List Declaration) :
    Option.Rel (fun k i => (keys ds)[i]? = some k) (lastDefault? ds)
      ((bare name build).declareAll ds).defaultIndex := by
  induction ds using List.reverseRecOn with
  | nil => exact Option.Rel.none
  | append_singleton ds d ih =>
      rw [Declaration.lastDefault?_concat, declareAll_concat, defaultIndex_declare]
      cases hdefault : d.isDefault with
      | true =>
          -- the name is at the place that was told for it
          have hplace := getElem?_pushProperty ⟨d.key, d.kind⟩
            ((bare name build).declareAll ds).properties
          apply Option.Rel.some
          rw [← names_declareAll (bare name build) _ rfl, declareAll_concat, properties_declare,
            ← pushProperty_snd, List.getElem?_map, hplace]
          rfl
      | false =>
          -- the names are only ever extended, so what is kept stays right
          rw [if_neg Bool.false_ne_true, if_neg Bool.false_ne_true]
          generalize lastDefault? ds = last at ih
          generalize ((bare name build).declareAll ds).defaultIndex = place at ih
          cases ih with
          | none => exact Option.Rel.none
          | some hold =>
              apply Option.Rel.some
              rcases Declaration.keys_append_prefix ds [d] with ⟨added, hadded⟩
              rw [← hadded, List.getElem?_append_left (List.getElem?_eq_some_iff.mp hold).1]
              exact hold

theorem default?_declareAll_of_last {k : String} (h : lastDefault? ds = some k) :
    exists (i : Nat) (p : Property), ((bare name build).declareAll ds).defaultIndex = some i ∧
      ((bare name build).declareAll ds).properties[i]? = some p ∧
      ((bare name build).declareAll ds).default? = some p ∧ p.name = k ∧
      lastKind? ds k = some p.kind := by
  have hrel := defaultIndex_declareAll name build ds
  rw [h] at hrel
  generalize hindex : ((bare name build).declareAll ds).defaultIndex = place at hrel
  cases hrel with
  | @some _ i hi =>
      rw [← names_declareAll (bare name build) ds rfl, List.getElem?_map] at hi
      rcases Option.map_eq_some_iff.mp hi with ⟨p, hp, rfl⟩
      refine ⟨i, p, rfl, hp, ?_, rfl, ?_⟩
      · rw [default?, hindex]
        exact hp
      · exact (mem_declareAll_iff name build).mp (List.mem_of_getElem? hp)

theorem default?_declareAll_eq_none_iff :
    ((bare name build).declareAll ds).default? = none <->
      forall d, d ∈ ds -> d.isDefault = false := by
  rw [← Declaration.lastDefault?_eq_none_iff]
  constructor
  · intro hnone
    cases hlast : lastDefault? ds with
    | none => rfl
    | some k =>
        rcases default?_declareAll_of_last name build hlast with ⟨_, p, _, _, hp, _⟩
        rw [hp] at hnone
        cases hnone
  · intro hlast
    have hrel := defaultIndex_declareAll name build ds
    rw [hlast] at hrel
    generalize hindex : ((bare name build).declareAll ds).defaultIndex = place at hrel
    cases hrel with
    | none => rw [default?, hindex, Option.bind_none]

end Bare
end Schema

/--
Whatever is declared of an action and in which order, its schema has each name once, in small
letters, where it was first declared and with the kind that was declared last, and a name finds
the entry that it spells in letters of either case.  There is no default as long as none was
declared.  Otherwise the place that is kept for the default is the one that was told when it was
last declared, and what is found there is the entry of that name, with the kind of the last
declaration of the name.
-/
theorem declarations_keep_one_entry (name : String)
    (build : Bindings -> Except BindError (Action σ)) (ds : List Schema.Declaration) :
    let s := (Schema.bare name build).declareAll ds
    s.properties.map Property.name = Schema.Declaration.keys ds ∧
      (forall p, p ∈ s.properties -> Schema.Declaration.lastKind? ds p.name = some p.kind) ∧
      (forall written p, s.property? written = some p <->
        p ∈ s.properties ∧ Text.sameName written p.name = true) ∧
      (s.default? = none <-> forall d, d ∈ ds -> d.isDefault = false) ∧
      (forall before d after, ds = before ++ d :: after -> d.isDefault = true ->
        (forall e, e ∈ after -> e.isDefault = false) ->
        let told := (Schema.pushProperty ⟨d.key, d.kind⟩
          ((Schema.bare name build).declareAll before).properties).1
        s.defaultIndex = some told ∧
          exists p, s.properties[told]? = some p ∧ s.default? = some p ∧ p.name = d.key ∧
            Schema.Declaration.lastKind? ds d.key = some p.kind) := by
  intro s
  have hnamed : s.IsWellNamed := (Schema.isDeclared_declareAll _ ds (.bare name build)).isWellNamed
  refine ⟨Schema.names_declareAll _ ds rfl, fun p => (Schema.mem_declareAll_iff name build).mp,
    fun written p => hnamed.property?_eq_some_iff,
    Schema.default?_declareAll_eq_none_iff name build, ?_⟩
  intro before d after hds hdefault hafter told
  subst hds
  have hlast : Schema.Declaration.lastDefault? (before ++ d :: after) = some d.key := by
    rw [List.append_cons, Schema.Declaration.lastDefault?_append hafter,
      Schema.Declaration.lastDefault?_concat, if_pos hdefault]
  have htold : s.defaultIndex = some told := by
    show ((Schema.bare name build).declareAll (before ++ d :: after)).defaultIndex = _
    rw [List.append_cons, Schema.defaultIndex_of_append _ _ hafter, Schema.declareAll_concat,
      Schema.defaultIndex_declare, if_pos hdefault]
  rcases Schema.default?_declareAll_of_last name build hlast with
    ⟨i, p, hi, hp, hfound, hname, hkind⟩
  have hplace : i = told := Option.some.inj (hi.symm.trans htold)
  rw [hplace] at hp
  exact ⟨htold, p, hp, hfound, hname, hkind⟩

/--
The second property is the default, and is declared again after another one, in other letters and
with another kind.
-/
theorem declarations_keep_one_entry_redeclared :
    let first : Schema.Declaration := ⟨"to", .state, false⟩
    let second : Schema.Declaration := ⟨"speed", .int, true⟩
    let third : Schema.Declaration := ⟨"by", .text, false⟩
    let again : Schema.Declaration := ⟨"Speed", .float, false⟩
    let s := (Schema.bare "walk" fun _ => .ok (Activity.done .done : Action Unit)).declareAll
      [first, second, third, again]
    s.properties.map Property.name = ["to", "speed", "by"] ∧
      s.defaultIndex = some 1 ∧ s.default? = some ⟨"speed", .float⟩ := by
  intro first second third again s
  rcases declarations_keep_one_entry "walk" (fun _ => .ok (Activity.done .done : Action Unit))
    [first, second, third, again] with ⟨hnames, _, _, _, hdefault⟩
  have hfirst : first.key = "to" := by decide +kernel
  have hsecond : second.key = "speed" := by decide +kernel
  have hthird : third.key = "by" := by decide +kernel
  have hagain : again.key = "speed" := by
    rw [Schema.Declaration.key, ← String.toList_inj, Text.toList_foldCase]
    decide
  have hkeys : Schema.Declaration.keys [first, second, third, again] = ["to", "speed", "by"] := by
    simp only [Schema.Declaration.keys, List.map_cons, List.map_nil, hfirst, hsecond, hthird,
      hagain]
    decide
  have hkind : Schema.Declaration.lastKind? [first, second, third, again] "speed" =
      some .float := by
    simp [Schema.Declaration.lastKind?, hagain, again]
  have hlater : forall e, e ∈ [third, again] -> e.isDefault = false := by simp [third, again]
  rcases hdefault [first] second [third, again] rfl rfl hlater with
    ⟨htold, p, _, hp, hname, hlast⟩
  have hone : (Schema.pushProperty ⟨second.key, second.kind⟩
      ((Schema.bare "walk" fun _ => .ok (Activity.done .done : Action Unit)).declareAll
        [first]).properties).1 = 1 := by
    decide +kernel
  rw [hone] at htold
  rw [hsecond] at hname hlast
  rw [hkind] at hlast
  refine ⟨hnames.trans hkeys, htold, ?_⟩
  rw [hp, ← hname, Option.some.inj hlast]

end BehaviorScript
