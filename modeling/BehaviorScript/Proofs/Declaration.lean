import BehaviorScript.Proofs.Basic
import BehaviorScript.Proofs.Builtins

/-!
# Declared schemas

A host declares a schema step by step: first a name and a way to build, then aliases and
properties, one at a time and in any order.  Whatever the steps, the names of the
properties end up in small letters and no two of them are equal, so a name in letters
of either case finds one property at most.
-/

namespace BehaviorScript

variable {σ : Type}

theorem Text.foldCase_foldCase (s : String) : foldCase (foldCase s) = foldCase s := by
  have hlower : Char.toLower ∘ Char.toLower = Char.toLower := by
    funext c
    unfold Function.comp Char.toLower
    grind
  rw [foldCase, foldCase, String.map_map, hlower]

/-!
## Steps of a declaration
-/

/--
The schemas that a host can declare.
-/
inductive Schema.IsDeclared : Schema σ -> Prop where
  | bare (name : String) (build : Bindings -> Except BindError (Action σ)) :
      IsDeclared { name := name, build := build }
  | withAlias {s : Schema σ} (h : s.IsDeclared) (name : String) :
      IsDeclared (s.withAlias name)
  | withProperty {s : Schema σ} (h : s.IsDeclared) (name : String) (kind : Kind) :
      IsDeclared (s.withProperty name kind)
  | withDefault {s : Schema σ} (h : s.IsDeclared) (name : String) (kind : Kind) :
      IsDeclared (s.withDefault name kind)

def Registry.IsDeclared (r : Registry σ) : Prop :=
  forall s, s ∈ r.schemas -> s.IsDeclared

theorem Registry.IsDeclared.registerAll {r r' : Registry σ} {schemas : List (Schema σ)}
    (hr : r.IsDeclared) (hschemas : forall s, s ∈ schemas -> s.IsDeclared)
    (h : r.registerAll schemas = (.ok (), r')) : r'.IsDeclared := by
  intro s hs
  rw [schemas_of_registerAll h] at hs
  rcases List.mem_append.mp hs with hold | hnew
  · exact hr s hold
  · exact hschemas s hnew

theorem Registry.isDeclared_builtins {options : Options} {r : Registry σ}
    (h : Registry.builtins σ options = .ok r) : r.IsDeclared := by
  intro s hs
  rw [schemas_of_builtins h] at hs
  simp only [Builtin.schemas, List.mem_cons, List.not_mem_nil, or_false] at hs
  rcases hs with rfl | rfl | rfl | rfl | rfl
  · exact .withDefault (.withAlias (.bare _ _) "goto") "target" .state
  · exact .bare _ _
  · exact .bare _ _
  · exact .bare _ _
  · exact .withDefault (.bare _ _) "message" .text

/-!
## Names of properties
-/

namespace Schema

structure IsWellNamed (s : Schema σ) : Prop where
  folded : forall p, p ∈ s.properties -> Text.foldCase p.name = p.name
  distinct : (s.properties.map Property.name).Nodup

def putProperty (p : Property) : List Property -> List Property
  | [] => [p]
  | q :: rest => if q.name = p.name then p :: rest else q :: putProperty p rest

theorem pushProperty_snd (p : Property) (ps : List Property) :
    (pushProperty p ps).2 = putProperty p ps := by
  induction ps with
  | nil => rfl
  | cons q rest ih =>
      unfold pushProperty at ih ⊢
      rw [List.findIdx?_cons, putProperty]
      by_cases hname : q.name = p.name
      · simp [hname]
      · have hne : (q.name == p.name) = false := beq_eq_false_iff_ne.mpr hname
        rw [if_neg hname, ← ih, hne]
        cases rest.findIdx? fun r => r.name == p.name with
        | none => rfl
        | some index => rfl

/--
The place that is told is where the property is.
-/
theorem getElem?_pushProperty (p : Property) (ps : List Property) :
    (pushProperty p ps).2[(pushProperty p ps).1]? = some p := by
  unfold pushProperty
  cases hfind : ps.findIdx? fun q => q.name == p.name with
  | none => simp
  | some index =>
      rcases List.findIdx?_eq_some_iff_getElem.mp hfind with ⟨hlt, _⟩
      simp [hlt]

theorem names_putProperty (p : Property) (ps : List Property) :
    (putProperty p ps).map Property.name = appendNew p.name (ps.map Property.name) := by
  induction ps with
  | nil => rfl
  | cons first rest ih =>
      rw [putProperty]
      split
      · next hname => rw [List.map_cons, List.map_cons, hname, appendNew_cons_self]
      · next hname => rw [List.map_cons, List.map_cons, ih, appendNew_cons_of_ne hname]

theorem names_withProperty (s : Schema σ) (name : String) (kind : Kind) :
    (s.withProperty name kind).properties.map Property.name =
      appendNew (Text.foldCase name) (s.properties.map Property.name) := by
  rw [Schema.withProperty, pushProperty_snd, names_putProperty]

theorem IsWellNamed.withProperty {s : Schema σ} (h : s.IsWellNamed) (name : String)
    (kind : Kind) : (s.withProperty name kind).IsWellNamed where
  folded := by
    intro p hp
    have hname : p.name ∈ (s.withProperty name kind).properties.map Property.name :=
      List.mem_map_of_mem hp
    rw [names_withProperty] at hname
    rcases mem_appendNew.mp hname with hold | hnew
    · rcases List.mem_map.mp hold with ⟨q, hq, hqname⟩
      rw [← hqname, h.folded q hq]
    · rw [hnew, Text.foldCase_foldCase]
  distinct := by
    rw [names_withProperty]
    exact nodup_appendNew h.distinct _

theorem IsDeclared.isWellNamed {s : Schema σ} (h : s.IsDeclared) : s.IsWellNamed := by
  induction h with
  | bare name build =>
      constructor
      · intro p hp
        cases hp
      · exact List.nodup_nil
  | withAlias _ name ih => exact ⟨ih.folded, ih.distinct⟩
  | withProperty _ name kind ih => exact ih.withProperty name kind
  | withDefault _ name kind ih =>
      have hproperty := ih.withProperty name kind
      exact ⟨hproperty.folded, hproperty.distinct⟩

/-!
## Finding a property
-/

theorem name_of_property?_eq_some {s : Schema σ} {name : String} {p : Property}
    (h : s.property? name = some p) : p.name = Text.foldCase name := by
  have hname := List.find?_some h
  exact eq_of_beq hname

theorem IsWellNamed.eq_of_name_eq {s : Schema σ} (h : s.IsWellNamed) {p q : Property}
    (hp : p ∈ s.properties) (hq : q ∈ s.properties) (hname : p.name = q.name) : p = q :=
  List.inj_on_of_nodup_map h.distinct hp hq hname

theorem IsWellNamed.property?_eq_some_iff {s : Schema σ} (h : s.IsWellNamed) {name : String}
    {p : Property} :
    s.property? name = some p <-> p ∈ s.properties ∧ Text.sameName name p.name = true := by
  constructor
  · intro hfind
    have hp := List.mem_of_find?_eq_some hfind
    refine ⟨hp, Text.sameName_iff.mpr ?_⟩
    rw [h.folded p hp, name_of_property?_eq_some hfind]
  · intro ⟨hp, hsame⟩
    have hname : p.name = Text.foldCase name := by
      rw [Text.sameName_iff.mp hsame, h.folded p hp]
    cases hfind : s.property? name with
    | none =>
        have hno := List.find?_eq_none.mp hfind p hp
        simp [hname] at hno
    | some q =>
        have hq := List.mem_of_find?_eq_some hfind
        rw [h.eq_of_name_eq hq hp ((name_of_property?_eq_some hfind).trans hname.symm)]

theorem mem_properties_of_default? {s : Schema σ} {p : Property} (h : s.default? = some p) :
    p ∈ s.properties := by
  rcases Option.bind_eq_some_iff.mp h with ⟨_, _, hp⟩
  exact List.mem_of_getElem? hp

end Schema
end BehaviorScript
