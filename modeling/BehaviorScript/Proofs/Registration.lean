import BehaviorScript.Proofs.Basic
import BehaviorScript.Proofs.Reuse
import Mathlib.Data.List.Nodup

/-!
# Registries stay consistent

A registration is checked name by name, first against the form of names and then against the
names that are taken, and the first name that fails decides the error.  The table of a registry
leads from each key to the place of the schema that has it, and from no other key, whatever was
tried and refused before.  A registration overwrites entries of the table, and it is only because
repeated names are refused that no entry is ever overwritten.
-/

namespace BehaviorScript

variable {σ : Type}

/-!
## What a registration asks for
-/

def IsFirstOfName (c : Char) : Prop :=
  ('A' ≤ c ∧ c ≤ 'Z') ∨ ('a' ≤ c ∧ c ≤ 'z') ∨ c = '_' ∨ c = '$'

def IsLaterInName (c : Char) : Prop :=
  ('A' ≤ c ∧ c ≤ 'Z') ∨ ('a' ≤ c ∧ c ≤ 'z') ∨ ('0' ≤ c ∧ c ≤ '9') ∨ c = '_' ∨ c = '.' ∨
    c = '$' ∨ c = '-'

def IsNameOfAction (name : String) : Prop :=
  exists c cs, name.toList = c :: cs ∧ IsFirstOfName c ∧ forall d, d ∈ cs -> IsLaterInName d

namespace Registry

/--
The names have the right form, differ from each other and from the known names, and all of this
up to the case of letters.
-/
structure Accepts (known names : List String) : Prop where
  form : forall name, name ∈ names -> IsNameOfAction name
  distinct : names.Pairwise fun a b => Text.sameName a b = false
  new : forall name, name ∈ names -> forall k, k ∈ known -> Text.sameName k name = false

/--
The error is that of the first name that does not fit: the names before it do.  A name of the wrong
form is not looked up.
-/
inductive Refuses (known names : List String) : RegistryError -> Prop where
  | invalidName {before after : List String} {name : String} :
      names = before ++ name :: after ->
      Accepts known before ->
      ¬ IsNameOfAction name ->
      Refuses known names (.invalidName name)
  | duplicate {before after : List String} {name other : String} :
      names = before ++ name :: after ->
      Accepts known before ->
      IsNameOfAction name ->
      other ∈ known ++ before ->
      Text.sameName other name = true ->
      Refuses known names (.duplicate name)

def names (r : Registry σ) : List String :=
  r.schemas.flatMap Schema.names

/--
The registry after some calls, each of which may fail.
-/
def attemptAll (r : Registry σ) (tried : List (Schema σ)) : Registry σ :=
  tried.foldl (fun r s => (r.register s).2) r

/--
The table and the schemas agree: a key leads to a place just when the schema at that place has a
name or an alias with that key.
-/
def IsConsistent (r : Registry σ) : Prop :=
  forall key i, r.places.lookup key = some i <->
    exists s, r.schemas[i]? = some s ∧ key ∈ s.names.map Text.foldCase

end Registry

def Schema.isCalled (s : Schema σ) (name : String) : Bool :=
  s.names.any fun n => Text.sameName n name

/-!
## The form of names
-/

theorem isAlpha_iff (c : Char) :
    c.isAlpha = true <-> ('A' ≤ c ∧ c ≤ 'Z') ∨ ('a' ≤ c ∧ c ≤ 'z') := by
  have halpha : c.isAlpha = (c.isUpper || c.isLower) := rfl
  have hupper : c.isUpper = decide ('A' ≤ c ∧ c ≤ 'Z') := rfl
  have hlower : c.isLower = (decide ('a' ≤ c) && decide (c ≤ 'z')) := rfl
  simp only [halpha, hupper, hlower, Bool.or_eq_true, Bool.and_eq_true, decide_eq_true_eq]

theorem isFirstOfName_iff (c : Char) :
    (c.isAlpha || c == '_' || c == '$') = true <-> IsFirstOfName c := by
  simp only [IsFirstOfName, Bool.or_eq_true, isAlpha_iff, beq_iff_eq, or_assoc]

theorem isLaterInName_iff (c : Char) :
    (c.isAlphanum || c == '_' || c == '.' || c == '$' || c == '-') = true <->
      IsLaterInName c := by
  have halphanum : c.isAlphanum = (c.isAlpha || c.isDigit) := rfl
  have hdigit : c.isDigit = (decide ('0' ≤ c) && decide (c ≤ '9')) := rfl
  simp only [IsLaterInName, halphanum, hdigit, isAlpha_iff, Bool.or_eq_true, Bool.and_eq_true,
    decide_eq_true_eq, beq_iff_eq, or_assoc]

theorem isActionName_iff (name : String) : isActionName name = true <-> IsNameOfAction name := by
  unfold isActionName IsNameOfAction
  cases name.toList with
  | nil => simp
  | cons c cs =>
      rw [Bool.and_eq_true, isFirstOfName_iff, List.all_eq_true]
      constructor
      · intro h
        rcases h with ⟨hfirst, hlater⟩
        exact ⟨c, cs, rfl, hfirst, fun d hd => (isLaterInName_iff d).mp (hlater d hd)⟩
      · intro h
        rcases h with ⟨c', cs', heq, hfirst, hlater⟩
        cases heq
        exact ⟨hfirst, fun d hd => (isLaterInName_iff d).mpr (hlater d hd)⟩

/-!
## Names that are accepted
-/

namespace Registry

theorem foldCase_mem_map_iff {known : List String} {name : String} :
    Text.foldCase name ∈ known.map Text.foldCase <->
      exists k, k ∈ known ∧ Text.sameName k name = true := by
  simp [Text.sameName_iff]

theorem not_new_of_taken {known : List String} {name : String}
    (h : exists k, k ∈ known ∧ Text.sameName k name = true) :
    ¬ forall k, k ∈ known -> Text.sameName k name = false := by
  intro hnew
  rcases h with ⟨k, hk, hsame⟩
  rw [hnew k hk] at hsame
  cases hsame

theorem accepts_nil (known : List String) : Accepts known [] :=
  ⟨by simp, List.Pairwise.nil, by simp⟩

theorem accepts_cons {known rest : List String} {name : String} :
    Accepts known (name :: rest) <->
      IsNameOfAction name ∧ (forall k, k ∈ known -> Text.sameName k name = false) ∧
        Accepts (name :: known) rest := by
  constructor
  · intro h
    rcases h with ⟨hform, hdistinct, hnew⟩
    rcases List.pairwise_cons.mp hdistinct with ⟨hname, hrest⟩
    refine ⟨hform name List.mem_cons_self, hnew name List.mem_cons_self, ?_, hrest, ?_⟩
    · intro other hother
      exact hform other (List.mem_cons_of_mem _ hother)
    · intro other hother k hk
      rcases List.mem_cons.mp hk with rfl | hk
      · exact hname other hother
      · exact hnew other (List.mem_cons_of_mem _ hother) k hk
  · intro h
    rcases h with ⟨hform, hname, hrest⟩
    constructor
    · intro other hother
      rcases List.mem_cons.mp hother with rfl | hother
      · exact hform
      · exact hrest.form other hother
    · apply List.pairwise_cons.mpr
      exact ⟨fun other hother => hrest.new other hother name List.mem_cons_self, hrest.distinct⟩
    · intro other hother k hk
      rcases List.mem_cons.mp hother with rfl | hother
      · exact hname k hk
      · exact hrest.new other hother k (List.mem_cons_of_mem _ hk)

theorem refuses_cons {known rest : List String} {name : String} {e : RegistryError} :
    Refuses known (name :: rest) e <->
      (¬ IsNameOfAction name ∧ e = .invalidName name) ∨
      (IsNameOfAction name ∧ (exists k, k ∈ known ∧ Text.sameName k name = true) ∧
        e = .duplicate name) ∨
      (IsNameOfAction name ∧ (forall k, k ∈ known -> Text.sameName k name = false) ∧
        Refuses (name :: known) rest e) := by
  constructor
  · intro h
    rcases h with ⟨heq, hbefore, hbad⟩ | ⟨heq, hbefore, hgood, hmem, hsame⟩
    · rcases List.cons_eq_append_iff.mp heq with ⟨rfl, hhead⟩ | ⟨before, rfl, hrest⟩
      · cases hhead
        exact Or.inl ⟨hbad, rfl⟩
      · rcases accepts_cons.mp hbefore with ⟨hform, hnew, hbefore⟩
        exact Or.inr (Or.inr ⟨hform, hnew, Refuses.invalidName hrest hbefore hbad⟩)
    · rcases List.cons_eq_append_iff.mp heq with ⟨rfl, hhead⟩ | ⟨before, rfl, hrest⟩
      · cases hhead
        rw [List.append_nil] at hmem
        exact Or.inr (Or.inl ⟨hgood, ⟨_, hmem, hsame⟩, rfl⟩)
      · rcases accepts_cons.mp hbefore with ⟨hform, hnew, hbefore⟩
        have hmem : _ ∈ (name :: known) ++ before := List.perm_middle.mem_iff.mp hmem
        exact Or.inr (Or.inr ⟨hform, hnew, Refuses.duplicate hrest hbefore hgood hmem hsame⟩)
  · have hfirst : name :: rest = [] ++ name :: rest := rfl
    intro h
    rcases h with ⟨hbad, rfl⟩ | ⟨hform, ⟨k, hk, hsame⟩, rfl⟩ | ⟨hform, hnew, hrest⟩
    · exact Refuses.invalidName hfirst (accepts_nil known) hbad
    · have hmem : k ∈ known ++ [] := List.mem_append_left _ hk
      exact Refuses.duplicate hfirst (accepts_nil known) hform hmem hsame
    · cases hrest with
      | invalidName heq hbefore hbad =>
          have hbefore := accepts_cons.mpr ⟨hform, hnew, hbefore⟩
          exact Refuses.invalidName (congrArg (List.cons name) heq) hbefore hbad
      | duplicate heq hbefore hgood hmem hsame =>
          have hbefore := accepts_cons.mpr ⟨hform, hnew, hbefore⟩
          have hmem := List.perm_middle.mem_iff.mpr hmem
          exact Refuses.duplicate (congrArg (List.cons name) heq) hbefore hgood hmem hsame

theorem accepts_or_refuses (known names : List String) :
    Accepts known names ∨ exists e, Refuses known names e := by
  induction names generalizing known with
  | nil => exact Or.inl (accepts_nil known)
  | cons name rest ih =>
      simp only [accepts_cons, refuses_cons]
      by_cases hform : IsNameOfAction name
      · by_cases htaken : exists k, k ∈ known ∧ Text.sameName k name = true
        · exact Or.inr ⟨_, Or.inr (Or.inl ⟨hform, htaken, rfl⟩)⟩
        · have hnew : forall k, k ∈ known -> Text.sameName k name = false :=
            fun k hk => Bool.eq_false_iff.mpr fun hsame => htaken ⟨k, hk, hsame⟩
          rcases ih (name :: known) with haccepts | ⟨e, hrefuses⟩
          · exact Or.inl ⟨hform, hnew, haccepts⟩
          · exact Or.inr ⟨e, Or.inr (Or.inr ⟨hform, hnew, hrefuses⟩)⟩
      · exact Or.inr ⟨_, Or.inl ⟨hform, rfl⟩⟩

/-!
## One call

A call that fails may leave behind what it has changed by then.  The names are checked while
nothing is changed, so nothing is left behind.
-/

namespace Call

variable {α β : Type} {r : Registry σ} {keys names : List String}

theorem run_bind_ok {x : Call σ α} {f : α -> Call σ β} {r r' : Registry σ} {a : α}
    (h : x.run r = (.ok a, r')) : (x >>= f).run r = (f a).run r' := by
  rw [ExceptT.run_bind]
  show StateT.bind x.run _ r = _
  rw [StateT.bind, h]
  rfl

theorem run_bind_error {x : Call σ α} {f : α -> Call σ β} {r r' : Registry σ}
    {e : RegistryError} (h : x.run r = (.error e, r')) : (x >>= f).run r = (.error e, r') := by
  rw [ExceptT.run_bind]
  show StateT.bind x.run _ r = _
  rw [StateT.bind, h]
  rfl

def IsTaken (r : Registry σ) (keys : List String) (key : String) : Prop :=
  (r.places.lookup key).isSome = true ∨ key ∈ keys

theorem run_newKey (r : Registry σ) (keys : List String) (name : String) :
    (¬ IsNameOfAction name ∧ (newKey keys name).run r = (.error (.invalidName name), r)) ∨
    (IsNameOfAction name ∧ IsTaken r keys (Text.foldCase name) ∧
      (newKey keys name).run r = (.error (.duplicate name), r)) ∨
    (IsNameOfAction name ∧ ¬ IsTaken r keys (Text.foldCase name) ∧
      (newKey keys name).run r = (.ok (Text.foldCase name), r)) := by
  have htaken : ((r.places.lookup (Text.foldCase name)).isSome ||
      keys.contains (Text.foldCase name)) = true <-> IsTaken r keys (Text.foldCase name) := by
    simp [IsTaken]
  have hrun : (newKey keys name).run r =
      ((if isActionName name then
        if (r.places.lookup (Text.foldCase name)).isSome || keys.contains (Text.foldCase name) then
          throw (.duplicate name)
        else return Text.foldCase name
      else throw (.invalidName name)) : Call σ String).run r := rfl
  rw [hrun, ← isActionName_iff, ← htaken]
  split
  · next hform =>
      split
      · next hold => exact Or.inr (Or.inl ⟨hform, hold, rfl⟩)
      · next hnew => exact Or.inr (Or.inr ⟨hform, hnew, rfl⟩)
  · next hform => exact Or.inl ⟨hform, rfl⟩

theorem run_collectKeys (r : Registry σ) (keys names : List String) :
    (exists e, (collectKeys keys names).run r = (.error e, r)) ∨
      ((forall name, name ∈ names -> IsNameOfAction name) ∧
        (collectKeys keys names).run r = (.ok (keys ++ names.map Text.foldCase), r)) := by
  induction names generalizing keys with
  | nil => exact Or.inr ⟨by simp, by rw [List.map_nil, List.append_nil]; rfl⟩
  | cons name rest ih =>
      rw [collectKeys]
      rcases run_newKey r keys name with ⟨_, hrun⟩ | ⟨_, _, hrun⟩ | ⟨hform, _, hrun⟩
      · exact Or.inl ⟨_, run_bind_error hrun⟩
      · exact Or.inl ⟨_, run_bind_error hrun⟩
      · rw [run_bind_ok hrun]
        rcases ih (keys ++ [Text.foldCase name]) with ⟨e, herror⟩ | ⟨hforms, hok⟩
        · exact Or.inl ⟨e, herror⟩
        · refine Or.inr ⟨List.forall_mem_cons.mpr ⟨hform, hforms⟩, ?_⟩
          rw [List.map_cons, List.append_cons _ _ (rest.map Text.foldCase)]
          exact hok

section Known

variable {known : List String}

def Knows (r : Registry σ) (keys known : List String) : Prop :=
  forall key, IsTaken r keys key <-> key ∈ known.map Text.foldCase

theorem Knows.cons (h : Knows r keys known) (name : String) :
    Knows r (keys ++ [Text.foldCase name]) (name :: known) := by
  intro key
  have hkey := h key
  unfold IsTaken at hkey ⊢
  rw [List.map_cons, List.mem_cons, ← hkey, List.mem_append, List.mem_singleton]
  constructor
  · intro htaken
    rcases htaken with hold | hcollected | hnew
    · exact Or.inr (Or.inl hold)
    · exact Or.inr (Or.inr hcollected)
    · exact Or.inl hnew
  · intro htaken
    rcases htaken with hnew | hold | hcollected
    · exact Or.inr (Or.inr hnew)
    · exact Or.inl hold
    · exact Or.inr (Or.inl hcollected)

theorem Knows.isTaken_iff (h : Knows r keys known) (name : String) :
    IsTaken r keys (Text.foldCase name) <->
      exists k, k ∈ known ∧ Text.sameName k name = true := by
  rw [h, foldCase_mem_map_iff]

theorem run_collectKeys_of_accepts (hknown : Knows r keys known) (h : Accepts known names) :
    (collectKeys keys names).run r = (.ok (keys ++ names.map Text.foldCase), r) := by
  induction names generalizing keys known with
  | nil => rw [List.map_nil, List.append_nil]; rfl
  | cons name rest ih =>
      rcases accepts_cons.mp h with ⟨hform, hnew, hrest⟩
      rw [collectKeys]
      rcases run_newKey r keys name with ⟨hbad, _⟩ | ⟨_, htaken, _⟩ | ⟨_, _, hrun⟩
      · exact absurd hform hbad
      · exact absurd hnew (not_new_of_taken ((hknown.isTaken_iff name).mp htaken))
      · rw [run_bind_ok hrun, List.map_cons, List.append_cons _ _ (rest.map Text.foldCase)]
        exact ih (hknown.cons name) hrest

theorem run_collectKeys_of_refuses {e : RegistryError} (hknown : Knows r keys known)
    (h : Refuses known names e) : (collectKeys keys names).run r = (.error e, r) := by
  induction names generalizing keys known with
  | nil =>
      cases h with
      | invalidName heq => exact absurd heq (by simp)
      | duplicate heq => exact absurd heq (by simp)
  | cons name rest ih =>
      rw [collectKeys]
      rcases refuses_cons.mp h with ⟨hbad, rfl⟩ | ⟨hform, hold, rfl⟩ | ⟨hform, hnew, hrest⟩
      · rcases run_newKey r keys name with ⟨_, hrun⟩ | ⟨hform, _⟩ | ⟨hform, _⟩
        · exact run_bind_error hrun
        · exact absurd hform hbad
        · exact absurd hform hbad
      · rcases run_newKey r keys name with ⟨hbad, _⟩ | ⟨_, _, hrun⟩ | ⟨_, hfree, _⟩
        · exact absurd hform hbad
        · exact run_bind_error hrun
        · exact absurd ((hknown.isTaken_iff name).mpr hold) hfree
      · rcases run_newKey r keys name with ⟨hbad, _⟩ | ⟨_, htaken, _⟩ | ⟨_, _, hrun⟩
        · exact absurd hform hbad
        · exact absurd hnew (not_new_of_taken ((hknown.isTaken_iff name).mp htaken))
        · rw [run_bind_ok hrun]
          exact ih (hknown.cons name) hrest

end Known

end Call

def appended (r : Registry σ) (s : Schema σ) : Registry σ :=
  { schemas := r.schemas ++ [s]
    places := Table.putAll (s.names.map Text.foldCase) r.schemas.length r.places }

theorem names_appended (r : Registry σ) (s : Schema σ) :
    (r.appended s).names = r.names ++ s.names := by
  simp [names, appended]

/--
A call fails and changes nothing, or appends a schema whose names have the form of names.
-/
theorem register_cases (r : Registry σ) (s : Schema σ) :
    (exists e, r.register s = (.error e, r)) ∨
      ((forall name, name ∈ s.names -> IsNameOfAction name) ∧
        r.register s = (.ok (), r.appended s)) := by
  unfold register Call.register
  rcases Call.run_collectKeys r [] s.names with ⟨e, hrun⟩ | ⟨hforms, hrun⟩
  · exact Or.inl ⟨e, Call.run_bind_error hrun⟩
  · exact Or.inr ⟨hforms, Call.run_bind_ok hrun⟩

theorem register_eq_ok {r r' : Registry σ} {s : Schema σ} (h : r.register s = (.ok (), r')) :
    (forall name, name ∈ s.names -> IsNameOfAction name) ∧ r' = r.appended s := by
  rcases register_cases r s with ⟨e, herror⟩ | ⟨hforms, hok⟩
  · rw [herror] at h
    cases h
  · rw [hok] at h
    cases h
    exact ⟨hforms, rfl⟩

/-!
## The table and the schemas
-/

theorem isCalled_iff {s : Schema σ} {name : String} :
    s.isCalled name = true <-> Text.foldCase name ∈ s.names.map Text.foldCase := by
  rw [foldCase_mem_map_iff, Schema.isCalled, List.any_eq_true]

theorem isConsistent_empty : (empty : Registry σ).IsConsistent := by
  intro key i
  simp [empty]

namespace IsConsistent

variable {r r' : Registry σ} {s t : Schema σ}

theorem isSome_lookup_iff (h : r.IsConsistent) (key : String) :
    (r.places.lookup key).isSome = true <-> key ∈ r.names.map Text.foldCase := by
  rw [Option.isSome_iff_exists, names, List.map_flatMap, List.mem_flatMap]
  constructor
  · intro hfound
    rcases hfound with ⟨i, hi⟩
    rcases (h key i).mp hi with ⟨s, hs, hkey⟩
    exact ⟨s, List.mem_of_getElem? hs, hkey⟩
  · intro hfound
    rcases hfound with ⟨s, hs, hkey⟩
    rcases List.mem_iff_getElem?.mp hs with ⟨i, hi⟩
    exact ⟨i, (h key i).mpr ⟨s, hi, hkey⟩⟩

theorem knows (h : r.IsConsistent) : Call.Knows r [] r.names := by
  intro key
  rw [← h.isSome_lookup_iff]
  simp [Call.IsTaken]

theorem register_of_accepts (h : r.IsConsistent) (haccepts : Accepts r.names s.names) :
    r.register s = (.ok (), r.appended s) := by
  unfold register Call.register
  exact Call.run_bind_ok (Call.run_collectKeys_of_accepts h.knows haccepts)

theorem register_of_refuses (h : r.IsConsistent) {e : RegistryError}
    (hrefuses : Refuses r.names s.names e) : r.register s = (.error e, r) := by
  unfold register Call.register
  exact Call.run_bind_error (Call.run_collectKeys_of_refuses h.knows hrefuses)

theorem register_eq_ok_iff (h : r.IsConsistent) :
    (r.register s).1 = .ok () <-> Accepts r.names s.names := by
  rcases accepts_or_refuses r.names s.names with haccepts | ⟨e, hrefuses⟩
  · rw [h.register_of_accepts haccepts]
    exact ⟨fun _ => haccepts, fun _ => rfl⟩
  · have herror := h.register_of_refuses hrefuses
    constructor
    · intro hok
      rw [herror] at hok
      cases hok
    · intro haccepts
      rw [h.register_of_accepts haccepts]

theorem register_eq_error_iff (h : r.IsConsistent) {e : RegistryError} :
    (r.register s).1 = .error e <-> Refuses r.names s.names e := by
  constructor
  · intro herror
    rcases accepts_or_refuses r.names s.names with haccepts | ⟨e', hrefuses⟩
    · rw [h.register_of_accepts haccepts] at herror
      cases herror
    · rw [h.register_of_refuses hrefuses] at herror
      cases herror
      exact hrefuses
  · intro hrefuses
    rw [h.register_of_refuses hrefuses]

theorem lookup_of_accepts (h : r.IsConsistent) (haccepts : Accepts r.names s.names) {key : String}
    (hkey : key ∈ s.names.map Text.foldCase) : r.places.lookup key = none := by
  rw [← Option.not_isSome_iff_eq_none, h.isSome_lookup_iff]
  intro hold
  rcases List.mem_map.mp hkey with ⟨name, hname, rfl⟩
  exact not_new_of_taken (foldCase_mem_map_iff.mp hold) (haccepts.new name hname)

/--
The keys of the new schema lead to its place.  They led nowhere before, so every other key leads
where it did.
-/
theorem appended (h : r.IsConsistent) (haccepts : Accepts r.names s.names) :
    (r.appended s).IsConsistent := by
  intro key i
  show (Table.putAll _ _ r.places).lookup key = some i <-> _
  rw [Table.lookup_putAll]
  show _ <-> exists t, (r.schemas ++ [s])[i]? = some t ∧ _
  by_cases hkey : key ∈ s.names.map Text.foldCase
  · rw [if_pos hkey]
    constructor
    · intro hi
      cases hi
      exact ⟨s, by simp, hkey⟩
    · intro hfound
      rcases hfound with ⟨t, ht, htkey⟩
      rcases Nat.lt_or_ge i r.schemas.length with hlt | hge
      · rw [List.getElem?_append_left hlt] at ht
        have hold := (h key i).mpr ⟨t, ht, htkey⟩
        rw [h.lookup_of_accepts haccepts hkey] at hold
        cases hold
      · have hlast := (List.getElem?_eq_some_iff.mp ht).1
        rw [List.length_append, List.length_singleton] at hlast
        exact congrArg some (by omega)
  · rw [if_neg hkey, h key i]
    constructor
    · intro hfound
      rcases hfound with ⟨t, ht, htkey⟩
      exact ⟨t, by rw [List.getElem?_append_left (List.getElem?_eq_some_iff.mp ht).1, ht], htkey⟩
    · intro hfound
      rcases hfound with ⟨t, ht, htkey⟩
      rcases Nat.lt_or_ge i r.schemas.length with hlt | hge
      · rw [List.getElem?_append_left hlt] at ht
        exact ⟨t, ht, htkey⟩
      · rw [List.getElem?_append_right hge] at ht
        rw [List.mem_singleton.mp (List.mem_of_getElem? ht)] at htkey
        exact absurd htkey hkey

theorem register (h : r.IsConsistent) (s : Schema σ) : (r.register s).2.IsConsistent := by
  rcases accepts_or_refuses r.names s.names with haccepts | ⟨e, hrefuses⟩
  · rw [h.register_of_accepts haccepts]
    exact h.appended haccepts
  · rw [h.register_of_refuses hrefuses]
    exact h

theorem attemptAll (h : r.IsConsistent) (tried : List (Schema σ)) :
    (r.attemptAll tried).IsConsistent := by
  induction tried generalizing r with
  | nil => exact h
  | cons s rest ih => exact ih (h.register s)

/-!
## Look-ups
-/

theorem find?_eq_some_iff_getElem? (h : r.IsConsistent) {name : String} :
    r.find? name = some s <->
      exists i : Nat, r.schemas[i]? = some s ∧ s.isCalled name = true := by
  rw [find?, Option.bind_eq_some_iff]
  constructor
  · intro hfound
    rcases hfound with ⟨i, hi, hs⟩
    rcases (h _ i).mp hi with ⟨t, ht, hkey⟩
    rw [hs] at ht
    cases ht
    exact ⟨i, hs, isCalled_iff.mpr hkey⟩
  · intro hcalls
    rcases hcalls with ⟨i, hs, hcalled⟩
    exact ⟨i, (h _ i).mpr ⟨s, hs, isCalled_iff.mp hcalled⟩, hs⟩

theorem find?_eq_some_iff (h : r.IsConsistent) {name : String} :
    r.find? name = some s <-> s ∈ r.schemas ∧ s.isCalled name = true := by
  rw [h.find?_eq_some_iff_getElem?, exists_and_right, List.mem_iff_getElem?]

theorem index_eq (h : r.IsConsistent) {name : String} {i j : Nat}
    (hs : r.schemas[i]? = some s) (ht : r.schemas[j]? = some t)
    (hsname : s.isCalled name = true) (htname : t.isCalled name = true) : i = j := by
  have hi := (h _ i).mpr ⟨s, hs, isCalled_iff.mp hsname⟩
  have hj := (h _ j).mpr ⟨t, ht, isCalled_iff.mp htname⟩
  rw [hi] at hj
  exact Option.some.inj hj

theorem find?_eq (h : r.IsConsistent) (name : String) :
    r.find? name = r.schemas.find? fun s => s.isCalled name := by
  cases hfind : r.schemas.find? fun s => s.isCalled name with
  | some s =>
      exact h.find?_eq_some_iff.mpr
        ⟨List.mem_of_find?_eq_some hfind,
          List.find?_some (p := fun s : Schema σ => s.isCalled name) hfind⟩
  | none =>
      apply Option.eq_none_iff_forall_ne_some.mpr
      intro s hs
      rcases h.find?_eq_some_iff.mp hs with ⟨hmem, hcalled⟩
      exact List.find?_eq_none.mp hfind s hmem hcalled

theorem find?_register (h : r.IsConsistent) (hr : r.register s = (.ok (), r')) (name : String) :
    r'.find? name = (r.find? name).or (if s.isCalled name then some s else none) := by
  have haccepts := h.register_eq_ok_iff.mp (congrArg Prod.fst hr)
  have hr' : r' = r.appended s := (register_eq_ok hr).2
  subst hr'
  rw [(h.appended haccepts).find?_eq, h.find?_eq]
  show (r.schemas ++ [s]).find? _ = _
  rw [List.find?_append]
  cases hs : s.isCalled name with
  | true => simp [hs]
  | false => simp [hs]

end IsConsistent

theorem size_attemptAll (r : Registry σ) (tried : List (Schema σ)) :
    (r.attemptAll tried).size =
      r.size + (answers register r tried).countP fun result => result.isOk := by
  induction tried generalizing r with
  | nil => rfl
  | cons s rest ih =>
      show (attemptAll (r.register s).2 rest).size = _
      rw [ih, answers, List.countP_cons]
      rcases register_cases r s with ⟨e, hrun⟩ | ⟨_, hrun⟩
      · rw [hrun]
        simp [Except.isOk, Except.toBool]
      · rw [hrun]
        simp only [size, appended, List.length_append, List.length_singleton, Except.isOk,
          Except.toBool, if_true]
        omega

end Registry

/--
A registry is consistent after any calls, whether they succeeded or failed: its table leads from
the keys of its schemas to their places, and from no other key.  A further call succeeds
exactly if all names of the schema fit, and then appends the schema and leaves the look-ups as
they were, up to those of the new names; else it fails with the error of the first name that does
not fit, and leaves the registry as it was.  A name finds the schema that it calls, there is at
most one of them, and there are as many schemas as there were successful calls.
-/
theorem registry_stays_consistent (tried : List (Schema σ)) :
    let r := Registry.empty.attemptAll tried
    r.IsConsistent ∧
      (forall s, (r.register s).2.IsConsistent) ∧
      (forall s, (r.register s).1 = .ok () <-> Registry.Accepts r.names s.names) ∧
      (forall s e, (r.register s).1 = .error e <-> Registry.Refuses r.names s.names e) ∧
      (forall s e, (r.register s).1 = .error e -> (r.register s).2 = r) ∧
      (forall s, (r.register s).1 = .ok () ->
        (r.register s).2.schemas = r.schemas ++ [s] ∧
          forall name, (r.register s).2.find? name =
            (r.find? name).or (if s.isCalled name then some s else none)) ∧
      (forall name s, r.find? name = some s <-> s ∈ r.schemas ∧ s.isCalled name = true) ∧
      (forall name (i j : Nat) (s t : Schema σ), r.schemas[i]? = some s ->
        r.schemas[j]? = some t -> s.isCalled name = true -> t.isCalled name = true -> i = j) ∧
      r.size = (answers Registry.register Registry.empty tried).countP fun result =>
        result.isOk := by
  intro r
  have hr : r.IsConsistent := Registry.isConsistent_empty.attemptAll tried
  refine ⟨hr, hr.register, fun s => hr.register_eq_ok_iff, fun s e => hr.register_eq_error_iff,
    ?_, ?_, fun name s => hr.find?_eq_some_iff, ?_, ?_⟩
  · intro s e herror
    rcases Registry.register_cases r s with ⟨_, hrun⟩ | ⟨_, hrun⟩
    · rw [hrun]
    · rw [hrun] at herror
      cases herror
  · intro s hok
    have hrun : r.register s = (.ok (), (r.register s).2) := Prod.ext hok rfl
    refine ⟨?_, hr.find?_register hrun⟩
    rw [(Registry.register_eq_ok hrun).2]
    rfl
  · intro name i j s t hs ht hsname htname
    exact hr.index_eq hs ht hsname htname
  · rw [Registry.size_attemptAll]
    exact Nat.zero_add _

end BehaviorScript
