import BehaviorScript.Script
import BehaviorScript.Table
import Mathlib.Data.List.Forall2
import Mathlib.Data.List.Nodup

/-!
# Results and lists

What a computation went through that succeeded or failed, and lists that are related entry by entry.
A traversal that succeeds relates its input to its output in this way, so most facts about
compiled scripts are carried from lines to actions by the lemmas below.
-/

namespace BehaviorScript

/-!
## Results one after another
-/

theorem bind_eq_ok {ε α β : Type} {x : Except ε α} {f : α -> Except ε β} {b : β}
    (h : (x >>= f) = .ok b) :
    exists a, x = .ok a ∧ f a = .ok b := by
  cases x with
  | error e => cases h
  | ok a => exact ⟨a, rfl, h⟩

theorem except_map_eq_ok {ε α β : Type} {x : Except ε α} {f : α -> β} {b : β}
    (h : x.map f = .ok b) :
    exists a, x = .ok a ∧ f a = b := by
  cases x with
  | error e => cases h
  | ok a =>
      cases h
      exact ⟨a, rfl, rfl⟩

theorem bind_eq_error {ε α β : Type} {x : Except ε α} {f : α -> Except ε β} {e : ε}
    (h : (x >>= f) = .error e) :
    x = .error e ∨ exists a, x = .ok a ∧ f a = .error e := by
  cases x with
  | error e' =>
      cases h
      exact Or.inl rfl
  | ok a => exact Or.inr ⟨a, rfl, h⟩

theorem except_map_eq_error {ε α β : Type} {x : Except ε α} {f : α -> β} {e : ε}
    (h : x.map f = .error e) : x = .error e := by
  cases x with
  | error e' =>
      cases h
      rfl
  | ok a => cases h

theorem exists_of_toOption_map_eq_some {ε α β : Type} {x : Except ε α} {f : α -> β} {b : β}
    (h : x.toOption.map f = some b) :
    exists a, x = .ok a ∧ f a = b := by
  cases x with
  | error e => cases h
  | ok a =>
      cases h
      exact ⟨a, rfl, rfl⟩

/-!
## Lists entry by entry
-/

theorem forall₂_of_mapM_eq_ok {ε α β : Type} {f : α -> Except ε β}
    {xs : List α} {ys : List β} (h : xs.mapM f = .ok ys) :
    List.Forall₂ (fun x y => f x = .ok y) xs ys := by
  induction xs generalizing ys with
  | nil =>
      cases h
      exact List.Forall₂.nil
  | cons x xs ih =>
      rw [List.mapM_cons] at h
      rcases bind_eq_ok h with ⟨y, hy, hrest⟩
      rcases bind_eq_ok hrest with ⟨zs, hzs, hcons⟩
      cases hcons
      exact List.Forall₂.cons hy (ih hzs)

theorem exists_of_mapM_eq_error {ε α β : Type} {f : α -> Except ε β} {xs : List α} {e : ε}
    (h : xs.mapM f = .error e) : exists x, x ∈ xs ∧ f x = .error e := by
  induction xs with
  | nil => cases h
  | cons x xs ih =>
      rw [List.mapM_cons] at h
      rcases bind_eq_error h with hx | ⟨y, _, hrest⟩
      · exact ⟨x, List.mem_cons_self, hx⟩
      · rcases bind_eq_error hrest with hxs | ⟨ys, _, hcons⟩
        · rcases ih hxs with ⟨z, hz, hfz⟩
          exact ⟨z, List.mem_cons_of_mem _ hz, hfz⟩
        · cases hcons

theorem forall₂_comp {α β γ : Type} {R : α -> β -> Prop} {S : β -> γ -> Prop}
    {xs : List α} {ys : List β} {zs : List γ}
    (hR : List.Forall₂ R xs ys) (hS : List.Forall₂ S ys zs) :
    List.Forall₂ (fun x z => exists y, R x y ∧ S y z) xs zs := by
  induction hR generalizing zs with
  | nil =>
      cases hS
      exact List.Forall₂.nil
  | cons hxy _ ih =>
      cases hS with
      | cons hyz hrest => exact List.Forall₂.cons ⟨_, hxy, hyz⟩ (ih hrest)

theorem eq_of_forall₂ {α β : Type} {R S : α -> β -> Prop}
    (hagree : forall x y z, R x y -> S x z -> y = z) {xs : List α} {ys zs : List β}
    (hR : List.Forall₂ R xs ys) (hS : List.Forall₂ S xs zs) : ys = zs := by
  have hflip : List.Forall₂ (fun y x => R x y) ys xs := hR.flip
  have heq : List.Forall₂ (fun y z => y = z) ys zs :=
    (forall₂_comp hflip hS).imp fun y z ⟨x, hy, hz⟩ => hagree x y z hy hz
  rwa [List.forall₂_eq_eq_eq] at heq

theorem map_eq_map_of_forall₂ {α β γ : Type} {R : α -> β -> Prop} {f : α -> γ} {g : β -> γ}
    (hR : forall x y, R x y -> f x = g y) {xs : List α} {ys : List β}
    (h : List.Forall₂ R xs ys) : xs.map f = ys.map g := by
  induction h with
  | nil => rfl
  | cons hxy _ ih => rw [List.map_cons, List.map_cons, hR _ _ hxy, ih]

theorem map_eq_of_forall₂ {α β : Type} {R : α -> α -> Prop} {f : α -> β}
    (hR : forall x y, R x y -> f y = f x) {xs ys : List α} (h : List.Forall₂ R xs ys) :
    ys.map f = xs.map f :=
  (map_eq_map_of_forall₂ (fun x y hxy => (hR x y hxy).symm) h).symm

theorem exists_of_forall₂_mem {α β : Type} {R : α -> β -> Prop}
    {xs : List α} {ys : List β} (h : List.Forall₂ R xs ys) {y : β} (hy : y ∈ ys) :
    exists x, x ∈ xs ∧ R x y := by
  induction h with
  | nil => cases hy
  | cons hxy _ ih =>
      cases hy with
      | head => exact ⟨_, List.mem_cons_self, hxy⟩
      | tail _ hmem =>
          rcases ih hmem with ⟨x, hx, hR⟩
          exact ⟨x, List.mem_cons_of_mem _ hx, hR⟩

theorem exists_of_forall₂_getElem? {α β : Type} {R : α -> β -> Prop} {xs : List α} {ys : List β}
    (h : List.Forall₂ R xs ys) {i : Nat} {x : α} (hx : xs[i]? = some x) :
    exists y, ys[i]? = some y ∧ R x y := by
  induction h generalizing i with
  | nil => simp at hx
  | cons hxy _ ih =>
      cases i with
      | zero =>
          cases hx
          exact ⟨_, rfl, hxy⟩
      | succ i => exact ih hx

theorem rel_getElem?_of_forall₂ {α β : Type} {R : α -> β -> Prop} {xs : List α} {ys : List β}
    (h : List.Forall₂ R xs ys) (i : Nat) : Option.Rel R xs[i]? ys[i]? := by
  induction h generalizing i with
  | nil => exact Option.Rel.none
  | cons hxy _ ih =>
      cases i with
      | zero => exact Option.Rel.some hxy
      | succ i => exact ih i

theorem exists_of_forall₂_append {α β : Type} {R : α -> β -> Prop} {xs xs' : List α}
    {ys : List β} (h : List.Forall₂ R (xs ++ xs') ys) :
    exists us vs, ys = us ++ vs ∧ List.Forall₂ R xs us ∧ List.Forall₂ R xs' vs := by
  induction xs generalizing ys with
  | nil => exact ⟨[], ys, rfl, List.Forall₂.nil, h⟩
  | cons x xs ih =>
      cases h with
      | cons hxy hrest =>
          rcases ih hrest with ⟨us, vs, rfl, hus, hvs⟩
          exact ⟨_ :: us, vs, rfl, List.Forall₂.cons hxy hus, hvs⟩

theorem mem_of_lookup_eq_some {α β : Type} [BEq α] [LawfulBEq α] {entries : List (α × β)}
    {key : α} {value : β} (h : entries.lookup key = some value) :
    (key, value) ∈ entries := by
  rcases List.lookup_eq_some_iff.mp h with ⟨before, after, rfl, _⟩
  exact List.mem_append_right _ List.mem_cons_self

/-!
## Keys that are put once
-/

def appendNew {α : Type} [DecidableEq α] (key : α) (keys : List α) : List α :=
  if key ∈ keys then keys else keys ++ [key]

section AppendNew

variable {α : Type} [DecidableEq α] {key first : α} {keys : List α}

theorem appendNew_cons_self : appendNew key (key :: keys) = key :: keys := by
  simp [appendNew]

theorem appendNew_cons_of_ne (h : first ≠ key) :
    appendNew key (first :: keys) = first :: appendNew key keys := by
  by_cases hmem : key ∈ keys
  · simp [appendNew, hmem]
  · simp [appendNew, hmem, h.symm]

theorem mem_appendNew {other : α} : other ∈ appendNew key keys <-> other ∈ keys ∨ other = key := by
  by_cases hmem : key ∈ keys
  · simp only [appendNew, if_pos hmem]
    constructor
    · exact Or.inl
    · rintro (hother | rfl)
      · exact hother
      · exact hmem
  · simp [appendNew, hmem]

theorem nodup_appendNew (h : keys.Nodup) (key : α) : (appendNew key keys).Nodup := by
  by_cases hmem : key ∈ keys
  · simpa [appendNew, hmem] using h
  · simpa [appendNew, hmem] using h.concat hmem

end AppendNew

theorem Table.keys_put {α : Type} (key : String) (value : α) (entries : List (String × α)) :
    (put key value entries).map Prod.fst = appendNew key (entries.map Prod.fst) := by
  induction entries with
  | nil => rfl
  | cons entry rest ih =>
      rcases entry with ⟨k, old⟩
      rw [put]
      split
      · next hk => rw [List.map_cons, List.map_cons, hk, appendNew_cons_self]
      · next hk => rw [List.map_cons, List.map_cons, ih, appendNew_cons_of_ne hk]

/-!
## Arrows among parameters
-/

def Param.countArrows (params : List Param) : Nat :=
  params.countP fun x => x.op == .transition

theorem Param.countArrows_append (params more : List Param) :
    countArrows (params ++ more) = countArrows params + countArrows more :=
  List.countP_append

end BehaviorScript
