/-!
# Tables

A table is a list of keys with their values.  A key that is put again keeps its place and has
the later value from then on, so a look-up finds what was put last.
-/

namespace BehaviorScript
namespace Table

variable {α : Type}

def put (key : String) (value : α) : List (String × α) -> List (String × α)
  | [] => [(key, value)]
  | (k, old) :: rest => if k = key then (k, value) :: rest else (k, old) :: put key value rest

def putAll (keys : List String) (value : α) (entries : List (String × α)) : List (String × α) :=
  keys.foldl (fun entries key => put key value entries) entries

variable {key : String} {value : α} {entries : List (String × α)}

theorem lookup_cons (k : String) :
    ((key, value) :: entries).lookup k = if k = key then some value else entries.lookup k := by
  rw [List.lookup_cons]
  cases hk : k == key with
  | true => rw [if_pos (eq_of_beq hk)]
  | false => rw [if_neg (beq_eq_false_iff_ne.mp hk)]

theorem lookup_put (k : String) :
    (put key value entries).lookup k = if k = key then some value else entries.lookup k := by
  induction entries with
  | nil => exact lookup_cons k
  | cons entry rest ih =>
      rcases entry with ⟨first, old⟩
      rw [put]
      by_cases hfirst : first = key
      · rw [if_pos hfirst, hfirst, lookup_cons, lookup_cons]
        by_cases hk : k = key
        · rw [if_pos hk, if_pos hk]
        · rw [if_neg hk, if_neg hk, if_neg hk]
      · rw [if_neg hfirst, lookup_cons, lookup_cons, ih]
        by_cases hk : k = key
        · have hne : k ≠ first := fun hkfirst => hfirst (hkfirst.symm.trans hk)
          rw [if_neg hne, if_pos hk, if_pos hk]
        · rw [if_neg hk, if_neg hk]

theorem lookup_putAll (keys : List String) (k : String) :
    (putAll keys value entries).lookup k = if k ∈ keys then some value else entries.lookup k := by
  induction keys generalizing entries with
  | nil => simp [putAll]
  | cons first rest ih =>
      show (putAll rest value (put first value entries)).lookup k = _
      rw [ih, lookup_put]
      by_cases hrest : k ∈ rest
      · simp [hrest]
      · by_cases hfirst : k = first
        · simp [hfirst]
        · simp [hrest, hfirst]

theorem put_of_notMem (h : key ∉ entries.map Prod.fst) :
    put key value entries = entries ++ [(key, value)] := by
  induction entries with
  | nil => rfl
  | cons entry rest ih =>
      rcases entry with ⟨first, old⟩
      rw [List.map_cons, List.mem_cons, not_or] at h
      rw [put, if_neg fun hfirst => h.1 hfirst.symm, ih h.2, List.cons_append]

theorem mem_put {entry : String × α} (h : entry ∈ put key value entries) :
    entry = (key, value) ∨ entry ∈ entries := by
  induction entries with
  | nil => exact Or.inl (List.mem_singleton.mp h)
  | cons first rest ih =>
      rcases first with ⟨k, old⟩
      rw [put] at h
      split at h
      · next hk =>
          rcases List.mem_cons.mp h with rfl | hrest
          · exact Or.inl (by rw [hk])
          · exact Or.inr (List.mem_cons_of_mem _ hrest)
      · rcases List.mem_cons.mp h with rfl | hrest
        · exact Or.inr List.mem_cons_self
        · rcases ih hrest with hnew | hold
          · exact Or.inl hnew
          · exact Or.inr (List.mem_cons_of_mem _ hold)

end Table
end BehaviorScript
