import BehaviorScript.Script.Resolve
import Mathlib.Data.List.Induction

/-!
# The table of state names

Filling an empty table with the states of a script succeeds just when no two of them have the same
name, and each name then has the place of its state.  An entry overwrites what was there before, so
it is the check for repeated names that keeps the numbers right.
-/

namespace BehaviorScript

/-!
## Different names
-/

def StateBlock.AreDistinct (states : List StateBlock) : Prop :=
  states.Pairwise fun a b => ¬ Text.sameName a.name b.name = true

theorem StateBlock.areDistinct_concat {before : List StateBlock} {s : StateBlock} :
    AreDistinct (before ++ [s]) <->
      AreDistinct before ∧
        ¬ exists earlier, earlier ∈ before ∧ Text.sameName earlier.name s.name = true := by
  simp [AreDistinct, List.pairwise_append]

theorem StateBlock.areDistinct_or_repeated (states : List StateBlock) :
    AreDistinct states ∨
      exists before block after, states = before ++ block :: after ∧ AreDistinct before ∧
        exists earlier, earlier ∈ before ∧ Text.sameName earlier.name block.name = true := by
  induction states using List.reverseRecOn with
  | nil => exact Or.inl List.Pairwise.nil
  | append_singleton states s ih =>
      rcases ih with hdistinct | ⟨before, block, after, rfl, hbefore, hearlier⟩
      · by_cases hnew : exists earlier, earlier ∈ states ∧
            Text.sameName earlier.name s.name = true
        · exact Or.inr ⟨states, s, [], rfl, hdistinct, hnew⟩
        · exact Or.inl (areDistinct_concat.mpr ⟨hdistinct, hnew⟩)
      · refine Or.inr ⟨before, block, after ++ [s], ?_, hbefore, hearlier⟩
        rw [List.append_assoc, List.cons_append]

namespace NameTable

/-!
## Places of names
-/

/--
The table with the names of the given states, numbered in their order.
-/
def ofStates (states : List StateBlock) : NameTable :=
  ⟨(states.map fun s => Text.foldCase s.name).zipIdx⟩

theorem lookup_zipIdx (states : List StateBlock) (key : String) (first : Nat) :
    ((states.map fun s => Text.foldCase s.name).zipIdx first).lookup key =
      (states.findIdx? fun s => Text.foldCase s.name == key).map fun i => i + first := by
  induction states generalizing first with
  | nil => rfl
  | cons s rest ih =>
      rw [List.map_cons, List.zipIdx_cons, Table.lookup_cons, List.findIdx?_cons, ih]
      by_cases hkey : key = Text.foldCase s.name
      · simp [hkey]
      · have hne : (Text.foldCase s.name == key) = false := beq_eq_false_iff_ne.mpr (Ne.symm hkey)
        simp only [hkey, hne, if_false, Bool.false_eq_true, Option.map_map]
        congr 1
        funext i
        simp only [Function.comp_apply]
        omega

theorem find?_ofStates (states : List StateBlock) (name : String) :
    (ofStates states).find? name = states.findIdx? fun s => Text.sameName s.name name := by
  have hlookup := lookup_zipIdx states (Text.foldCase name) 0
  simpa [find?, ofStates, Text.sameName] using hlookup

theorem isSome_find?_ofStates {states : List StateBlock} {name : String} :
    ((ofStates states).find? name).isSome = true <->
      exists s, s ∈ states ∧ Text.sameName s.name name = true := by
  simp [find?_ofStates, List.findIdx?_isSome]

theorem exists_of_find?_ofStates {states : List StateBlock} {name : String} {i : Nat}
    (h : (ofStates states).find? name = some i) :
    exists s, states[i]? = some s ∧ Text.sameName s.name name = true := by
  rw [find?_ofStates] at h
  rcases List.findIdx?_eq_some_iff_getElem.mp h with ⟨hlt, hsame, _⟩
  exact ⟨states[i], List.getElem?_eq_getElem hlt, hsame⟩

theorem find?_ofStates_append {states : List StateBlock} {name : String} {i : Nat}
    (h : (ofStates states).find? name = some i) (more : List StateBlock) :
    (ofStates (states ++ more)).find? name = some i := by
  rw [find?_ofStates] at h ⊢
  rw [List.findIdx?_append, h]
  rfl

theorem find?_ofStates_eq_some_iff {states : List StateBlock}
    (hdistinct : StateBlock.AreDistinct states) {name : String} {i : Nat} :
    (ofStates states).find? name = some i <->
      exists s, states[i]? = some s ∧ Text.sameName s.name name = true := by
  constructor
  · exact exists_of_find?_ofStates
  · intro h
    rcases h with ⟨s, hs, hsame⟩
    rcases Option.isSome_iff_exists.mp
      (isSome_find?_ofStates.mpr ⟨s, List.mem_of_getElem? hs, hsame⟩) with ⟨j, hj⟩
    rcases exists_of_find?_ofStates hj with ⟨t, ht, htsame⟩
    rcases List.getElem?_eq_some_iff.mp hs with ⟨hi, rfl⟩
    rcases List.getElem?_eq_some_iff.mp ht with ⟨hlt, rfl⟩
    have hst : Text.foldCase states[i].name = Text.foldCase states[j].name :=
      (Text.sameName_iff.mp hsame).trans (Text.sameName_iff.mp htsame).symm
    have hpairs := List.pairwise_iff_getElem.mp hdistinct
    rcases Nat.lt_trichotomy i j with hij | rfl | hij
    · exact absurd (Text.sameName_iff.mpr hst) (hpairs i j hi hlt hij)
    · exact hj
    · exact absurd (Text.sameName_iff.mpr hst.symm) (hpairs j i hlt hi hij)

/-!
## Filling
-/

theorem insert_ofStates {states : List StateBlock} {s : StateBlock}
    (hnew : ¬ exists earlier, earlier ∈ states ∧ Text.sameName earlier.name s.name = true) :
    (ofStates states).insert s.name states.length = (none, ofStates (states ++ [s])) := by
  have hnone : (ofStates states).find? s.name = none := by
    rw [← Option.not_isSome_iff_eq_none, isSome_find?_ofStates]
    exact hnew
  have hkey : Text.foldCase s.name ∉ (ofStates states).entries.map Prod.fst := by
    intro hmem
    simp only [ofStates, List.zipIdx_map_fst, List.mem_map] at hmem
    rcases hmem with ⟨earlier, hearlier, heq⟩
    exact hnew ⟨earlier, hearlier, Text.sameName_iff.mpr heq⟩
  -- only because the key is new does the entry go to the end
  rw [insert, hnone, Table.put_of_notMem hkey]
  simp [ofStates, List.zipIdx_append]

theorem fill_append (before : List StateBlock) {middle : List StateBlock}
    (hdistinct : StateBlock.AreDistinct (before ++ middle)) (rest : List StateBlock) :
    (ofStates before).fill before.length (middle ++ rest) =
      (ofStates (before ++ middle)).fill (before ++ middle).length rest := by
  induction middle generalizing before with
  | nil => rw [List.append_nil, List.nil_append]
  | cons s middle ih =>
      rw [List.append_cons] at hdistinct
      have hnew := (StateBlock.areDistinct_concat.mp (List.pairwise_append.mp hdistinct).1).2
      have hstep := ih (before ++ [s]) hdistinct
      rw [List.length_append, List.length_singleton, ← List.append_cons] at hstep
      rw [List.cons_append, fill, insert_ofStates hnew]
      exact hstep

theorem fill_of_distinct {states : List StateBlock} (hdistinct : StateBlock.AreDistinct states) :
    fill {} 0 states = (ofStates states, none) := by
  have hfill := fill_append [] hdistinct []
  rw [List.append_nil] at hfill
  exact hfill

theorem fill_of_repeated {before : List StateBlock} {block : StateBlock}
    (hbefore : StateBlock.AreDistinct before)
    (hearlier : exists s, s ∈ before ∧ Text.sameName s.name block.name = true)
    (after : List StateBlock) :
    (fill {} 0 (before ++ block :: after)).2 =
      some (.duplicateState block.line block.name) := by
  have hfill := fill_append [] hbefore (block :: after)
  rcases Option.isSome_iff_exists.mp (isSome_find?_ofStates.mpr hearlier) with ⟨i, hi⟩
  rw [List.nil_append, fill, insert, hi] at hfill
  exact congrArg Prod.snd hfill

/--
The only table that filling can end with is that of the states, and it does so when their names
are different.
-/
theorem fill_eq_none_iff {states : List StateBlock} {table : NameTable} :
    fill {} 0 states = (table, none) <->
      StateBlock.AreDistinct states ∧ table = ofStates states := by
  constructor
  · intro h
    rcases StateBlock.areDistinct_or_repeated states with
      hdistinct | ⟨before, block, after, rfl, hbefore, hearlier⟩
    · rw [fill_of_distinct hdistinct] at h
      cases h
      exact ⟨hdistinct, rfl⟩
    · have hrepeated := fill_of_repeated hbefore hearlier after
      rw [h] at hrepeated
      cases hrepeated
  · intro h
    rcases h with ⟨hdistinct, rfl⟩
    exact fill_of_distinct hdistinct

theorem fill_eq_error {t t' : NameTable} {index : Nat} {states : List StateBlock}
    {e : CompileError} (h : t.fill index states = (t', some e)) :
    exists s, s ∈ states ∧ e = .duplicateState s.line s.name := by
  induction states generalizing t index with
  | nil => cases h
  | cons s rest ih =>
      rw [fill] at h
      split at h
      · cases h
        exact ⟨s, List.mem_cons_self, rfl⟩
      · rcases ih h with ⟨s', hs', he⟩
        exact ⟨s', List.mem_cons_of_mem _ hs', he⟩

end NameTable
end BehaviorScript
