import BehaviorScript.Proofs.CallSites

/-!
# Run sections are taken up where they stopped

A run section is taken up at the action index of the context.  Its actions are called one after
another for as long as they are done, each of them in the context that the one before left, one
index further.  The first action that is not done decides where the section is taken up the next
time.  A section that has come to its end stays there.
-/

namespace BehaviorScript

variable {σ : Type}

def Action.KeepsPosition (x : Action σ) : Prop :=
  forall c, (x c).context.position = c.position

/-!
## Calls one after another
-/

/--
The notes are of calls that follow each other: only the last one may be something else than done,
and each call sees what the one before left, one index further.
-/
structure Note.AreThreaded (actions : List (Action σ)) (first : Context σ)
    (notes : List (Note σ)) : Prop where
  genuine : forall n, n ∈ notes -> n.IsCallIn actions
  seen : forall n, notes.head? = some n -> n.seen = first
  chain : notes.IsChain fun n next => n.answer = .done ∧ next.seen = n.left.advance

namespace Note.AreThreaded

theorem nil (actions : List (Action σ)) (first : Context σ) : AreThreaded actions first [] where
  genuine := by simp
  seen := by simp
  chain := .nil

theorem cons {actions : List (Action σ)} {x : Action σ} {site : Site} {c : Context σ}
    {notes : List (Note σ)} (hx : actions[site.index]? = some x)
    (hdone : notes ≠ [] -> (x c).value = .done)
    (h : AreThreaded actions (x c).context.advance notes) :
    AreThreaded actions c (x.note site c :: notes) where
  genuine := List.forall_mem_cons.mpr ⟨⟨x, hx, rfl⟩, h.genuine⟩
  seen := by
    intro n hn
    cases hn
    rfl
  chain := by
    cases notes with
    | nil => exact .singleton _
    | cons next rest =>
        have hnext : next.seen = (x.note site c).left.advance := h.seen next rfl
        exact .cons_cons ⟨hdone (List.cons_ne_nil _ _), hnext⟩ h.chain

end Note.AreThreaded

namespace State

theorem areThreaded_runNotes (s : State σ) (k limit : Nat) (c : Context σ) :
    Note.AreThreaded s.run c (s.runNotes k limit c) := by
  induction limit generalizing c with
  | zero => exact .nil _ _
  | succ limit ih =>
      cases hx : s.run[c.position.actionIndex.toNat]? with
      | none =>
          rw [runNotes_of_none hx]
          exact .nil _ _
      | some x =>
          rw [runNotes_of_some hx]
          by_cases hdone : (x c).value = .done
          · rw [if_pos hdone]
            exact .cons hx (fun _ => hdone) (ih _)
          · rw [if_neg hdone]
            exact .cons hx (fun h => absurd rfl h) (.nil _ _)

end State

/-!
## Where a run section stops
-/

def Context.after (c : Context σ) (calls : List (Note σ)) : Context σ :=
  match calls.getLast? with
  | none => c
  | some n => n.left.advance

theorem Context.after_cons (c : Context σ) (n : Note σ) (calls : List (Note σ)) :
    c.after (n :: calls) = n.left.advance.after calls := by
  unfold after
  rw [List.getLast?_cons]
  cases calls.getLast? with
  | none => rfl
  | some last => rfl

namespace State

/--
What a run section comes to.  If all actions from the index of the context on were done, the
section is at its end.  Otherwise the last action that was called decides.
-/
inductive Concludes (s : State σ) (c : Context σ) :
    List (Note σ) -> TickResult -> Context σ -> Prop where
  | exhausted {calls : List (Note σ)} :
      (forall n, n ∈ calls -> n.answer = .done) ->
      calls.length = s.run.length - c.position.actionIndex.toNat ->
      (c.after calls).position.actionIndex.toNat =
        max c.position.actionIndex.toNat s.run.length ->
      Concludes s c calls .yield (c.after calls)
  | yielded {before : List (Note σ)} {last : Note σ} :
      (forall n, n ∈ before -> n.answer = .done) -> last.answer = .yield ->
      last.left.position.actionIndex.toNat = c.position.actionIndex.toNat + before.length ->
      Concludes s c (before ++ [last]) .yield last.left
  | looped {before : List (Note σ)} {last : Note σ} :
      (forall n, n ∈ before -> n.answer = .done) -> last.answer = .loop ->
      Concludes s c (before ++ [last]) .yield (last.left.setActionIndex 0)
  | went {before : List (Note σ)} {last : Note σ} {destination : UInt64} :
      (forall n, n ∈ before -> n.answer = .done) -> last.answer = .transition destination ->
      last.left.position.actionIndex.toNat = c.position.actionIndex.toNat + before.length ->
      Concludes s c (before ++ [last]) (.transition destination) last.left

variable {s : State σ} {c : Context σ} {x : Action σ}

theorem Concludes.answer_ne {calls : List (Note σ)} {answer : TickResult} {after : Context σ}
    (h : s.Concludes c calls answer after) : answer ≠ .done ∧ answer ≠ .loop := by
  cases h with
  | exhausted | yielded | looped | went => exact ⟨nofun, nofun⟩

theorem toNat_index_advance (hx : x.KeepsPosition)
    (hindex : c.position.actionIndex.toNat + 1 < 2 ^ 64) :
    (x c).context.advance.position.actionIndex.toNat = c.position.actionIndex.toNat + 1 := by
  show ((x c).context.position.actionIndex + 1).toNat = _
  rw [hx c, UInt64.toNat_add]
  exact Nat.mod_eq_of_lt hindex

theorem Concludes.cons {site : Site} {calls : List (Note σ)} {answer : TickResult}
    {after : Context σ} (hx : x.KeepsPosition) (hdone : (x c).value = .done)
    (hinside : c.position.actionIndex.toNat < s.run.length) (hsize : s.run.length < 2 ^ 64)
    (h : s.Concludes (x c).context.advance calls answer after) :
    s.Concludes c (x.note site c :: calls) answer after := by
  have hindex := toNat_index_advance (c := c) hx (by omega)
  cases h with
  | exhausted hall hlength hend =>
      have hafter : (x c).context.advance.after calls = c.after (x.note site c :: calls) :=
        (c.after_cons (x.note site c) calls).symm
      rw [hafter] at hend ⊢
      rw [hindex] at hend hlength
      refine .exhausted (List.forall_mem_cons.mpr ⟨hdone, hall⟩) ?_ ?_
      · rw [List.length_cons]
        omega
      · omega
  | yielded hbefore hlast hend =>
      rw [hindex] at hend
      refine .yielded (List.forall_mem_cons.mpr ⟨hdone, hbefore⟩) hlast ?_
      rw [List.length_cons]
      omega
  | looped hbefore hlast => exact .looped (List.forall_mem_cons.mpr ⟨hdone, hbefore⟩) hlast
  | went hbefore hlast hend =>
      rw [hindex] at hend
      refine .went (List.forall_mem_cons.mpr ⟨hdone, hbefore⟩) hlast ?_
      rw [List.length_cons]
      omega

theorem concludes_cascade (hrun : forall x, x ∈ s.run -> x.KeepsPosition)
    (hsize : s.run.length < 2 ^ 64) (k : Nat) {limit : Nat}
    (hlimit : s.run.length - c.position.actionIndex.toNat < limit) :
    s.Concludes c (s.runNotes k limit c) (s.cascade limit c).value
      (s.cascade limit c).context := by
  induction limit generalizing c with
  -- the limit is more than what is left of the section, so it is never reached
  | zero => exact absurd hlimit (Nat.not_lt_zero _)
  | succ limit ih =>
      cases hx : s.run[c.position.actionIndex.toNat]? with
      | none =>
          have hend : s.run.length ≤ c.position.actionIndex.toNat := List.getElem?_eq_none_iff.mp hx
          rw [runNotes_of_none hx, cascade_of_none hx]
          refine .exhausted (by simp) ?_ ?_
          · exact (Nat.sub_eq_zero_of_le hend).symm
          · exact (Nat.max_eq_left hend).symm
      | some x =>
          have hkeep : x.KeepsPosition := hrun x (List.mem_of_getElem? hx)
          have hinside : c.position.actionIndex.toNat < s.run.length :=
            (List.getElem?_eq_some_iff.mp hx).1
          have hleft : (x c).context.position.actionIndex.toNat =
              c.position.actionIndex.toNat + 0 := by
            rw [hkeep c, Nat.add_zero]
          rcases cascade_of_some hx limit with ⟨hvalue, hcontext⟩
          rw [hvalue, hcontext, goOn, runNotes_of_some hx]
          cases hanswer : (x c).value with
          | done =>
              refine .cons hkeep hanswer hinside hsize (ih ?_)
              rw [toNat_index_advance hkeep (by omega)]
              omega
          | yield => exact .yielded (List.forall_mem_nil _) hanswer hleft
          | loop => exact .looped (List.forall_mem_nil _) hanswer
          | transition destination => exact .went (List.forall_mem_nil _) hanswer hleft

theorem sites_runNotes (hrun : forall x, x ∈ s.run -> x.KeepsPosition)
    (hsize : s.run.length < 2 ^ 64) (k limit : Nat) (c : Context σ) :
    (s.runNotes k limit c).map Note.site =
      (List.range' c.position.actionIndex.toNat (s.runNotes k limit c).length).map
        (Site.mk .run k) := by
  induction limit generalizing c with
  | zero => rfl
  | succ limit ih =>
      cases hx : s.run[c.position.actionIndex.toNat]? with
      | none =>
          rw [runNotes_of_none hx]
          rfl
      | some x =>
          have hinside : c.position.actionIndex.toNat < s.run.length :=
            (List.getElem?_eq_some_iff.mp hx).1
          rw [runNotes_of_some hx]
          by_cases hdone : (x c).value = .done
          · rw [if_pos hdone, List.map_cons, List.length_cons, List.range'_succ, List.map_cons, ih,
              toNat_index_advance (hrun x (List.mem_of_getElem? hx)) (by omega)]
            rfl
          · rw [if_neg hdone]
            rfl

theorem cascade_keeps {β : Type} (view : Context σ -> β)
    (hindex : forall c index, view (c.setActionIndex index) = view c)
    (hrun : forall x, x ∈ s.run -> forall c, view (x c).context = view c) (limit : Nat)
    (c : Context σ) :
    view (s.cascade limit c).context = view c := by
  induction limit generalizing c with
  | zero => rfl
  | succ limit ih =>
      cases hx : s.run[c.position.actionIndex.toNat]? with
      | none => rw [cascade_of_none hx]
      | some x =>
          have hkeep := hrun x (List.mem_of_getElem? hx) c
          rw [(cascade_of_some hx limit).2, goOn, ← hkeep]
          cases (x c).value with
          | done => exact (ih _).trans (hindex _ _)
          | loop => exact hindex _ _
          | yield | transition destination => rfl

theorem stateId_cascade (hrun : forall x, x ∈ s.run -> x.KeepsPosition) (limit : Nat)
    (c : Context σ) :
    (s.cascade limit c).context.position.stateId = c.position.stateId :=
  cascade_keeps (·.position.stateId) (fun _ _ => rfl)
    (fun x hx c => congrArg Position.stateId (hrun x hx c)) limit c

/-!
## Ticks of a run section
-/

def tickCalls (s : State σ) (k : Nat) (c : Context σ) : List (Note σ) :=
  ((s.noted k).tick c.noted).notes

def Rests (s : State σ) (k : Nat) (c : Context σ) : Prop :=
  s.tick c = ⟨.yield, c, []⟩ ∧ s.tickCalls k c = []

/--
A tick of the run section calls its actions from the index of the context on, each of them once and
in the context that the one before left, up to the first that is not done.
-/
structure Resumes (s : State σ) (k : Nat) (c : Context σ) : Prop where
  faithful : ((s.noted k).tick c.noted).unnoted = s.tick c
  sites : (s.tickCalls k c).map Note.site =
    (List.range' c.position.actionIndex.toNat (s.tickCalls k c).length).map (Site.mk .run k)
  threaded : Note.AreThreaded s.run c (s.tickCalls k c)
  concludes : s.Concludes c (s.tickCalls k c) (s.tick c).value (s.tick c).context
  answer_ne : (s.tick c).value ≠ .done ∧ (s.tick c).value ≠ .loop
  stateId_eq : (s.tick c).context.position.stateId = c.position.stateId
  rests : s.run.length ≤ c.position.actionIndex.toNat -> s.Rests k c
  exhausts : (forall n, n ∈ s.tickCalls k c -> n.answer = .done) -> s.Rests k (s.tick c).context

theorem tickCalls_eq (s : State σ) (k : Nat) (c : Context σ) :
    s.tickCalls k c = s.runNotes k cascadeLimit c :=
  ((s.cascade_notes k cascadeLimit).of_noted c).2

theorem rests_of_le (hend : s.run.length ≤ c.position.actionIndex.toNat) (k : Nat) :
    s.Rests k c := by
  have hnone : s.run[c.position.actionIndex.toNat]? = none := List.getElem?_eq_none hend
  constructor
  · exact cascade_of_none hnone (cascadeLimit - 1)
  · rw [tickCalls_eq, runNotes_of_none hnone]

theorem Concludes.le_of_done {calls : List (Note σ)} {answer : TickResult} {after : Context σ}
    (h : s.Concludes c calls answer after) (hdone : forall n, n ∈ calls -> n.answer = .done) :
    s.run.length ≤ after.position.actionIndex.toNat := by
  cases h with
  | exhausted _ _ hend =>
      rw [hend]
      exact Nat.le_max_right _ _
  | @yielded _ last _ hlast | @looped _ last _ hlast | @went _ last _ _ hlast =>
      have hanswer : last.answer = .done := hdone last (by simp)
      rw [hanswer] at hlast
      cases hlast

end State

/--
A run section whose actions leave the position alone is taken up at the index of the context, goes
on to the first action that is not done, and stops there.  When all of them are done it stays at its
end.
-/
theorem run_section_resumes {s : State σ} (hrun : forall x, x ∈ s.run -> x.KeepsPosition)
    (hsize : s.run.length < 2 ^ 64) (k : Nat) (c : Context σ) : s.Resumes k c := by
  have hlimit : s.run.length - c.position.actionIndex.toNat < State.cascadeLimit :=
    Nat.lt_of_le_of_lt (Nat.sub_le _ _) hsize
  have hconcludes : s.Concludes c (s.tickCalls k c) (s.tick c).value (s.tick c).context := by
    rw [State.tickCalls_eq]
    exact State.concludes_cascade hrun hsize k hlimit
  exact {
    faithful := ((s.cascade_notes k State.cascadeLimit).of_noted c).1
    sites := by
      rw [State.tickCalls_eq]
      exact State.sites_runNotes hrun hsize k State.cascadeLimit c
    threaded := by
      rw [State.tickCalls_eq]
      exact s.areThreaded_runNotes k State.cascadeLimit c
    concludes := hconcludes
    answer_ne := hconcludes.answer_ne
    stateId_eq := State.stateId_cascade hrun State.cascadeLimit c
    rests := fun hend => State.rests_of_le hend k
    exhausts := fun hdone => State.rests_of_le (hconcludes.le_of_done hdone) k }

def Action.counting (answer : Nat -> TickResult) : Action Nat :=
  fun c => ⟨answer c.data, { c with data := c.data + 1, lastError := none }, []⟩

def State.pump : State Nat where
  name := "pump"
  run := [
    Action.counting fun _ => .done,
    Action.counting fun n => if n < 4 then .loop else .done,
    Action.counting fun n => if n < 6 then .yield else .transition 1]

theorem run_section_resumes_pump :
    (forall x, x ∈ State.pump.run -> x.KeepsPosition) ∧
      State.pump.run.length < 2 ^ 64 ∧
      State.pump.Resumes 7
        { position := ⟨7, 1⟩, lastError := some .enterActionNotDone, data := 4 } ∧
      State.pump.Resumes 7 { position := ⟨7, 18446744073709551615⟩, data := 0 } := by
  have hrun : forall x, x ∈ State.pump.run -> x.KeepsPosition := by
    intro x hx c
    simp only [State.pump, List.mem_cons, List.not_mem_nil, or_false] at hx
    rcases hx with rfl | rfl | rfl <;> rfl
  have hsize : State.pump.run.length < 2 ^ 64 := by decide
  exact ⟨hrun, hsize, run_section_resumes hrun hsize 7 _, run_section_resumes hrun hsize 7 _⟩

end BehaviorScript
